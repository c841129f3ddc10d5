import Mathlib.Data.List.Nodup
import Mathlib.Logic.Function.Basic

/-!
A map to which entries are only added, each under a key that has none yet. What the map
holds after any number of additions is what it held before, and the added entries.
-/
namespace StructureOfOs.WriteOnce

variable {Key Value : Type}

/-- The keys of the entries are new, and all different. -/
structure Fresh (F : Key → Option Value) (entries : List (Key × Value)) : Prop where
  absent : ∀ entry ∈ entries, F entry.1 = none
  distinct : (entries.map (·.1)).Nodup

variable {F : Key → Option Value} {entries : List (Key × Value)} {entry : Key × Value} {key : Key} {value : Value}

variable [DecidableEq Key]

/-- The map with one more entry, and with several. -/
def put (F : Key → Option Value) (entry : Key × Value) : Key → Option Value := Function.update F entry.1 (some entry.2)
def puts (F : Key → Option Value) (entries : List (Key × Value)) : Key → Option Value := entries.foldl put F

theorem puts_other (other : key ∉ entries.map (·.1)) : puts F entries key = F key := by
  induction entries generalizing F with
  | nil => rfl
  | cons entry rest ih =>
    simp only [List.map_cons,List.mem_cons,not_or] at other
    show puts (put F entry) rest key = F key
    rw [ih other.2,put,Function.update_of_ne other.1]

/-- What was there is there with the same value. -/
theorem Fresh.keeps (fresh : Fresh F entries) (there : F key = some value) : puts F entries key = some value := by
  rw [puts_other,there]
  intro among
  obtain ⟨entry,member,rfl⟩ := List.mem_map.mp among
  rw [fresh.absent entry member] at there
  cases there

/-- An added entry is there with its value. -/
theorem Fresh.stored (fresh : Fresh F entries) (member : entry ∈ entries) : puts F entries entry.1 = some entry.2 := by
  obtain ⟨before,later,rfl⟩ := List.append_of_mem member
  have after : entry.1 ∉ later.map (·.1) := by
    have distinct := fresh.distinct
    rw [List.map_append,List.map_cons,List.nodup_append] at distinct
    exact (List.nodup_cons.mp distinct.2.1).1
  have reached : puts F (before ++ entry :: later) = puts (put (puts F before) entry) later := by simp [puts]
  rw [reached,puts_other after,put,Function.update_self]

/-- The keys without an entry. -/
theorem Fresh.absent_iff (fresh : Fresh F entries) :
    puts F entries key = none ↔ F key = none ∧ key ∉ entries.map (·.1) := by
  constructor
  · intro none
    have unused : key ∉ entries.map (·.1) := by
      intro among
      obtain ⟨entry,member,rfl⟩ := List.mem_map.mp among
      rw [fresh.stored member] at none
      cases none
    rw [puts_other unused] at none
    exact ⟨none,unused⟩
  · rintro ⟨absent,unused⟩
    rw [puts_other unused,absent]

/-- A key that has no entry is new. -/
theorem Fresh.snoc (fresh : Fresh F entries) (new : puts F entries key = none) : Fresh F (entries ++ [(key,value)]) := by
  obtain ⟨absent,unused⟩ := fresh.absent_iff.mp new
  constructor
  · intro entry among
    rcases List.mem_append.mp among with earlier | last
    · exact fresh.absent entry earlier
    · rw [List.mem_singleton.mp last]; exact absent
  · rw [List.map_append,List.nodup_append]
    refine ⟨fresh.distinct,by simp,fun a before b last same => ?_⟩
    simp only [List.map_cons,List.map_nil,List.mem_singleton] at last
    exact unused (last ▸ same ▸ before)

end StructureOfOs.WriteOnce
