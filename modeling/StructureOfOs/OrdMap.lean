import Mathlib.Data.List.Sort
import Mathlib.Algebra.BigOperators.Group.List.Basic
import Mathlib.Algebra.Ring.Int.Defs
import Mathlib.Order.Defs.LinearOrder
import Mathlib.Data.List.Count

/-!
Maps ordered by their keys, with the behaviour of `std::map`: `insert` keeps an
entry that is already there, `erase` removes the entry of a key, and an iteration
visits the entries in increasing order of the keys.
-/
namespace StructureOfOs

/-- Entries in strictly increasing order of the keys. -/
structure OrdMap (K V : Type) [LinearOrder K] where
  entries : List (K × V)
  sorted : entries.Pairwise (fun a b => a.1 < b.1)

variable {K V W : Type} [LinearOrder K]

namespace OrdMap
def empty : OrdMap K V := ⟨[],.nil⟩
/-- The value of a key, `none` for `end()`. -/
def find (m : OrdMap K V) (k : K) : Option V := (m.entries.find? (fun e => e.1 = k)).map (·.2)
/-- The first entry, where an iteration begins. -/
def first (m : OrdMap K V) : Option (K × V) := m.entries.head?
/-- The entry after a key, where an iteration goes on. -/
def after (m : OrdMap K V) (k : K) : Option (K × V) := m.entries.find? (fun e => k < e.1)
/-- A new entry; nothing changes when the key has one already. -/
def insert (m : OrdMap K V) (k : K) (v : V) : OrdMap K V :=
  if (m.find k).isSome then m
  else ⟨m.entries.filter (·.1 < k) ++ (k,v) :: m.entries.filter (k < ·.1), by
    refine List.pairwise_append.mpr ⟨m.sorted.filter _,List.pairwise_cons.mpr ⟨by simp,m.sorted.filter _⟩,?_⟩
    intro low lower high higher
    have lower : low.1 < k := by simpa using (List.mem_filter.mp lower).2
    rcases List.mem_cons.mp higher with rfl | higher
    · exact lower
    · exact lower.trans (by simpa using (List.mem_filter.mp higher).2)⟩
/-- The entries of the other keys. -/
def erase (m : OrdMap K V) (k : K) : OrdMap K V := ⟨m.entries.filter (·.1 ≠ k),m.sorted.filter _⟩
/-- The values changed, under the same keys. -/
def map (f : V → W) (m : OrdMap K V) : OrdMap K W :=
  ⟨m.entries.map (fun e => (e.1,f e.2)),m.sorted.map _ fun _ _ h => h⟩
/-- The value of an existing key overwritten. -/
def set (m : OrdMap K V) (k : K) (v : V) : OrdMap K V :=
  ⟨m.entries.map (fun e => if e.1 = k then (k,v) else e),by
    refine m.sorted.map _ fun a b less => ?_
    by_cases left : a.1 = k <;> by_cases right : b.1 = k <;> simp_all⟩

variable {m n : OrdMap K V} {k j : K} {v w : V}

theorem key_unique {e e' : K × V} (member : e ∈ m.entries) (member' : e' ∈ m.entries) (same : e.1 = e'.1) : e = e' := by
  have distinct : (m.entries.map (·.1)).Nodup := List.pairwise_map.mpr (m.sorted.imp fun less => less.ne)
  exact List.inj_on_of_nodup_map distinct member member' same

@[simp] theorem find_empty : (empty : OrdMap K V).find k = none := rfl

theorem find_eq_some : m.find k = some v ↔ (k,v) ∈ m.entries := by
  constructor
  · intro found
    obtain ⟨⟨key,value⟩,at_,rfl⟩ := Option.map_eq_some_iff.mp found
    have same : key = k := by simpa using List.find?_some at_
    exact same ▸ List.mem_of_find?_eq_some at_
  · intro member
    obtain ⟨e,at_⟩ := Option.isSome_iff_exists.mp
      (List.find?_isSome (p := fun e : K × V => decide (e.1 = k)).mpr ⟨(k,v),member,by simp⟩)
    have same : e.1 = k := by simpa using List.find?_some at_
    have : e = (k,v) := key_unique (List.mem_of_find?_eq_some at_) member same
    simp [find,at_,this]
theorem find_eq_none : m.find k = none ↔ ∀ v, (k,v) ∉ m.entries := by
  rw [Option.eq_none_iff_forall_ne_some]
  exact forall_congr' fun v => find_eq_some.not

/-! ### The values -/

theorem mem_values : v ∈ m.entries.map (·.2) ↔ ∃ k, m.find k = some v := by
  simp [find_eq_some]
/-- No value comes twice when no two keys have the same one. -/
theorem values_nodup (once : ∀ j k v, m.find j = some v → m.find k = some v → j = k) : (m.entries.map (·.2)).Nodup := by
  refine List.Nodup.map_on (fun e member e' member' same => ?_) (m.sorted.imp fun less => ?_)
  · have key : e.1 = e'.1 := once e.1 e'.1 e.2 (find_eq_some.mpr member) (find_eq_some.mpr (same ▸ member'))
    exact key_unique member member' key
  · rintro rfl
    exact lt_irrefl _ less

/-- Two maps that answer alike are equal. -/
theorem ext_find (same : ∀ k, m.find k = n.find k) : m = n := by
  have entries : m.entries = n.entries := by
    have : Std.Antisymm (fun a b : K × V => a.1 < b.1) := ⟨fun _ _ h h' => absurd h h'.asymm⟩
    have : Std.Irrefl (fun a b : K × V => a.1 < b.1) := ⟨fun _ => lt_irrefl _⟩
    refine List.Pairwise.eq_of_mem_iff m.sorted n.sorted fun ⟨k,v⟩ => ?_
    rw [← find_eq_some,← find_eq_some,same]
  cases m; cases n; cases entries; rfl

theorem insert_of_some (found : m.find k = some w) : m.insert k v = m := by simp [insert,found]
theorem entries_insert (absent : m.find k = none) :
    (m.insert k v).entries = m.entries.filter (·.1 < k) ++ (k,v) :: m.entries.filter (k < ·.1) := by
  simp [insert,absent]
theorem find_insert_self (absent : m.find k = none) : (m.insert k v).find k = some v := by
  rw [find_eq_some,entries_insert absent]; simp
theorem find_insert_other (other : j ≠ k) : (m.insert k v).find j = m.find j := by
  cases found : m.find k with
  | some w => rw [insert_of_some found]
  | none =>
    refine Option.ext fun w => ?_
    rw [find_eq_some,find_eq_some,entries_insert found]
    rcases lt_or_gt_of_ne other with less | less <;> simp [other,less,less.asymm]
@[simp] theorem find_erase_self : (m.erase k).find k = none := by
  rw [find_eq_none]; simp [erase]
theorem find_erase_other (other : j ≠ k) : (m.erase k).find j = m.find j := by
  refine Option.ext fun w => ?_
  rw [find_eq_some,find_eq_some]; simp [erase,other]
theorem find_map (f : V → W) : (m.map f).find k = (m.find k).map f := by
  refine Option.ext fun w => ?_
  rw [find_eq_some,Option.map_eq_some_iff]
  simp [map,find_eq_some]
theorem find_set_self (found : m.find k = some w) : (m.set k v).find k = some v := by
  rw [find_eq_some] at found ⊢
  exact List.mem_map.mpr ⟨(k,w),found,by simp⟩
theorem find_set_other (other : j ≠ k) : (m.set k v).find j = m.find j := by
  refine Option.ext fun w => ?_
  rw [find_eq_some,find_eq_some]
  constructor
  · intro member
    obtain ⟨e,at_,same⟩ := List.mem_map.mp member
    by_cases hit : e.1 = k
    · simp [hit] at same; exact absurd same.1.symm other
    · rw [if_neg hit] at same; exact same ▸ at_
  · intro member
    exact List.mem_map.mpr ⟨(j,w),member,by simp [other]⟩

/-- What the three operations leave under a key depends on what was there alone. -/
theorem find_insert : (m.insert k v).find j = if j = k then some ((m.find k).getD v) else m.find j := by
  by_cases same : j = k
  · subst same
    cases found : m.find j with
    | none => simp [find_insert_self found]
    | some w => simp [insert_of_some found,found]
  · rw [find_insert_other same,if_neg same]
theorem find_erase : (m.erase k).find j = if j = k then none else m.find j := by
  by_cases same : j = k
  · subst same; simp
  · rw [find_erase_other same,if_neg same]
theorem find_set : (m.set k v).find j = if j = k then (m.find k).map fun _ => v else m.find j := by
  by_cases same : j = k
  · subst same
    cases found : m.find j with
    | none =>
      rw [if_pos rfl,Option.map_none,find_eq_none]
      rw [find_eq_none] at found
      intro w member
      obtain ⟨e,at_,is⟩ := List.mem_map.mp member
      by_cases hit : e.1 = j
      · exact found e.2 (hit ▸ at_)
      · rw [if_neg hit] at is; exact hit (congrArg (·.1) is)
    | some w => simp [find_set_self found]
  · rw [find_set_other same,if_neg same]

/-! ### Iterating -/

/-- An iteration that has passed `done` and stands at `e` goes on with what follows. -/
theorem after_split {done rest : List (K × V)} {e : K × V} (split : m.entries = done ++ e :: rest) :
    m.after e.1 = rest.head? := by
  have sorted := m.sorted
  rw [split] at sorted
  obtain ⟨_,upper,lower⟩ := List.pairwise_append.mp sorted
  have passed : ∀ a ∈ done ++ [e], ¬ e.1 < a.1 := by
    intro a member
    rcases List.mem_append.mp member with early | last
    · exact (lower a early e (by simp)).asymm
    · rw [List.mem_singleton.mp last]; exact lt_irrefl _
  have shape : m.entries = (done ++ [e]) ++ rest := by simp [split]
  rw [after,shape,List.find?_append,List.find?_eq_none.mpr (by simpa using passed),Option.none_or]
  cases rest with
  | nil => rfl
  | cons next rest => simp [(List.pairwise_cons.mp upper).1 next]

/-- How many entries an iterator has yet to pass. -/
def ahead (m : OrdMap K V) : Option (K × V) → Nat
  | none => 0
  | some (k,_) => m.entries.countP (k < ·.1) + 1

theorem ahead_le (it : Option (K × V)) : m.ahead it ≤ m.entries.length + 1 := by
  cases it with
  | none => exact Nat.zero_le _
  | some e => exact Nat.succ_le_succ List.countP_le_length
/-- An iterator that goes on has fewer to pass. -/
theorem ahead_after (k : K) (v : V) : m.ahead (m.after k) < m.ahead (some (k,v)) := by
  cases found : m.after k with
  | none => exact Nat.succ_pos _
  | some e =>
    have member := List.mem_of_find?_eq_some found
    have above : k < e.1 := by simpa using List.find?_some found
    have beyond : m.entries.countP (e.1 < ·.1) = (m.entries.filter (k < ·.1)).countP (e.1 < ·.1) := by
      rw [List.countP_filter]
      refine List.countP_congr fun a _ => ?_
      simpa using fun higher => above.trans higher
    simp only [ahead,Nat.add_lt_add_iff_right]
    have all : m.entries.countP (k < ·.1) = (m.entries.filter (k < ·.1)).length := List.countP_eq_length_filter
    rw [beyond,all]
    exact List.countP_lt_length_iff.mpr ⟨e,by simpa using ⟨member,above⟩,by simp⟩

/-! ### Sums over the entries -/

/-- The sum of a quantity over the values. -/
def total (f : V → Int) (m : OrdMap K V) : Int := (m.entries.map (fun e => f e.2)).sum

theorem total_insert (f : V → Int) (absent : m.find k = none) : total f (m.insert k v) = total f m + f v := by
  have perm : (m.insert k v).entries.Perm ((k,v) :: m.entries) := by
    rw [entries_insert absent]
    refine List.perm_middle.trans (List.Perm.cons _ ?_)
    have rest : m.entries.filter (k < ·.1) = m.entries.filter (fun e => !decide (e.1 < k)) := by
      refine List.filter_congr fun e member => ?_
      have other : e.1 ≠ k := fun same => find_eq_none.mp absent e.2 (same ▸ member)
      rcases lt_or_gt_of_ne other with less | less <;> simp [less,less.asymm]
    rw [rest]
    exact List.filter_append_perm _ _
  rw [total,(perm.map _).sum_eq,total]
  simp [add_comm]
theorem total_erase (f : V → Int) (found : m.find k = some v) : total f (m.erase k) + f v = total f m := by
  obtain ⟨before,rest,split⟩ := List.append_of_mem (find_eq_some.mp found)
  have sorted := m.sorted
  rw [split] at sorted
  obtain ⟨_,upper,lower⟩ := List.pairwise_append.mp sorted
  have keepBefore : before.filter (fun e => decide (e.1 ≠ k)) = before :=
    List.filter_eq_self.mpr fun e member => by simpa using (lower e member (k,v) (by simp)).ne
  have keepRest : rest.filter (fun e => decide (e.1 ≠ k)) = rest :=
    List.filter_eq_self.mpr fun e member => by simpa using ((List.pairwise_cons.mp upper).1 e member).ne'
  have erased : (m.erase k).entries = before ++ rest := by
    show m.entries.filter (fun e => decide (e.1 ≠ k)) = _
    rw [split,List.filter_append,List.filter_cons_of_neg (by simp),keepBefore,keepRest]
  simp [total,erased,split,List.sum_append]
  omega
theorem total_set (f : V → Int) (found : m.find k = some w) : total f (m.set k v) = total f m - f w + f v := by
  have same : m.set k v = (m.erase k).insert k v := by
    refine ext_find fun j => ?_
    by_cases hit : j = k
    · subst hit; rw [find_set_self found,find_insert_self find_erase_self]
    · rw [find_set_other hit,find_insert_other hit,find_erase_other hit]
  have := total_erase f found
  rw [same,total_insert f find_erase_self]
  omega

end OrdMap
end StructureOfOs
