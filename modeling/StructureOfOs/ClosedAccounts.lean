import StructureOfOs.SerialHistory

/-!
What becomes of the account objects. `closing_account` puts the account among the
closed ones under its id, and an id that was closed before has its entry there
already: `insert` then changes nothing, and the account is in no map. As long as
no id is closed twice, no account is lost (`none_lost_iff`).
-/
namespace StructureOfOs.ClosedAccounts
open StructureOfOs.Programs StructureOfOs.BankState StructureOfOs.Atm StructureOfOs.Bank StructureOfOs.AccountBook
open StructureOfOs.Views StructureOfOs.BankInvariant StructureOfOs.BankFollows StructureOfOs.SerialHistory

/-- Every account object is in exactly one of the two maps, the destructor deletes
    each of them once, and the closed ones are as they were when they were closed. -/
structure NoneLost (s : Shared) : Prop where
  one : ∀ r, r < s.allocated →
    Xor (∃ id, s.map_of_accounts.find id = some r) (∃ id, s.map_of_deleted_accounts.find id = some r)
  freed : ∀ r, r < s.allocated → (free_accounts s).count r = 1
  records : ∀ id pw balance, (id,pw,balance) ∈ (s.log.foldl Book.apply .empty).closed →
    ∃ r, s.map_of_deleted_accounts.find id = some r ∧ s.account r = ⟨id,balance,pw,true⟩

variable {S : Setting} {s : Shared} {Γ : Ghost} {V : Tid → View} {r : Ref} {id : Int}

/-! ### The two maps with no change under way -/

theorem deleted_find (G : Global S s Γ V) (none : Γ.change = .none) (id : Int) :
    s.map_of_deleted_accounts.find id = Γ.retired.find? fun r => (s.account r).id = id := by
  simpa [none,leaving] using G.kept id
/-- An account in the map of closed accounts was closed, and is under its own id. -/
theorem deleted_retired (G : Global S s Γ V) (none : Γ.change = .none) (found : s.map_of_deleted_accounts.find id = some r) :
    r ∈ Γ.retired ∧ (s.account r).id = id := by
  rw [deleted_find G none] at found
  exact ⟨List.mem_of_find?_eq_some found,by simpa using List.find?_some found⟩
theorem open_or_retired (G : Global S s Γ V) (none : Γ.change = .none) (below : r < s.allocated) :
    s.map_of_accounts.find (s.account r).id = some r ∨ r ∈ Γ.retired := by
  rcases G.every r below with found | retired | underway
  · exact .inl found
  · exact .inr retired
  · rw [none] at underway; cases underway
theorem closings_retired (G : Global S s Γ V) :
    closings s.log = Γ.retired.map fun r => (s.account r).id := by
  rw [← G.serial.closings,G.closed]
  simp

/-- An account that was closed is in the map as long as no id was closed twice. -/
theorem retired_kept (G : Global S s Γ V) (none : Γ.change = .none) (once : (closings s.log).Nodup) (retired : r ∈ Γ.retired) :
    s.map_of_deleted_accounts.find (s.account r).id = some r := by
  rw [closings_retired G] at once
  obtain ⟨x,found⟩ := Option.isSome_iff_exists.mp
    (List.find?_isSome (p := fun x => decide ((s.account x).id = (s.account r).id)).mpr ⟨r,retired,by simp⟩)
  have same : (s.account x).id = (s.account r).id := by simpa using List.find?_some found
  rw [deleted_find G none,found,List.inj_on_of_nodup_map once (List.mem_of_find?_eq_some found) retired same]

theorem free_nodup (G : Global S s Γ V) (none : Γ.change = .none) : (free_accounts s).Nodup := by
  refine List.nodup_append.mpr ⟨OrdMap.values_nodup ?_,OrdMap.values_nodup ?_,?_⟩
  · intro j k r at_j at_k
    rw [← (G.entries j r at_j).2.1,← (G.entries k r at_k).2.1]
  · intro j k r at_j at_k
    rw [← (deleted_retired G none at_j).2,← (deleted_retired G none at_k).2]
  · rintro r opened x deleted rfl
    obtain ⟨j,at_j⟩ := OrdMap.mem_values.mp opened
    obtain ⟨k,at_k⟩ := OrdMap.mem_values.mp deleted
    exact (G.entries j r at_j).2.2.1 (deleted_retired G none at_k).1

theorem none_lost_of_once (G : Global S s Γ V) (none : Γ.change = .none) (once : (closings s.log).Nodup) : NoneLost s where
  one r below := by
    rcases open_or_retired G none below with found | retired
    · refine .inl ⟨⟨_,found⟩,?_⟩
      rintro ⟨id,deleted⟩
      exact (G.entries _ r found).2.2.1 (deleted_retired G none deleted).1
    · refine .inr ⟨⟨_,retired_kept G none once retired⟩,?_⟩
      rintro ⟨id,found⟩
      exact (G.entries id r found).2.2.1 retired
  freed r below := by
    refine List.count_eq_one_of_mem (free_nodup G none) (List.mem_append.mpr ?_)
    rw [OrdMap.mem_values,OrdMap.mem_values]
    exact (open_or_retired G none below).imp (fun found => ⟨_,found⟩) fun retired => ⟨_,retired_kept G none once retired⟩
  records id pw balance member := by
    rw [G.serial.replay,G.closed] at member
    obtain ⟨r,retired,same⟩ := List.mem_map.mp member
    cases same
    refine ⟨r,retired_kept G none once retired,?_⟩
    have deleted := (G.retired r retired).2
    cases at_r : s.account r
    rw [at_r] at deleted
    simpa using deleted

/-- Of two accounts closed under one id, one is lost. -/
theorem once_of_none_lost (G : Global S s Γ V) (none : Γ.change = .none) (kept : NoneLost s) : (closings s.log).Nodup := by
  rw [closings_retired G]
  have stands : ∀ r ∈ Γ.retired, s.map_of_deleted_accounts.find (s.account r).id = some r := by
    intro r retired
    rcases kept.one r (G.retired r retired).1 with ⟨⟨id,found⟩,_⟩ | ⟨⟨id,deleted⟩,_⟩
    · exact absurd retired (G.entries id r found).2.2.1
    · rw [(deleted_retired G none deleted).2]
      exact deleted
  refine List.Nodup.map_on (fun r retired x retired' same => ?_) G.once
  have first := stands r retired
  rw [same,stands x retired'] at first
  exact (Option.some.inj first).symm

/-! ### The bank -/

variable {n : Nat} {files : Nat → List Command} {rand : Nat → Nat} {c : Config}

/-- No account is lost exactly as long as no account id is closed a second time. -/
theorem none_lost_iff (reachable : Reachable n files rand c) (quiet : Quiescent c) :
    NoneLost c.shared ↔ (closings c.shared.log).Nodup := by
  obtain ⟨Γ,V,G,none,_⟩ := settled (reachable_holds (S := anyFiles files) reachable) quiet
  exact ⟨once_of_none_lost G none,none_lost_of_once G none⟩

/-- ATM 1 opens and closes two accounts with the same id. -/
def reusingFiles (i : Nat) : List Command :=
  if i = 1 then [.create_account 1 "a" 10,.closing_account 1 "a",.create_account 1 "b" 20,.closing_account 1 "b"] else []
def reusing (steps : Nat) : Option Config :=
  (bank 1).runs (List.replicate steps (.atm 1)) (initial reusingFiles fun _ => 0)
theorem reusing_ends : (reusing 66).isSome = true := by decide
theorem reusing_quiet : Quiescent ((reusing 66).get reusing_ends) := solo_quiet (Option.some_get reusing_ends).symm rfl

/-- The second account is in neither map, and nobody deletes it. -/
theorem reused_id_loses : ¬ ∀ n files rand c, Reachable n files rand c → Quiescent c → NoneLost c.shared := by
  intro claimed
  have kept := claimed 1 reusingFiles (fun _ => 0) _ (reachable_get reusing_ends) reusing_quiet
  have below : 1 < ((reusing 66).get reusing_ends).shared.allocated := by decide
  have lost : (free_accounts ((reusing 66).get reusing_ends).shared).count 1 = 0 := rfl
  cases lost.symm.trans (kept.freed 1 below)

theorem none_lost_iff_reusing : NoneLost ((reusing 66).get reusing_ends).shared ↔
    (closings ((reusing 66).get reusing_ends).shared.log).Nodup :=
  none_lost_iff (reachable_get reusing_ends) reusing_quiet

end StructureOfOs.ClosedAccounts
