import StructureOfOs.SerialHistory

/-!
What holds at every step of the bank, whatever the schedule: the accounts found in
the map of open accounts are open, no balance falls below zero when no amount is
negative, and a mutex is unlocked by the thread that has it, but for the write
mutex that the first reader takes and the last one frees.
-/
namespace StructureOfOs.BankSafety
open StructureOfOs.Programs StructureOfOs.Outlines StructureOfOs.RwLock StructureOfOs.BankState StructureOfOs.Atm
open StructureOfOs.Bank StructureOfOs.AccountBook StructureOfOs.Views StructureOfOs.BankInvariant
open StructureOfOs.BankOutline StructureOfOs.BankFollows StructureOfOs.SerialHistory

variable {S : Setting} {n : Nat} {files : Nat → List Command} {rand : Nat → Nat} {c : Config} {t : Tid}

/-! ### The two maps -/

/-- The open accounts are under their own ids and not deleted, the closed ones are
    under their own ids and deleted. -/
def MapsInOrder (s : Shared) : Prop :=
  (∀ id r, s.map_of_accounts.find id = some r → (s.account r).id = id ∧ (s.account r).deleted = false) ∧
    ∀ id r, s.map_of_deleted_accounts.find id = some r → (s.account r).id = id ∧ (s.account r).deleted = true

theorem maps_in_order {s : Shared} {Γ : Ghost} {V : Tid → View} (G : Global S s Γ V) (none : Γ.change = .none) :
    MapsInOrder s := by
  constructor
  · intro id r found
    obtain ⟨_,named,_,flagged⟩ := G.entries id r found
    rw [none] at flagged
    exact ⟨named,by simpa using flagged⟩
  · intro id r found
    have kept := G.kept id
    rw [found,none,leaving,List.append_nil] at kept
    exact ⟨by simpa using List.find?_some kept.symm,(G.retired r (List.mem_of_find?_eq_some kept.symm)).2⟩

/-- Whoever looks an id up is inside the account list and finds both maps in order.
    No account whose `deleted` flag is tested has been deleted, and where an account
    is inserted its id has no entry yet. -/
theorem open_accounts_in_order (reachable : Reachable n files rand c) :
    (∀ t id, (c.thread t).prog.action = some (.find id) →
      ((c.shared.lock .account_list).phase t).inside = true ∧ MapsInOrder c.shared) ∧
    (∀ t r, (c.thread t).prog.action = some (.deleted r) → (c.shared.account r).deleted = false) ∧
    ∀ t id r, (c.thread t).prog.action = some (.insert id r) →
      c.shared.map_of_accounts.find id = none ∧ (c.shared.map_of_accounts.insert id r).find id = some r := by
  obtain ⟨V,⟨Γ,G,L⟩,follows⟩ := reachable_holds (S := anyFiles files) reachable
  refine ⟨fun t id left => ?_,fun t r left => ?_,fun t id r left => ?_⟩
  · obtain ⟨held,settled⟩ := follows_permits (follows t) left
    refine ⟨?_,maps_in_order G (by rw [change_known G L held,settled])⟩
    rw [← (L t).1.phase]
    exact held
  · obtain ⟨id,looked⟩ := follows_permits (follows t) left
    exact (looked_open G L looked).2.2.2
  · obtain ⟨_,unlooked,_⟩ := follows_permits (follows t) left
    have absent := ((L t).2.looked id none unlooked).2
    exact ⟨absent,OrdMap.find_insert_self absent⟩

/-- The ATM of the transfer is about to look its first account up. -/
theorem looking_ends : (drainingAfter 37).isSome = true := by decide
theorem open_accounts_in_order_looking :
    ((((drainingAfter 37).get looking_ends).shared.lock .account_list).phase (.atm 1)).inside = true ∧
      MapsInOrder ((drainingAfter 37).get looking_ends).shared :=
  (open_accounts_in_order (reachable_get looking_ends)).1 (.atm 1) 1 rfl

/-! ### Solvency -/

/-- With no negative amount in any file, no balance is ever negative. -/
theorem solvent (nonneg : ∀ i, ∀ cmd ∈ files i, Nonneg cmd) (reachable : Reachable n files rand c) :
    (∀ r, 0 ≤ (c.shared.account r).balance) ∧ 0 ≤ c.shared.balance := by
  let S : Setting := ⟨files,True,False,fun _ => nonneg,False.elim⟩
  obtain ⟨V,⟨Γ,G,L⟩,_⟩ := reachable_holds (S := S) reachable
  exact G.solvent trivial

/-- One account with 100, charged at 5 percent. -/
def chargingFiles (i : Nat) : List Command := if i = 1 then [.create_account 1 "a" 100] else []
theorem charging_ends : ((bank 1).runs (List.replicate 14 (.atm 1) ++ List.replicate 22 .fee_collection)
    (initial chargingFiles fun _ => 4)).isSome = true := by decide
theorem solvent_charging : (∀ r, 0 ≤ ((Option.get _ charging_ends).shared.account r).balance) ∧
    0 ≤ (Option.get _ charging_ends).shared.balance := by
  refine solvent ?_ (reachable_get charging_ends)
  intro i cmd member
  unfold chargingFiles at member
  split at member
  · rw [List.mem_singleton.mp member]; exact (by decide : (0 : Int) ≤ 100)
  · cases member

/-! ### Who unlocks -/

/-- A thread that is about to unlock a mutex has it, or it is the last reader and the
    mutex was taken for the readers, by a thread that is not in it as a writer. -/
def Releases (s : Shared) (t : Tid) : Mutex → Prop
  | .lock_write l => (s.lock l).phase t = .writing ∧ s.mutex (.lock_write l) = some t ∨
      (s.lock l).phase t = .discounted 0 ∧ ∃ u, s.mutex (.lock_write l) = some u ∧ (s.lock l).phase u ≠ .writing
  | .lock_read l => s.mutex (.lock_read l) = some t
  | .transfer_lock => s.mutex .transfer_lock = some t
  | .log_print_lock => s.mutex .log_print_lock = some t
  | .stdout_print_lock => True

theorem unlock_releases {m : Mutex} (reachable : Reachable n files rand c)
    (left : (c.thread t).prog.action = some (.unlock m)) : Releases c.shared t m := by
  obtain ⟨V,⟨Γ,G,L⟩,follows⟩ := reachable_holds (S := anyFiles files) reachable
  have ok := follows_permits (follows t) left
  have holds := (L t).1
  cases m with
  | lock_read l =>
    refine (G.locks l).unlocks_read (n := 0) ?_
    rw [← holds.phase]
    exact ok
  | lock_write l =>
    have at_l : (V t).phase l = .writing ∨ (V t).phase l = .discounted 0 := by
      cases l with
      | account_list => exact ok.imp_left And.left
      | account r => exact ok.imp_left And.left
    rw [holds.phase] at at_l
    exact at_l.imp (fun writes => ⟨writes,(G.locks l).writer t writes⟩) fun last => ⟨last,(G.locks l).unlocks_last last⟩
  | transfer_lock => exact holds.transfer.mp ok
  | log_print_lock => exact holds.logging.mp ok
  | stdout_print_lock => trivial

/-- Two ATMs are readers of the list, the first to come is the first to go. -/
def readersFiles (i : Nat) : List Command := if i = 1 ∨ i = 2 then [.deposit_to_account 7 "a" 1] else []
def readersSchedule : List Tid :=
  List.replicate 8 (.atm 1) ++ List.replicate 7 (.atm 2) ++ List.replicate 9 (.atm 1) ++ List.replicate 8 (.atm 2)
theorem readers_end : ((bank 2).runs readersSchedule (initial readersFiles fun _ => 0)).isSome = true := by decide

/-- The last reader unlocks the list's write mutex, which the first reader locked. -/
theorem last_reader_unlocks : ∃ c, Reachable 2 readersFiles (fun _ => 0) c ∧
    (c.thread (.atm 2)).prog.action = some (.unlock (.lock_write .account_list)) ∧
    c.shared.mutex (.lock_write .account_list) = some (.atm 1) :=
  ⟨_,reachable_get readers_end,rfl,rfl⟩

theorem unlock_releases_readers : Releases (Option.get _ readers_end).shared (.atm 2) (.lock_write .account_list) :=
  unlock_releases (reachable_get readers_end) rfl

end StructureOfOs.BankSafety
