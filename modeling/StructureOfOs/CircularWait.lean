import StructureOfOs.SerialHistory

/-!
No circular wait. A thread that has to wait is given a level by the mutex it waits
for, and by whether it comes or goes: what the thread that blocks it may still wait
for has a higher level (`waits_below`). The levels are bounded, so in any set of
threads there is one that waits for none of the set.
-/
namespace StructureOfOs.CircularWait
open StructureOfOs.Programs StructureOfOs.Outlines StructureOfOs.RwLock StructureOfOs.BankState StructureOfOs.Atm
open StructureOfOs.Bank StructureOfOs.Views StructureOfOs.BankInvariant StructureOfOs.BankOutline
open StructureOfOs.BankFollows StructureOfOs.SerialHistory

/-- The thread holds or waits for a mutex of the list, of an account, of the transfers
    or of the log, or counts as one of a lock's readers. -/
def Engaged (c : Config) (t : Tid) : Prop :=
  (∃ l, (c.shared.lock l).phase t ≠ .idle) ∨ c.shared.transfer_lock = some t ∨ c.shared.log_print_lock = some t ∨
    ∃ m, m ≠ .stdout_print_lock ∧ (c.thread t).prog.action = some (.lock m)
/-- The thread keeps a mutex from being free: it has it, or it is one of the readers
    for whom a write mutex is taken. -/
def Blocks (s : Shared) (u : Tid) : Mutex → Prop
  | .lock_write l => (s.lock l).phase u = .writing ∨ ((s.lock l).phase u).shares = true
  | m => s.mutex m = some u
/-- The thread cannot go on before another one has. -/
def WaitsFor (c : Config) (t u : Tid) : Prop :=
  ∃ m, m ≠ .stdout_print_lock ∧ (c.thread t).prog.action = some (.lock m) ∧ c.shared.mutex m ≠ none ∧ Blocks c.shared u m

/-- How far a thread that locks a mutex has come: into the list, into an account,
    and out again. -/
def level (g : View) : Mutex → Nat
  | .lock_read .account_list => if g.phase .account_list = .reading then 8 else 1
  | .lock_write .account_list => 2
  | .transfer_lock => 3
  | .lock_read (.account r) => if g.phase (.account r) = .reading then 7 else 4
  | .lock_write (.account _) => if g.transfer then 6 else 5
  | .log_print_lock => 9
  | .stdout_print_lock => 10
/-- The level of a thread with a next action; it is highest when the thread locks nothing. -/
def rank (g : View) : Option Act → Nat
  | some (.lock m) => level g m
  | _ => 10

variable {S : Setting} {s : Shared} {Γ : Ghost} {V : Tid → View} {t u : Tid} {g : View} {m m' : Mutex} {l : RwId} {r : Ref}

theorem level_le : level g m ≤ 10 := by
  unfold level
  split <;> (try split) <;> omega
theorem rank_le {a : Option Act} : rank g a ≤ 10 := by
  unfold rank
  split
  · exact level_le
  · exact le_rfl

/-! ### What a thread that blocks a mutex may wait for -/

/-- With a read mutex a thread waits at most for the write mutex, as the first reader. -/
theorem read_holder_waits (holds : (g.phase l).holdsRead = true) (ok : Ok S t g (.lock m)) :
    m = .lock_write l ∧ g.phase l = .counted 1 := by
  have busy : g.phase l ≠ .idle ∧ (g.phase l).inside = false := by
    cases at_l : g.phase l <;> simp [at_l,Phase.holdsRead,Phase.inside] at holds ⊢
  obtain ⟨busy,outside⟩ := busy
  cases l with
  | account_list =>
    have unheld : ¬ g.Held := by simpa [View.Held] using outside
    cases m with
    | lock_read k =>
      cases k with
      | account_list => rcases ok.1 with idle | reads <;> simp_all [Phase.inside]
      | account q => exact absurd ok.2.1 unheld
    | lock_write k =>
      cases k with
      | account_list => exact ⟨rfl,ok.1.resolve_left busy⟩
      | account q => exact absurd ok.2.1 unheld
    | transfer_lock => exact absurd (held_of_reading ok.1) unheld
    | log_print_lock => exact absurd ok.1 unheld
    | stdout_print_lock => exact absurd ok.1 busy
  | account r =>
    cases m with
    | lock_read k =>
      cases k with
      | account_list => exact absurd (ok.2.1 r) busy
      | account q =>
        by_cases same : r = q
        · subst same
          rcases ok.1 with idle | reads
          · exact absurd idle busy
          · rw [reads] at outside; cases outside
        · exact absurd (ok.2.2.1 r same) busy
    | lock_write k =>
      cases k with
      | account_list => exact absurd (ok.2.1 r) busy
      | account q =>
        by_cases same : r = q
        · subst same
          rcases ok.1 with idle | counted | ⟨writes,_⟩
          · exact absurd idle busy
          · exact ⟨rfl,counted⟩
          · rw [writes] at outside; cases outside
        · rcases ok.2.2.1 r same with idle | ⟨_,writes⟩
          · exact absurd idle busy
          · rw [writes] at outside; cases outside
    | transfer_lock => exact absurd (ok.2.1 r) busy
    | log_print_lock =>
      rcases ok.2.2 r with idle | inside
      · exact absurd idle busy
      · rw [inside] at outside; cases outside
    | stdout_print_lock => exact absurd (ok.2.1 r) busy

/-- Who writes a list or counts as its reader goes on to the accounts or out again. -/
theorem list_holder_waits (blocks : g.phase .account_list = .writing ∨ (g.phase .account_list).shares = true)
    (ok : Ok S t g (.lock m)) : 2 < level g m := by
  have busy : g.phase .account_list ≠ .idle ∧ g.phase .account_list ≠ .counted 1 := by
    constructor <;> intro at_list <;> simp [at_list,Phase.shares] at blocks
  cases m with
  | lock_read k =>
    cases k with
    | account_list =>
      have reads := ok.1.resolve_left busy.1
      simp [level,reads]
    | account q => simp only [level]; split <;> omega
  | lock_write k =>
    cases k with
    | account_list => exact absurd ok.1 (not_or.mpr busy)
    | account q => simp only [level]; split <;> omega
  | _ => simp [level]

/-- Who writes an account or counts as its reader goes out again, or writes to the log,
    or is a transfer that goes on to its other account. -/
theorem account_holder_waits (distinct : S.distinct)
    (blocks : g.phase (.account r) = .writing ∨ (g.phase (.account r)).shares = true) (ok : Ok S t g (.lock m)) :
    6 < level g m ∨ level g m = 6 ∧ g.transfer = true := by
  have busy : g.phase (.account r) ≠ .idle ∧ g.phase (.account r) ≠ .counted 1 := by
    constructor <;> intro at_r <;> simp [at_r,Phase.shares] at blocks
  cases m with
  | lock_read k =>
    cases k with
    | account_list => exact absurd (ok.2.1 r) busy.1
    | account q =>
      by_cases same : r = q
      · subst same
        have reads := ok.1.resolve_left busy.1
        left; simp [level,reads]
      · exact absurd (ok.2.2.1 r same) busy.1
  | lock_write k =>
    cases k with
    | account_list => exact absurd (ok.2.1 r) busy.1
    | account q =>
      by_cases same : r = q
      · subst same
        rcases ok.1 with idle | counted | ⟨_,_,together⟩
        · exact absurd idle busy.1
        · exact absurd counted busy.2
        · exact absurd distinct together
      · obtain ⟨transfers,_⟩ := (ok.2.2.1 r same).resolve_left busy.1
        right; simp [level,transfers]
  | transfer_lock => exact absurd (ok.2.1 r) busy.1
  | log_print_lock | stdout_print_lock => left; simp [level]

theorem transfer_holder_waits (holds : g.transfer = true) (ok : Ok S t g (.lock m)) : 3 < level g m := by
  have busy : g.transfer ≠ false := by simp [holds]
  cases m with
  | lock_read k =>
    cases k with
    | account_list => exact absurd ok.2.2.1 busy
    | account q => exact absurd ok.2.2.2.1 busy
  | lock_write k =>
    cases k with
    | account_list => exact absurd ok.2.2.1 busy
    | account q => simp only [level]; split <;> omega
  | transfer_lock => exact absurd ok.2.2.1 busy
  | log_print_lock | stdout_print_lock => simp [level]

/-- Who has the log's mutex waits for nothing. -/
theorem log_holder_waits (holds : g.logging = true) (ok : Ok S t g (.lock m)) : False := by
  have busy : g.logging ≠ false := by simp [holds]
  cases m with
  | lock_read k =>
    cases k with
    | account_list => exact busy ok.2.2.2
    | account q => exact busy ok.2.2.2.2
  | lock_write k =>
    cases k with
    | account_list => exact busy ok.2.2.2
    | account q => exact busy ok.2.2.2
  | transfer_lock => exact busy ok.2.2.2
  | log_print_lock => exact busy ok.2.1
  | stdout_print_lock => exact busy ok.2.2.2

/-! ### The levels increase along every wait -/

theorem waits_below (distinct : S.distinct) (locks : ∀ l, (s.lock l).Inv) (holds : ∀ t, Holds s t (V t))
    (ok : Ok S t (V t) (.lock m)) (ok' : Ok S u (V u) (.lock m')) (blocks : Blocks s u m) (other : m ≠ .stdout_print_lock) :
    level (V t) m < level (V u) m' := by
  cases m with
  | lock_read l =>
    have read : ((V u).phase l).holdsRead = true := by
      rw [(holds u).phase]
      exact ((locks l).read u).mpr blocks
    obtain ⟨rfl,first⟩ := read_holder_waits read ok'
    have coming : (V t).phase l ≠ .reading := by
      intro reads
      rw [(holds u).phase] at first
      rw [(holds t).phase] at reads
      have same : t = u := (locks l).first_alone first (by rw [reads]; rfl)
      rw [same,first] at reads; cases reads
    cases l with
    | account_list => simp [level,coming]
    | account r => simp only [level,if_neg coming]; split <;> omega
  | lock_write l =>
    have blocks : (V u).phase l = .writing ∨ ((V u).phase l).shares = true := by
      rw [(holds u).phase]
      exact blocks
    cases l with
    | account_list => exact list_holder_waits blocks ok'
    | account r =>
      have low : level (V t) (.lock_write (.account r)) ≤ 6 := by simp only [level]; split <;> omega
      rcases account_holder_waits distinct blocks ok' with higher | ⟨same,transfers⟩
      · omega
      · -- Both may not be transfers, and a transfer does not wait for itself.
        have single : (V t).transfer = false := by
          by_contra also
          have theirs := (holds u).transfer.mp transfers
          rw [(holds t).transfer.mp (by simpa using also)] at theirs
          cases theirs
          rcases ok.1 with idle | counted | ⟨_,_,together⟩
          · rw [idle] at blocks; simp [Phase.shares] at blocks
          · rw [counted] at blocks; simp [Phase.shares] at blocks
          · exact together distinct
        have five : level (V t) (.lock_write (.account r)) = 5 := by simp [level,single]
        omega
  | transfer_lock => exact transfer_holder_waits ((holds u).transfer.mpr blocks) ok'
  | log_print_lock => exact (log_holder_waits ((holds u).logging.mpr blocks) ok').elim
  | stdout_print_lock => exact absurd rfl other

theorem level_lt (other : m ≠ .stdout_print_lock) : level g m < 10 := by
  cases m with
  | lock_read l => cases l <;> simp only [level] <;> split <;> omega
  | lock_write l =>
    cases l with
    | account_list => simp [level]
    | account r => simp only [level]; split <;> omega
  | transfer_lock | log_print_lock => simp [level]
  | stdout_print_lock => exact absurd rfl other

variable {c : Config} {n : Nat} {files : Nat → List Command} {rand : Nat → Nat}

/-- A thread that waits for another ranks below it. -/
theorem rank_lt (distinct : S.distinct) (locks : ∀ l, (c.shared.lock l).Inv) (holds : ∀ t, Holds c.shared t (V t))
    (follows : ∀ t, (outline S).Follows t (c.thread t).prog (V t) (Loop S t)) (waits : WaitsFor c t u) :
    rank (V t) (c.thread t).prog.action < rank (V u) (c.thread u).prog.action := by
  obtain ⟨m,other,left,_,blocks⟩ := waits
  rw [left]
  show level (V t) m < _
  cases next : (c.thread u).prog.action with
  | none => exact level_lt other
  | some a =>
    cases a with
    | lock m' => exact waits_below distinct locks holds (follows_permits (follows t) left) (follows_permits (follows u) next) blocks other
    | _ => exact level_lt other

/-! ### Who does not wait can go on -/

/-- A thread in no lock that does not wait for one is not engaged. -/
theorem outside_unengaged (holds : Holds c.shared t (V t)) (outside : (V t).Outside)
    (idle : ∀ m, (c.thread t).prog.action = some (.lock m) → m = .stdout_print_lock) : ¬ Engaged c t := by
  obtain ⟨list,quiet,transfer,logging⟩ := outside
  rintro (⟨l,busy⟩ | transfers | logs | ⟨m,other,left⟩)
  · rw [← holds.phase] at busy
    cases l with
    | account_list => exact busy list
    | account r => exact busy (quiet r)
  · rw [holds.transfer.mpr transfers] at transfer; cases transfer
  · rw [holds.logging.mpr logs] at logging; cases logging
  · exact other (idle m left)

/-- A mutex that is taken is blocked by a thread. -/
theorem taken_blocked {w : Tid} (locks : ∀ l, (c.shared.lock l).Inv) (other : m ≠ .stdout_print_lock)
    (taken : c.shared.mutex m = some w) : ∃ u, Blocks c.shared u m ∧ Engaged c u := by
  cases m with
  | lock_read l =>
    refine ⟨w,taken,.inl ⟨l,fun idle => ?_⟩⟩
    have holds := ((locks l).read w).mpr taken
    rw [idle] at holds; cases holds
  | lock_write l =>
    by_cases writes : (c.shared.lock l).phase w = .writing
    · exact ⟨w,.inl writes,.inl ⟨l,by simp [writes]⟩⟩
    · obtain ⟨u,shares⟩ := (locks l).shared.mpr ⟨w,taken,writes⟩
      refine ⟨u,.inr shares,.inl ⟨l,fun idle => ?_⟩⟩
      rw [idle] at shares; cases shares
  | transfer_lock => exact ⟨w,taken,.inr (.inl taken)⟩
  | log_print_lock => exact ⟨w,taken,.inr (.inr (.inl taken))⟩
  | stdout_print_lock => exact absurd rfl other

/-- A thread whose loops are over is at home. -/
theorem round_none {point : Ctl} (looped : Loop S t point g) (ended : rounds n t point = none) : g = .home [] := by
  cases t <;> cases point <;> simp only [Loop,rounds,reduceCtorEq] at looped ended <;> exact looped

theorem blocked_waits (locks : ∀ l, (c.shared.lock l).Inv) (holds : ∀ t, Holds c.shared t (V t))
    (follows : ∀ t, (outline S).Follows t (c.thread t).prog (V t) (Loop S t)) (engaged : Engaged c t)
    (blocked : (bank n).step c t = none) : ∃ u, WaitsFor c t u ∧ Engaged c u := by
  rcases step_blocked blocked with ⟨point,left,ended⟩ | ⟨a,left,ran⟩
  · have looped := follows t
    rw [left,follows_ret] at looped
    have home := round_none looped ended
    exact absurd engaged (outside_unengaged (holds t) (home ▸ AtmFollows.home_outside) (by simp [left,Prog.action]))
  · have ok := follows_permits (follows t) left
    rcases run_blocked ran with ⟨m,w,rfl,taken⟩ | ⟨u,rfl⟩
    · by_cases other : m = .stdout_print_lock
      · subst other
        refine absurd engaged (outside_unengaged (holds t) ok fun m also => ?_)
        rw [left] at also; cases also
        rfl
      · obtain ⟨u,blocks,also⟩ := taken_blocked locks other taken
        exact ⟨u,⟨m,other,left,by simp [taken],blocks⟩,also⟩
    · exact absurd engaged (outside_unengaged (holds t) ok (by simp [left]))

/-- Where every transfer names two different accounts: an engaged thread can step or
    waits for an engaged thread; in any set of threads there is one that waits for
    none of them; and if a thread is engaged, then one that is can step. -/
theorem no_circular_wait (distinct : ∀ i, ∀ cmd ∈ files i, Distinct cmd) (reachable : Reachable n files rand c) :
    (∀ t, Engaged c t → (bank n).step c t = none → ∃ u, WaitsFor c t u ∧ Engaged c u) ∧
      (∀ D : Set Tid, D.Nonempty → ∃ t ∈ D, ∀ u ∈ D, ¬ WaitsFor c t u) ∧
      ((∃ t, Engaged c t) → ∃ t, Engaged c t ∧ ((bank n).step c t).isSome = true) := by
  let S : Setting := ⟨files,False,True,False.elim,fun _ => distinct⟩
  obtain ⟨V,⟨Γ,G,L⟩,follows⟩ := reachable_holds (S := S) reachable
  have holds : ∀ t, Holds c.shared t (V t) := fun t => (L t).1
  have waits : ∀ t, Engaged c t → (bank n).step c t = none → ∃ u, WaitsFor c t u ∧ Engaged c u :=
    fun t engaged blocked => blocked_waits G.locks holds follows engaged blocked
  have acyclic : ∀ D : Set Tid, D.Nonempty → ∃ t ∈ D, ∀ u ∈ D, ¬ WaitsFor c t u := by
    intro D some
    -- A thread of the highest rank waits for none of the others.
    obtain ⟨t,member,highest⟩ := (measure fun t => 10 - rank (V t) (c.thread t).prog.action).wf.has_min D some
    refine ⟨t,member,fun u also waits => highest u also ?_⟩
    have := rank_lt (S := S) trivial G.locks holds follows waits
    have := rank_le (g := V u) (a := (c.thread u).prog.action)
    show 10 - rank (V u) (c.thread u).prog.action < 10 - rank (V t) (c.thread t).prog.action
    omega
  refine ⟨waits,acyclic,fun some => ?_⟩
  obtain ⟨t,engaged,alone⟩ := acyclic { t | Engaged c t } some
  refine ⟨t,engaged,?_⟩
  by_contra blocked
  obtain ⟨u,for_u,also⟩ := waits t engaged (by simpa using blocked)
  exact alone u also for_u

/-- The printer waits for a transfer that is in the list. -/
theorem waiting_ends : ((bank 1).runs (List.replicate 37 (.atm 1) ++ List.replicate 3 .accounts_print)
    (initial drainingFiles fun _ => 0)).isSome = true := by decide
theorem waiting_blocked : ((bank 1).step (Option.get _ waiting_ends) .accounts_print).isNone = true := by decide
theorem draining_distinct : ∀ i, ∀ cmd ∈ drainingFiles i, Distinct cmd := by
  intro i cmd member
  unfold drainingFiles at member
  split at member <;> simp at member
  rcases member with rfl | rfl | rfl <;> simp [Distinct]
theorem no_circular_wait_printer : ∃ u, WaitsFor (Option.get _ waiting_ends) .accounts_print u ∧
    Engaged (Option.get _ waiting_ends) u :=
  (no_circular_wait draining_distinct (reachable_get waiting_ends)).1 .accounts_print
    (.inr (.inr (.inr ⟨.lock_write .account_list,by simp,rfl⟩))) (Option.isNone_iff_eq_none.mp waiting_blocked)

end StructureOfOs.CircularWait
