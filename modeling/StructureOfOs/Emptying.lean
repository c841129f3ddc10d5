import StructureOfOs.Endings
import StructureOfOs.CircularWait

/-!
The locks of the bank empty. As long as a thread is inside a lock, one that is can step
(`inside_steps`). The ATMs and `main` have a bounded number of actions left, and the printer
and the fee collector, whose iterations over the accounts leave these as they are, go
through a bounded number of rounds; so when the threads inside move on, nobody is left
inside (`emptied`).
-/
namespace StructureOfOs.Emptying
open StructureOfOs.Programs StructureOfOs.Outlines StructureOfOs.RwLock StructureOfOs.BankState StructureOfOs.Accounts
open StructureOfOs.Atm StructureOfOs.Bank StructureOfOs.Views StructureOfOs.BankInvariant StructureOfOs.BankOutline
open StructureOfOs.BankFollows StructureOfOs.CircularWait StructureOfOs.Debts StructureOfOs.Endings

variable {n k : Nat} {t u : Tid} {point : Ctl} {p : Code Ctl}

/-! ### What the threads owe -/

/-- What an ATM or `main` has left at a point, whatever the state is. -/
def work (n : Nat) : Ctl → Nat
  | .parser_file todo => 42 * todo.length + 42
  | .main joined => 3 * (n - joined) + 3
  | _ => 0
/-- What the printer or the fee collector has left at a point, when the accounts are `m`: as
    many rounds as there are accounts ahead, then `rest`; the head of the loop weighs `head`. -/
def tour (m : OrdMap Int Ref) (rest head : Nat) : Ctl → Nat
  | .print_accounts it | .charge_accounts _ it => rest + 20 * m.ahead it
  | .accounts_status_print | .fee_collection => head
  | _ => 0
/-- The accounts are `m`, and the flag is as said. -/
def said (m : OrdMap Int Ref) (flags : Bool → Prop) : (a : Act) → Res a → Prop
  | .after key, it => it = m.after key
  | .progress, flag => flags flag
  | _, _ => True
/-- Only ATMs come to the writers' gate. -/
def Allowed (t : Tid) : Act → Prop
  | .lock .stdout_print_lock => ∃ i, t = .atm i
  | _ => True

theorem allowed_atm {i : Nat} (a : Act) : Allowed (.atm i) a := by
  cases a with
  | lock m =>
    cases m with
    | stdout_print_lock => exact ⟨i,rfl⟩
    | _ => trivial
  | _ => trivial

theorem within_lock {l : RwId} : Within (Allowed t) 6 (lock_for_read l) := by
  refine within_then trivial fun _ => within_then trivial fun _ => within_then trivial fun _ => within_then trivial fun _ => ?_
  exact within_ite (within_then trivial fun _ => within_call trivial) (within_call trivial)
theorem within_unlock {l : RwId} : Within (Allowed t) 6 (unlock_from_read l) := by
  refine within_then trivial fun _ => within_then trivial fun _ => within_then trivial fun _ => within_then trivial fun _ => ?_
  exact within_ite (within_then trivial fun _ => within_call trivial) (within_call trivial)

theorem round_within (started : rounds n t point = some p) : Within (Allowed t) 42 p := by
  unfold rounds at started
  split at started
  · rename_i id todo
    cases started
    cases todo with
    | nil => exact within_then trivial fun _ => within_ret
    | cons command todo =>
      exact within_bind (within_mono (fun a _ => allowed_atm a) le_rfl (within_perform command)) fun _ => within_ret (k := 2)
  · cases started
    refine within_then trivial fun _ => within_ite ?_ (within_then trivial fun _ => within_ret)
    refine within_then trivial fun _ => within_then trivial fun _ => within_then trivial fun _ => ?_
    exact within_then trivial fun _ => within_ret
  · rename_i it
    cases started
    cases it with
    | none =>
      refine within_then trivial fun _ => within_then trivial fun _ => within_then trivial fun _ => ?_
      exact within_then trivial fun _ => within_then trivial fun _ => within_ret
    | some e =>
      refine within_bind within_lock fun _ => within_then trivial fun _ => within_then trivial fun _ => ?_
      refine within_then trivial fun _ => within_then trivial fun _ => within_bind within_unlock fun _ => ?_
      exact within_then trivial fun _ => within_ret
  · cases started
    refine within_then trivial fun _ => within_ite ?_ (within_then trivial fun _ => within_ret)
    refine within_then trivial fun _ => within_bind within_lock fun _ => within_then trivial fun _ => within_ret
  · rename_i rate it
    cases started
    cases it with
    | none => exact within_bind within_unlock fun _ => within_ret (k := 36)
    | some e =>
      refine within_then trivial fun _ => within_then trivial fun _ => within_then trivial fun _ => ?_
      refine within_then trivial fun _ => within_then trivial fun _ => within_then trivial fun _ => ?_
      refine within_then trivial fun _ => within_then trivial fun _ => within_then trivial fun _ => ?_
      refine within_then trivial fun _ => within_then trivial fun _ => within_then trivial fun _ => within_ret
  · rename_i joined
    cases started
    unfold main
    refine within_ite (within_then trivial fun _ => within_ret) ?_
    exact within_then trivial fun _ => within_then trivial fun _ => within_ret
  · cases started
theorem reachable_within {files : Nat → List Command} {rand : Nat → Nat} {c : Config} (reachable : Reachable n files rand c) (t : Tid) :
    Within (Allowed t) 42 (c.thread t).prog :=
  within_reaches (fun _ _ started => round_within started) within_ret reachable

section
variable {m : OrdMap Int Ref} {flags : Bool → Prop} {rest head : Nat}

/-- An ATM's or `main`'s round costs less than the point it starts from. -/
theorem work_round {g : View} {S : Setting} (own : t ≠ .accounts_print ∧ t ≠ .fee_collection) (looped : BankOutline.Loop S t point g)
    (started : rounds n t point = some p) : ∃ j, j < work n point ∧ Owes (fun _ _ => True) (work n) j p := by
  obtain ⟨printer,fee⟩ := own
  cases t <;> cases point <;>
    simp only [BankOutline.Loop,rounds,reduceCtorEq,Option.some.injEq,not_true_eq_false,ne_eq] at looped started printer fee <;>
    subst started
  case atm.parser_file i todo =>
    cases todo with
    | nil => exact ⟨1,by simp [work],owes_then fun _ _ => owes_ret.mpr le_rfl⟩
    | cons command todo =>
      refine ⟨work n (.parser_file todo) + 40,?_,owes_bind (within_perform command) fun _ => by simp⟩
      simp only [work,List.length_cons]
      omega
  case main.main joined =>
    unfold main
    by_cases waits : joined < n
    · rw [if_pos waits]
      refine ⟨work n (.main (joined + 1)) + 1,?_,owes_then fun _ _ => owes_ret.mpr le_rfl⟩
      simp only [work]
      omega
    · rw [if_neg waits]
      exact ⟨2,by simp only [work]; omega,owes_then fun _ _ => owes_then fun _ _ => owes_ret.mpr (Nat.zero_le 0)⟩

theorem print_round (it : Option (Int × Ref)) (enough : it = none → head + 5 < rest) :
    ∃ j, j < rest + 20 * m.ahead it ∧ Owes (said m flags) (tour m rest head) j (print_accounts it) := by
  cases it with
  | none =>
    refine ⟨head + 5,by simpa [OrdMap.ahead] using enough rfl,?_⟩
    refine owes_then fun _ _ => owes_then fun _ _ => owes_then fun _ _ => owes_then fun _ _ => owes_then fun _ _ => ?_
    simp [tour]
  | some e =>
    obtain ⟨key,r⟩ := e
    have fewer := m.ahead_after key r
    refine ⟨rest + 20 * m.ahead (m.after key) + 17,by omega,?_⟩
    refine owes_bind (k := rest + 20 * m.ahead (m.after key) + 11) (within_lock (t := .accounts_print)) fun _ => ?_
    refine owes_then fun _ _ => owes_then fun _ _ => owes_then fun _ _ => owes_then fun _ _ => ?_
    refine owes_bind (k := rest + 20 * m.ahead (m.after key) + 1) (within_unlock (t := .accounts_print)) fun _ => ?_
    refine owes_then fun it same => ?_
    cases same
    simp [tour]
theorem charge_round (rate : Nat) (it : Option (Int × Ref)) (enough : it = none → head + 6 < rest) :
    ∃ j, j < rest + 20 * m.ahead it ∧ Owes (said m flags) (tour m rest head) j (charge_accounts rate it) := by
  cases it with
  | none =>
    refine ⟨head + 6,by simpa [OrdMap.ahead] using enough rfl,?_⟩
    exact owes_bind (within_unlock (t := .fee_collection)) fun _ => by simp [tour]
  | some e =>
    obtain ⟨key,r⟩ := e
    have fewer := m.ahead_after key r
    refine ⟨rest + 20 * m.ahead (m.after key) + 12,by omega,?_⟩
    refine owes_then fun _ _ => owes_then fun _ _ => owes_then fun _ _ => owes_then fun _ _ => owes_then fun _ _ => ?_
    refine owes_then fun _ _ => owes_then fun _ _ => owes_then fun _ _ => owes_then fun _ _ => owes_then fun _ _ => ?_
    refine owes_then fun _ _ => owes_then fun it same => ?_
    cases same
    simp [tour]
end

/-! ### Who is inside -/

/-- The thread holds a mutex other than the screen's, or counts as a reader. -/
def Inside (c : Config) (t : Tid) : Prop :=
  (∃ l, (c.shared.lock l).phase t ≠ .idle) ∨ c.shared.transfer_lock = some t ∨ c.shared.log_print_lock = some t
/-- The thread's loops are over. -/
def Over (n : Nat) (c : Config) (t : Tid) : Prop := ∃ point, (c.thread t).prog = .ret point ∧ rounds n t point = none

variable {files : Nat → List Command} {rand : Nat → Nat} {c d : Config} {S : Setting} {V : Tid → View} {m : Mutex}

theorem Inside.engaged (inside : Inside c t) : Engaged c t := by
  rcases inside with busy | transfers | logs
  · exact .inl busy
  · exact .inr (.inl transfers)
  · exact .inr (.inr (.inl logs))
theorem blocks_inside (locks : ∀ l, (c.shared.lock l).Inv) (other : m ≠ .stdout_print_lock) (blocks : Blocks c.shared u m) :
    Inside c u := by
  cases m with
  | lock_read l =>
    refine .inl ⟨l,fun idle => ?_⟩
    have holds := ((locks l).read u).mpr blocks
    rw [idle] at holds; cases holds
  | lock_write l =>
    refine .inl ⟨l,fun idle => ?_⟩
    rcases blocks with writes | shares
    · rw [idle] at writes; cases writes
    · rw [idle] at shares; cases shares
  | transfer_lock => exact .inr (.inl blocks)
  | log_print_lock => exact .inr (.inr blocks)
  | stdout_print_lock => exact absurd rfl other
/-- Nobody is inside: every mutex is free, but for the screen's. -/
theorem free_of_calm (locks : ∀ l, (c.shared.lock l).Inv) (calm : ∀ t, ¬ Inside c t) (other : m ≠ .stdout_print_lock) :
    c.shared.mutex m = none := by
  by_contra taken
  obtain ⟨w,taken⟩ := Option.ne_none_iff_exists'.mp taken
  obtain ⟨u,blocks,_⟩ := taken_blocked locks other taken
  exact calm u (blocks_inside locks other blocks)

theorem home_outside {todo : List Command} (holds : Holds c.shared t (V t)) (home : V t = .home todo) : ¬ Inside c t := by
  intro inside
  rcases inside with ⟨l,busy⟩ | transfers | logs
  · rw [← holds.phase,home] at busy
    exact busy rfl
  · rw [← holds.transfer,home] at transfers; cases transfers
  · rw [← holds.logging,home] at logs; cases logs

/-- Why a thread cannot step: its loops are finished, it stands at the gate, it joins, or it waits for
    a thread that is inside. -/
theorem blocked_cases (locks : ∀ l, (c.shared.lock l).Inv) (blocked : (bank n).step c t = none) :
    Over n c t ∨ (c.thread t).prog.action = some (.lock .stdout_print_lock) ∧ c.shared.stdout_print_lock ≠ none ∨
      (∃ u, (c.thread t).prog.action = some (.join u) ∧ c.shared.exited u = false) ∨ ∃ u, WaitsFor c t u ∧ Inside c u := by
  rcases step_blocked blocked with finished | ⟨a,left,ran⟩
  · exact .inl finished
  · rcases run_blocked ran with ⟨m,w,rfl,taken⟩ | ⟨u,rfl⟩
    · by_cases other : m = .stdout_print_lock
      · subst other
        exact .inr (.inl ⟨left,Option.ne_none_iff_exists'.mpr ⟨w,taken⟩⟩)
      · obtain ⟨u,blocks,_⟩ := taken_blocked locks other taken
        exact .inr (.inr (.inr ⟨u,⟨m,other,left,by simp [taken],blocks⟩,blocks_inside locks other blocks⟩))
    · have waits : run t (.join u) c.shared = none := ran
      exact .inr (.inr (.inl ⟨u,left,by simpa [run] using waits⟩))

/-- The assumption that the locks cannot stand still: a transfer names two accounts. -/
abbrev setting (distinct : ∀ i, ∀ cmd ∈ files i, Distinct cmd) : Setting :=
  { SerialHistory.anyFiles files with distinct := True, targets := fun _ => distinct }

section
variable (distinct : ∀ i, ∀ cmd ∈ files i, Distinct cmd)
include distinct

/-- A thread does not wait for itself, nor in a circle: one of those inside can step. -/
theorem inside_steps (reachable : Reachable n files rand c) (some_ : ∃ t, Inside c t) :
    ∃ t d, Inside c t ∧ (bank n).step c t = some d := by
  obtain ⟨V,⟨Γ,G,L⟩,follows⟩ := reachable_holds (S := setting distinct) reachable
  have holds : ∀ t, Holds c.shared t (V t) := fun t => (L t).1
  obtain ⟨t,inside,highest⟩ :=
    (measure fun t => 10 - rank (V t) (c.thread t).prog.action).wf.has_min { t | Inside c t } some_
  have outside : ∀ m, (V t).Outside → (c.thread t).prog.action = some m → (∀ k, m = .lock k → k = .stdout_print_lock) → False :=
    fun m out left only => outside_unengaged (holds t) out (fun k also => only k (by rw [left] at also; exact Option.some.inj also))
      inside.engaged
  cases stepped : (bank n).step c t with
  | some d => exact ⟨t,d,inside,stepped⟩
  | none =>
    exfalso
    rcases blocked_cases G.locks stepped with ⟨point,left,ended⟩ | ⟨left,_⟩ | ⟨u,left,_⟩ | ⟨u,waits,also⟩
    · have looped := follows t
      rw [left,follows_ret] at looped
      exact home_outside (holds t) (round_none looped ended) inside
    · exact outside _ (follows_permits (follows t) left) left fun k same => (Act.lock.inj same).symm
    · exact outside _ (follows_permits (follows t) left) left fun k same => by cases same
    · refine highest u also ?_
      have := rank_lt (S := setting distinct) trivial G.locks holds follows waits
      have := rank_le (g := V u) (a := (c.thread u).prog.action)
      show 10 - rank (V u) (c.thread u).prog.action < 10 - rank (V t) (c.thread t).prog.action
      omega
end

/-- A thread comes inside by its own steps alone. -/
theorem inside_other (reachable : Reachable n files rand c) (stepped : (bank n).step c t = some d) (other : u ≠ t)
    (inside : Inside d u) : Inside c u := by
  obtain ⟨V,inv,follows⟩ := reachable_holds (S := SerialHistory.anyFiles files) reachable
  rcases step_cases stepped with ⟨_,_,_,_,rfl⟩ | ⟨a,next,r,s,left,ran,rfl⟩
  · exact inside
  have ok := follows_permits (follows t) (by rw [left]; rfl)
  obtain ⟨g,_,_,_,after⟩ := BankSound.act_sound inv ok ran
  obtain ⟨_,_,before⟩ := inv
  have mine := (before u).1
  have theirs := (after u).1
  rw [Function.update_of_ne other] at theirs
  rcases inside with ⟨l,busy⟩ | transfers | logs
  · exact .inl ⟨l,by rw [← mine.phase,theirs.phase]; exact busy⟩
  · exact .inr (.inl (mine.transfer.mp (theirs.transfer.mpr transfers)))
  · exact .inr (.inr (mine.logging.mp (theirs.logging.mpr logs)))
theorem initial_outside (t : Tid) : ¬ Inside (initial files rand) t := by
  rintro (⟨l,busy⟩ | transfers | logs)
  · exact busy rfl
  · cases transfers
  · cases logs
theorem inside_others {P : Tid → Prop} (reachable : Reachable n files rand c) (reached : (bank n).ReachesBy P c d) (other : ¬ P u)
    (inside : Inside d u) : Inside c u := by
  obtain ⟨schedule,among,ran⟩ := reached
  induction schedule generalizing c with
  | nil => cases ran; exact inside
  | cons t rest ih =>
    obtain ⟨middle,stepped,later⟩ := Option.bind_eq_some_iff.mp ran
    have differs : u ≠ t := fun same => other (same ▸ among t (List.mem_cons_self ..))
    exact inside_other reachable stepped differs
      (ih (reachable.step stepped) (fun u member => among u (List.mem_cons_of_mem t member)) later)

/-- The threads that are in `D`, or are the printer or the fee collector. -/
def Moving (D : Finset Tid) (t : Tid) : Prop := t ∈ D ∨ t = .accounts_print ∨ t = .fee_collection
/-- No other thread is inside a lock. -/
structure Under (n : Nat) (files : Nat → List Command) (rand : Nat → Nat) (D : Finset Tid) (c : Config) : Prop where
  reachable : Reachable n files rand c
  inside : ∀ t, Inside c t → Moving D t
  own : ∀ t ∈ D, t ≠ .accounts_print ∧ t ≠ .fee_collection
/-- What the threads in `D` have left. -/
abbrev Left (n : Nat) (D : Finset Tid) (c : Config) (total : Nat) : Prop := Owing (fun _ _ => True) (fun _ => work n) D c total

variable {D : Finset Tid} {total : Nat}

theorem Under.reaches {P : Tid → Prop} (under : Under n files rand D c) (moves : ∀ t, P t → Moving D t)
    (reached : (bank n).ReachesBy P c d) : Under n files rand D d := by
  refine ⟨Machine.Reaches.trans under.reachable reached.reaches,fun u inside => ?_,under.own⟩
  by_cases moved : P u
  · exact moves u moved
  · exact under.inside u (inside_others under.reachable reached moved inside)
theorem Under.step (under : Under n files rand D c) (moves : Moving D t) (stepped : (bank n).step c t = some d) :
    Under n files rand D d :=
  under.reaches (P := (· = t)) (by rintro _ rfl; exact moves) (.step rfl stepped)

/-- A step of a thread in `D` lowers what they have left. -/
theorem Left.step (under : Under n files rand D c) (left : Left n D c total) (member : t ∈ D) (stepped : (bank n).step c t = some d) :
    ∃ less, less < total ∧ Left n D d less := by
  obtain ⟨V,_,follows⟩ := reachable_holds (S := SerialHistory.anyFiles files) under.reachable
  refine owing_step (fun point p at_ started => ?_) (fun _ _ _ _ => trivial) left member stepped
  have looped := follows t
  rw [at_,follows_ret] at looped
  exact work_round (under.own t member) looped started
/-- What the printer or the fee collector has left is bounded at every time. -/
theorem pass_left (reachable : Reachable n files rand c) (m : OrdMap Int Ref) (flags : Bool → Prop) (rest head : Nat) (t : Tid) :
    ∃ k, Owes (said m flags) (tour m rest head) k (c.thread t).prog := by
  refine ⟨_,owes_within (k := rest + head + 20 * (m.entries.length + 1)) (reachable_within reachable t) fun point => ?_⟩
  cases point with
  | print_accounts it | charge_accounts rate it =>
    have := m.ahead_le it
    simp only [tour]
    omega
  | _ => simp only [tour]; omega

/-- The printer and the fee collector leave the list as it is. -/
theorem list_kept (reachable : Reachable n files rand c) (collector : t = .accounts_print ∨ t = .fee_collection)
    (stepped : (bank n).step c t = some d) : d.shared.map_of_accounts = c.shared.map_of_accounts := by
  obtain ⟨V,⟨Γ,_,L⟩,follows⟩ := reachable_holds (S := SerialHistory.anyFiles files) reachable
  have unchanging : (V t).change = .none := by
    rcases (L t).2.change with none | ⟨⟨i,rfl⟩,_⟩
    · exact none
    · simp at collector
  rcases step_cases stepped with ⟨_,_,_,_,rfl⟩ | ⟨a,next,r,s,left,ran,rfl⟩
  · rfl
  have ok : Views.Ok _ t (V t) a := follows_permits (follows t) (by rw [left]; rfl)
  rcases run_money ran with ⟨q,v,rfl⟩ | ⟨v,rfl⟩ | ⟨id,v,pw,rfl⟩ | ⟨_,⟨id,q,rfl⟩ | ⟨id,rfl⟩ | same⟩
  · cases ran; rfl
  · cases ran; rfl
  · cases ran; rfl
  · obtain ⟨⟨pw,balance,changes⟩,_⟩ := ok
    rw [unchanging] at changes; cases changes
  · obtain ⟨q,changes⟩ := ok
    rw [unchanging] at changes; cases changes
  · exact same

/-! ### The locks empty -/

/-- `main` takes no lock. -/
theorem main_outside (reachable : Reachable n files rand c) : ¬ Inside c .main := by
  have both : Reachable n files rand c ∧ ¬ Inside c .main := by
    refine reachable.invariant (P := fun c => Reachable n files rand c ∧ ¬ Inside c .main) ⟨⟨[],rfl⟩,initial_outside .main⟩ ?_
    rintro c t d ⟨here,outside⟩ stepped
    refine ⟨here.step stepped,fun inside => outside ?_⟩
    by_cases same : t = .main
    · subst same
      rcases step_cases stepped with ⟨_,_,_,_,rfl⟩ | ⟨a,next,r,s,left,ran,rfl⟩
      · exact inside
      · obtain ⟨V,_,follows⟩ := ending_holds here
        have may := (follows_permits (follows .main) (by rw [left]; rfl)).2
        have ran : run .main a c.shared = some (r,s) := ran
        by_cases ordinary : Ordinary a
        · exact absurd rfl ((may_ordinary ordinary).mp may)
        cases a with
        | progress | set_progress flag | exit => cases ran; exact inside
        | join w =>
          obtain ⟨_,same⟩ := Option.ite_none_right_eq_some.mp ran
          cases same; exact inside
        | _ => exact absurd trivial ordinary
    · exact inside_other here stepped (Ne.symm same) inside
  exact both.2

/-- A thread that iterates over the accounts inside the list comes nearer to its end. -/
theorem pass_paced {flags : Bool → Prop} {m : OrdMap Int Ref} (reachable : Reachable n files rand c) (inside : Inside c t)
    (collector : t = .accounts_print ∨ t = .fee_collection) : Paced (bank n) (said m flags) (tour m 20 0) c t := by
  intro point p left started
  obtain ⟨V,⟨Γ,_,L⟩,follows⟩ := reachable_holds (S := SerialHistory.anyFiles files) reachable
  have looped := follows t
  rw [left,follows_ret] at looped
  rcases collector with rfl | rfl
  · cases point <;> simp only [outline,BankOutline.Loop] at looped
    case accounts_status_print | ended => exact absurd inside (home_outside (L _).1 looped)
    case print_accounts it =>
      cases started
      exact print_round it fun _ => by omega
  · cases point <;> simp only [outline,BankOutline.Loop] at looped
    case fee_collection | ended => exact absurd inside (home_outside (L _).1 looped)
    case charge_accounts rate it =>
      cases started
      exact charge_round rate it fun _ => by omega
theorem pass_answers {flags : Bool → Prop} {s : Shared} (holds : flags s.progress) :
    Answers (bank n) (said s.map_of_accounts flags) t s := by
  intro a x s' ran
  have ran : run t a s = some (x,s') := ran
  cases a with
  | after key => cases ran; exact rfl
  | progress => cases ran; exact holds
  | _ => trivial

theorem emptied (distinct : ∀ i, ∀ cmd ∈ files i, Distinct cmd) (under : Under n files rand D c) (left : Left n D c total) :
    ∃ d less, less ≤ total ∧ (bank n).ReachesBy (fun t => t ≠ .main ∧ Moving D t) c d ∧ Under n files rand D d ∧ Left n D d less ∧
      ∀ t, ¬ Inside d t := by
  induction total using Nat.strong_induction_on generalizing c with
  | h total fewer =>
    -- The printer and the fee collector by themselves leave the list as it is.
    obtain ⟨passes,owing⟩ : ∃ passes, Owing (said c.shared.map_of_accounts fun _ => True)
        (fun _ => tour c.shared.map_of_accounts 20 0) {.accounts_print,.fee_collection} c passes :=
      owing_of fun t _ => pass_left under.reachable _ _ _ _ t
    generalize same : c.shared.map_of_accounts = m at owing
    induction passes using Nat.strong_induction_on generalizing c with
    | h passes shorter =>
      by_cases some_ : ∃ t, Inside c t
      · obtain ⟨t,d,inside,stepped⟩ := inside_steps distinct under.reachable some_
        have moves := under.inside t inside
        have under' := under.step moves stepped
        have onward : (bank n).ReachesBy (fun t => t ≠ .main ∧ Moving D t) c d :=
          .step ⟨fun same => main_outside under.reachable (same ▸ inside),moves⟩ stepped
        by_cases collector : t = .accounts_print ∨ t = .fee_collection
        · have still : Left n D d total :=
            owing_other left (fun member => (not_or.mpr (under.own t member)) collector) stepped
          obtain ⟨less,down,owing'⟩ := owing_step (pass_paced under.reachable inside collector)
            (same ▸ pass_answers trivial) owing (by simpa using collector) stepped
          obtain ⟨e,rest,below,reached,ends⟩ :=
            shorter less down under' still ((list_kept under.reachable collector stepped).trans same) owing'
          exact ⟨e,rest,below,onward.trans reached,ends⟩
        · obtain ⟨less,down,left'⟩ := left.step under (moves.resolve_right collector) stepped
          obtain ⟨e,rest,below,reached,ends⟩ := fewer less down under' left'
          exact ⟨e,rest,below.trans down.le,onward.trans reached,ends⟩
      · exact ⟨c,total,le_rfl,.refl c,under,left,fun t inside => some_ ⟨t,inside⟩⟩

end StructureOfOs.Emptying
