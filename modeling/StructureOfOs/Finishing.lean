import StructureOfOs.Emptying

/-!
The bank can always finish, where no transfer names one account twice. With nobody inside a
lock a thread that moves alone is stopped by nothing but the writers' gate and a join. A
reader that sleeps at the gate is woken by the printer's next status, so the ATMs come to
the end of their files; then `main` clears the flag, and the other two threads end.
-/
namespace StructureOfOs.Finishing
open StructureOfOs.Programs StructureOfOs.Outlines StructureOfOs.BankState StructureOfOs.Accounts StructureOfOs.Atm
open StructureOfOs.Bank StructureOfOs.Views StructureOfOs.BankInvariant StructureOfOs.BankOutline StructureOfOs.BankFollows
open StructureOfOs.CircularWait StructureOfOs.Debts StructureOfOs.Endings StructureOfOs.Emptying

variable {n total : Nat} {t u : Tid} {files : Nat → List Command} {rand : Nat → Nat} {c d : Config} {V : Tid → View}
  {m : Mutex} {D : Finset Tid}

/-! ### One thread alone -/

theorem flag_kept (reachable : Reachable n files rand c) (other : t ≠ .main) (stepped : (bank n).step c t = some d) :
    d.shared.progress = c.shared.progress := by
  obtain ⟨V,_,follows⟩ := ending_holds reachable
  rcases step_cases stepped with ⟨_,_,_,_,rfl⟩ | ⟨a,next,r,s,left,ran,rfl⟩
  · rfl
  have ok := follows_permits (follows t) (by rw [left]; rfl)
  have ran : run t a c.shared = some (r,s) := ran
  by_cases ordinary : Ordinary a
  · exact (run_ordinary ordinary ran).2
  cases a with
  | set_progress flag => exact absurd ok.2.2.1 other
  | progress | exit => cases ran; rfl
  | join w =>
    obtain ⟨_,same⟩ := Option.ite_none_right_eq_some.mp ran
    cases same; rfl
  | _ => exact absurd trivial ordinary
theorem joins_main (reachable : Reachable n files rand c) (left : (c.thread t).prog.action = some (.join u)) :
    t = .main ∧ ∃ j, j < n ∧ u = .atm (j + 1) := by
  obtain ⟨V,_,follows⟩ := ending_holds reachable
  obtain ⟨_,is,joins,more⟩ := follows_permits (follows t) left
  exact ⟨is,_,more,joins⟩
theorem gate_atm (reachable : Reachable n files rand c) (left : (c.thread t).prog.action = some (.lock .stdout_print_lock)) :
    ∃ i, t = .atm i := by
  obtain ⟨next,at_⟩ := Prog.action_eq_some.mp left
  have within := reachable_within reachable t
  rw [at_] at within
  exact within.1

/-- From `c₀` only `t` has moved, while nobody else is inside. -/
structure Lone (n : Nat) (t : Tid) (c₀ c : Config) : Prop where
  reached : (bank n).ReachesBy (· = t) c₀ c
  others : ∀ u, u ≠ t → c.thread u = c₀.thread u
  alone : ∀ u, u ≠ t → ¬ Inside c u
  list : c.shared.map_of_accounts = c₀.shared.map_of_accounts
  flag : c.shared.progress = c₀.shared.progress

variable {c₀ : Config}

theorem Lone.step (reachable : Reachable n files rand c₀) (lone : Lone n t c₀ c) (collector : t = .accounts_print ∨ t = .fee_collection)
    (stepped : (bank n).step c t = some d) : Lone n t c₀ d := by
  have here := Machine.Reaches.trans reachable lone.reached.reaches
  have other : t ≠ .main := by rintro rfl; simp at collector
  exact ⟨lone.reached.trans (.step rfl stepped),fun u differs => (thread_other stepped differs).trans (lone.others u differs),
    fun u differs inside => lone.alone u differs (inside_other here stepped differs inside),
    (list_kept here collector stepped).trans lone.list,(flag_kept here other stepped).trans lone.flag⟩
/-- Nothing stops the printer or the fee collector when it moves alone. -/
theorem Lone.moves (distinct : ∀ i, ∀ cmd ∈ files i, Distinct cmd) (reachable : Reachable n files rand c₀) (lone : Lone n t c₀ c)
    (collector : t = .accounts_print ∨ t = .fee_collection) (under_way : ¬ Over n c t) : ∃ d, (bank n).step c t = some d := by
  have here := Machine.Reaches.trans reachable lone.reached.reaches
  obtain ⟨V,⟨Γ,G,L⟩,follows⟩ := reachable_holds (S := setting distinct) here
  cases stepped : (bank n).step c t with
  | some d => exact ⟨d,rfl⟩
  | none =>
    exfalso
    rcases blocked_cases G.locks stepped with finished | ⟨left,_⟩ | ⟨u,left,_⟩ | ⟨u,waits,inside⟩
    · exact under_way finished
    · obtain ⟨i,rfl⟩ := gate_atm here left
      simp at collector
    · obtain ⟨rfl,_⟩ := joins_main here left
      simp at collector
    · have same : u = t := by
        by_contra other
        exact lone.alone u other inside
      subst same
      exact absurd (rank_lt (S := setting distinct) trivial G.locks (fun t => (L t).1) follows waits) (lt_irrefl _)

/-- A thread that owes something, and pays with each step, comes to its goal. -/
theorem Lone.comes (distinct : ∀ i, ∀ cmd ∈ files i, Distinct cmd) (reachable : Reachable n files rand c₀)
    (flags : Bool → Prop) (rest head : Nat) (goal : Config → Prop) (collector : t = .accounts_print ∨ t = .fee_collection)
    (holds : flags c₀.shared.progress) (finished : ∀ d, Lone n t c₀ d → Over n d t → goal d)
    (paced : ∀ d, Lone n t c₀ d → ¬ goal d → Paced (bank n) (said c₀.shared.map_of_accounts flags)
      (tour c₀.shared.map_of_accounts rest head) d t) (lone : Lone n t c₀ c) : ∃ d, Lone n t c₀ d ∧ goal d := by
  have here := Machine.Reaches.trans reachable lone.reached.reaches
  obtain ⟨k,owes⟩ := pass_left here c₀.shared.map_of_accounts flags rest head t
  induction k using Nat.strong_induction_on generalizing c with
  | h k shorter =>
    by_cases reached : goal c
    · exact ⟨c,lone,reached⟩
    have here := Machine.Reaches.trans reachable lone.reached.reaches
    obtain ⟨d,stepped⟩ := lone.moves distinct reachable collector fun ended => reached (finished c lone ended)
    have answers : Answers (bank n) (said c₀.shared.map_of_accounts flags) t c.shared := by
      rw [← lone.list]
      exact pass_answers (lone.flag ▸ holds)
    obtain ⟨j,less,owes'⟩ := owes_step (paced c lone reached) answers owes stepped
    exact shorter j less (lone.step reachable collector stepped) (here.step stepped) owes'

/-! ### The printer frees the gate -/

theorem status_round {m : OrdMap Int Ref} : ∃ j, j < 20 * (m.entries.length + 1) + 6 ∧
    Owes (said m (· = true)) (tour m 0 (20 * (m.entries.length + 1) + 6)) j accounts_status_print := by
  refine ⟨20 * (m.entries.length + 1) + 5,by omega,owes_then ?_⟩
  rintro _ rfl
  rw [if_pos rfl]
  refine owes_then fun _ _ => owes_then fun _ _ => owes_then fun _ _ => owes_then fun it _ => owes_ret.mpr ?_
  have := m.ahead_le it
  simp only [tour]
  omega
/-- The last round of a status frees the mutex. -/
theorem last_row_frees (s : Shared) : ∃ s', (do
      let balance ← bank_balance
      print (.bank balance)
      unlock_account_list_from_write
      set_accounts_print false
      pthread_mutex_unlock .stdout_print_lock : Code Unit).exec (run .accounts_print) s = some ((),s') ∧
    s'.stdout_print_lock = none :=
  ⟨_,rfl,rfl⟩

/-- The printer has printed all rows. -/
def LastRow (c : Config) : Prop := (c.thread .accounts_print).prog = .ret (.print_accounts none)
/-- With nobody inside and the bank open, a status is printed and the gate is free. -/
theorem gate_freed (distinct : ∀ i, ∀ cmd ∈ files i, Distinct cmd) (reachable : Reachable n files rand c)
    (calm : ∀ t, ¬ Inside c t) (going : c.shared.progress = true) :
    ∃ d, (bank n).ReachesBy (· = .accounts_print) c d ∧ d.shared.stdout_print_lock = none ∧
      ∀ u, u ≠ .accounts_print → d.thread u = c.thread u := by
  have lone : Lone n .accounts_print c c := ⟨.refl c,fun _ _ => rfl,fun u _ => calm u,rfl,rfl⟩
  have finished : ∀ d, Lone n .accounts_print c d → Over n d .accounts_print → LastRow d := by
    intro d lone ended
    have here := Machine.Reaches.trans reachable lone.reached.reaches
    have stopped := stopped_before here (by simp) ((exited_iff here _).mpr ended)
    rw [lone.flag,going] at stopped; cases stopped
  have paced : ∀ d, Lone n .accounts_print c d → ¬ LastRow d → Paced (bank n) (said c.shared.map_of_accounts (· = true))
      (tour c.shared.map_of_accounts 0 (20 * (c.shared.map_of_accounts.entries.length + 1) + 6)) d .accounts_print := by
    intro d lone under_way point p left started
    obtain ⟨V,_,follows⟩ := ending_holds (Machine.Reaches.trans reachable lone.reached.reaches)
    have looped := follows .accounts_print
    rw [left,follows_ret] at looped
    cases point <;> simp only [ending,Endings.Loop] at looped
    case accounts_status_print => cases started; exact status_round
    case print_accounts it =>
      cases started
      exact print_round it fun last => absurd (by subst last; exact left) under_way
    case ended => cases started
  obtain ⟨d,lone',stands⟩ := lone.comes distinct reachable _ _ _ LastRow (.inl rfl) going finished paced
  obtain ⟨s',ran,free⟩ := last_row_frees d.shared
  have started : (bank n).step d .accounts_print = some { d with
      thread := Function.update d.thread .accounts_print ⟨.print_accounts none,print_accounts none⟩ } := by
    simp only [Machine.step,show (d.thread .accounts_print).prog = .ret (.print_accounts none) from stands]
    rfl
  obtain ⟨k,rest⟩ := exec_runs (M := bank n) (t := .accounts_print) (f := fun _ => .ret .accounts_status_print)
    (c := { d with thread := Function.update d.thread .accounts_print ⟨.print_accounts none,print_accounts none⟩ })
    (by simp only [Function.update_self]; rfl) ran
  refine ⟨_,(lone'.reached.trans (.step rfl started)).trans ⟨_,fun t member => List.eq_of_mem_replicate member,rest⟩,free,fun u other => ?_⟩
  simp only [Function.update_of_ne other]
  exact lone'.others u other

/-! ### The ATMs, then the others -/

theorem ended_outside (reachable : Reachable n files rand c) (ended : c.shared.exited t = true) : ¬ Inside c t := by
  obtain ⟨V,⟨Γ,_,L⟩,follows⟩ := reachable_holds (S := SerialHistory.anyFiles files) reachable
  obtain ⟨point,left,finished⟩ := (exited_iff reachable t).mp ended
  have looped := follows t
  rw [left,follows_ret] at looped
  exact home_outside (L t).1 (round_none looped finished)

/-- Only the printer has moved: nothing has changed for the threads in `D`. -/
theorem under_printed (under : Under n files rand D c) (left : Left n D c total) (reached : (bank n).ReachesBy (· = .accounts_print) c d) :
    Under n files rand D d ∧ Left n D d total := by
  obtain ⟨k,owes,sum⟩ := left
  refine ⟨under.reaches (by rintro _ rfl; exact .inr (.inl rfl)) reached,k,fun u member => ?_,sum⟩
  obtain ⟨schedule,among,ran⟩ := reached
  rw [runs_frame ran fun moved => (under.own u member).1 (among u moved)]
  exact owes u member

theorem gate_passes (left : (c.thread t).prog.action = some (.lock .stdout_print_lock)) (free : c.shared.stdout_print_lock = none) :
    ∃ d, (bank n).step c t = some d := by
  obtain ⟨next,ahead⟩ := Prog.action_eq_some.mp left
  exact Option.isSome_iff_exists.mp (by simp [Machine.step,ahead,bank,run,free])
/-- Who has exited is seen from the threads. -/
theorem exited_same (reachable : Reachable n files rand c) (reached : (bank n).Reaches c d) (same : d.thread t = c.thread t) :
    d.shared.exited t = c.shared.exited t := by
  rw [Bool.eq_iff_iff,exited_iff reachable t,exited_iff (reachable.trans reached) t,same]

/-- With nobody inside, an ATM that has not exited steps, at once or when the printer has freed the gate. -/
theorem atm_steps (distinct : ∀ i, ∀ cmd ∈ files i, Distinct cmd) (reachable : Reachable n files rand c) (calm : ∀ t, ¬ Inside c t)
    {i : Nat} (first : 1 ≤ i) (last : i ≤ n) (running : c.shared.exited (.atm i) = false) :
    ∃ d e, (bank n).ReachesBy (· = .accounts_print) c d ∧ (∀ u, u ≠ .accounts_print → d.thread u = c.thread u) ∧
      (bank n).step d (.atm i) = some e := by
  cases stepped : (bank n).step c (.atm i) with
  | some e => exact ⟨c,e,.refl c,fun _ _ => rfl,stepped⟩
  | none =>
    obtain ⟨V,⟨Γ,G,_⟩,_⟩ := reachable_holds (S := setting distinct) reachable
    rcases blocked_cases G.locks stepped with ended | ⟨at_gate,_⟩ | ⟨u,joins,_⟩ | ⟨u,_,inside⟩
    · rw [(exited_iff reachable _).mpr ended] at running; cases running
    · have going : c.shared.progress = true := by
        by_contra stopped
        rw [stopped_after reachable (by simpa using stopped) first last] at running; cases running
      obtain ⟨d,onward,free,others⟩ := gate_freed distinct reachable calm going
      obtain ⟨e,passes⟩ := gate_passes (n := n) (c := d) (t := .atm i) (by rw [others (.atm i) (by simp)]; exact at_gate) free
      exact ⟨d,e,onward,others,passes⟩
    · cases (joins_main reachable joins).1
    · exact absurd inside (calm u)

theorem atms_end (distinct : ∀ i, ∀ cmd ∈ files i, Distinct cmd) (under : Under n files rand D c) (left : Left n D c total)
    (all : ∀ i, 1 ≤ i → i ≤ n → .atm i ∈ D) :
    ∃ d less, (bank n).ReachesBy (fun t => t ≠ .main ∧ Moving D t) c d ∧ Under n files rand D d ∧ Left n D d less ∧
      (∀ t, ¬ Inside d t) ∧ ∀ i, 1 ≤ i → i ≤ n → d.shared.exited (.atm i) = true := by
  induction total using Nat.strong_induction_on generalizing c with
  | h total fewer =>
    obtain ⟨d,less,below,reached,under₁,left₁,calm⟩ := emptied distinct under left
    by_cases finished : ∀ i, 1 ≤ i → i ≤ n → d.shared.exited (.atm i) = true
    · exact ⟨d,less,reached,under₁,left₁,calm,finished⟩
    obtain ⟨i,first,last,running⟩ : ∃ i, 1 ≤ i ∧ i ≤ n ∧ d.shared.exited (.atm i) = false := by simpa using finished
    obtain ⟨e,f,onward,others,stepped⟩ := atm_steps distinct under₁.reachable calm first last running
    obtain ⟨under₂,left₂⟩ := under_printed under₁ left₁ onward
    obtain ⟨less',down,left₃⟩ := left₂.step under₂ (all i first last) stepped
    obtain ⟨g,rest,reached',ends⟩ := fewer less' (down.trans_le below) (under₂.step (.inl (all i first last)) stepped) left₃
    exact ⟨g,rest,(reached.trans ((onward.mono (by rintro _ rfl; exact ⟨by simp,.inr (.inl rfl)⟩)).trans
      (.step ⟨by simp,.inl (all i first last)⟩ stepped))).trans reached',ends⟩

/-- When the ATMs have exited, nothing stops `main`. -/
theorem main_ends (distinct : ∀ i, ∀ cmd ∈ files i, Distinct cmd) (under : Under n files rand D c) (left : Left n D c total)
    (member : .main ∈ D) (calm : ∀ t, t ≠ .main → ¬ Inside c t) (finished : ∀ i, 1 ≤ i → i ≤ n → c.shared.exited (.atm i) = true) :
    ∃ d, (bank n).ReachesBy (· = .main) c d ∧ (∀ u, u ≠ .main → d.thread u = c.thread u) ∧ (∀ t, t ≠ .main → ¬ Inside d t) ∧
      d.shared.exited .main = true := by
  induction total using Nat.strong_induction_on generalizing c with
  | h total fewer =>
    cases running : c.shared.exited .main with
    | true => exact ⟨c,.refl c,fun _ _ => rfl,calm,running⟩
    | false =>
      obtain ⟨V,⟨Γ,G,L⟩,follows⟩ := reachable_holds (S := setting distinct) under.reachable
      cases stepped : (bank n).step c .main with
      | none =>
        exfalso
        rcases blocked_cases G.locks stepped with ended | ⟨at_gate,_⟩ | ⟨u,joins,waits⟩ | ⟨u,waits,inside⟩
        · rw [(exited_iff under.reachable _).mpr ended] at running; cases running
        · obtain ⟨i,is⟩ := gate_atm under.reachable at_gate
          cases is
        · obtain ⟨_,j,below,rfl⟩ := joins_main under.reachable joins
          rw [finished (j + 1) (by omega) below] at waits; cases waits
        · have same : u = .main := by
            by_contra other
            exact calm u other inside
          subst same
          exact absurd (rank_lt (S := setting distinct) trivial G.locks (fun t => (L t).1) follows waits) (lt_irrefl _)
      | some d =>
        obtain ⟨less,down,left'⟩ := left.step under member stepped
        have onward : (bank n).ReachesBy (· = .main) c d := .step rfl stepped
        have still : ∀ i, d.shared.exited (.atm i) = c.shared.exited (.atm i) :=
          fun i => exited_same under.reachable onward.reaches (thread_other stepped (by simp))
        obtain ⟨e,reached,others,ends⟩ := fewer less down (under.step (.inl member) stepped) left'
          (fun t other inside => calm t other (inside_other under.reachable stepped other inside))
          fun i first last => (still i).trans (finished i first last)
        exact ⟨e,onward.trans reached,fun u other => (others u other).trans (thread_other stepped other),ends⟩

/-- When the flag is cleared and nobody else is inside, nothing stops the printer or the fee collector. -/
theorem collector_ends (distinct : ∀ i, ∀ cmd ∈ files i, Distinct cmd) (reachable : Reachable n files rand c)
    (collector : t = .accounts_print ∨ t = .fee_collection) (alone : ∀ u, u ≠ t → ¬ Inside c u) (stopped : c.shared.progress = false) :
    ∃ d, Lone n t c d ∧ d.shared.exited t = true := by
  have lone : Lone n t c c := ⟨.refl c,fun _ _ => rfl,alone,rfl,rfl⟩
  have paced : ∀ d, Lone n t c d → ¬ Over n d t → Paced (bank n) (said c.shared.map_of_accounts (· = false))
      (tour c.shared.map_of_accounts 10 3) d t := by
    intro d lone under_way point p left started
    obtain ⟨V,_,follows⟩ := ending_holds (reachable.trans lone.reached.reaches)
    have looped := follows t
    rw [left,follows_ret] at looped
    rcases collector with rfl | rfl
    · cases point <;> simp only [ending,Endings.Loop] at looped
      case accounts_status_print =>
        cases started
        refine ⟨2,by simp [tour],owes_then ?_⟩
        rintro _ rfl
        exact owes_then fun _ _ => owes_ret.mpr (Nat.zero_le _)
      case print_accounts it => cases started; exact print_round it fun _ => by omega
      case ended => cases started
    · cases point <;> simp only [ending,Endings.Loop] at looped
      case fee_collection =>
        cases started
        refine ⟨2,by simp [tour],owes_then ?_⟩
        rintro _ rfl
        exact owes_then fun _ _ => owes_ret.mpr (Nat.zero_le _)
      case charge_accounts rate it => cases started; exact charge_round rate it fun _ => by omega
      case ended => cases started
  obtain ⟨d,lone',ends⟩ := lone.comes distinct reachable _ _ _ (fun d => Over n d t) collector stopped (fun _ _ ends => ends) paced
  exact ⟨d,lone',(exited_iff (reachable.trans lone'.reached.reaches) t).mpr ends⟩

/-! ### The end -/

/-- The threads that `main` has started. -/
def Started (n : Nat) (t : Tid) : Prop := ∀ i, t = .atm i → 1 ≤ i ∧ i ≤ n
/-- All threads have exited, with every command of their files in the log; no mutex but the screen's is taken. -/
structure Finished (n : Nat) (files : Nat → List Command) (c : Config) : Prop where
  exited : ∀ t, Started n t → c.shared.exited t = true
  free : ∀ m, m ≠ .stdout_print_lock → c.shared.mutex m = none
  performed : ∃ hist B, AccountBook.Serial hist B c.shared.log ∧ ∀ i, 1 ≤ i → i ≤ n → AccountBook.commandsOf i hist = files i

theorem work_left (reachable : Reachable n files rand c) (own : t ≠ .accounts_print ∧ t ≠ .fee_collection) :
    ∃ k, Owes (fun _ _ => True) (work n) k (c.thread t).prog := by
  have both : Reachable n files rand c ∧ ∃ k, Owes (fun _ _ => True) (work n) k (c.thread t).prog := by
    refine reachable.invariant (P := fun c => Reachable n files rand c ∧ ∃ k, Owes (fun _ _ => True) (work n) k (c.thread t).prog)
      ⟨⟨[],rfl⟩,_,owes_ret.mpr le_rfl⟩ ?_
    rintro c u d ⟨here,k,owes⟩ stepped
    refine ⟨here.step stepped,?_⟩
    by_cases same : t = u
    · subst same
      obtain ⟨V,_,follows⟩ := reachable_holds (S := SerialHistory.anyFiles files) here
      obtain ⟨j,_,owes'⟩ := owes_step (fun point p left started => by
        have looped := follows t
        rw [left,follows_ret] at looped
        exact work_round own looped started) (fun _ _ _ _ => trivial) owes stepped
      exact ⟨j,owes'⟩
    · exact ⟨k,by rw [thread_other stepped same]; exact owes⟩
  exact both.2
/-- The threads that have moved are finitely many. -/
theorem under_some (reachable : Reachable n files rand c) : ∃ D total, Under n files rand D c ∧ Left n D c total ∧
    .main ∈ D ∧ ∀ i, 1 ≤ i → i ≤ n → .atm i ∈ D := by
  obtain ⟨schedule,ran⟩ := id reachable
  let D : Finset Tid := (schedule.toFinset ∪ insert .main ((Finset.range (n + 1)).image .atm)).filter
    fun t => t ≠ .accounts_print ∧ t ≠ .fee_collection
  have own : ∀ t ∈ D, t ≠ .accounts_print ∧ t ≠ .fee_collection := fun t member => (Finset.mem_filter.mp member).2
  obtain ⟨total,left⟩ := owing_of fun t member => work_left (t := t) reachable (own t member)
  refine ⟨D,total,⟨reachable,fun t inside => ?_,own⟩,left,by simp [D],fun i _ last => ?_⟩
  · by_contra outside
    simp only [Moving,not_or] at outside
    have unmoved : t ∉ schedule := fun member =>
      outside.1 (Finset.mem_filter.mpr ⟨Finset.mem_union_left _ (List.mem_toFinset.mpr member),outside.2⟩)
    exact initial_outside t (inside_others ⟨[],rfl⟩ ⟨schedule,fun _ => id,ran⟩ unmoved inside)
  · simp [D]
    omega

/-- From every state of the bank some schedule leads to the end of all its threads. -/
theorem can_finish (distinct : ∀ i, ∀ cmd ∈ files i, Distinct cmd) (reachable : Reachable n files rand c) :
    ∃ d, (bank n).Reaches c d ∧ Finished n files d := by
  obtain ⟨D,total,under,left,main_member,atm_members⟩ := under_some reachable
  -- The ATMs, `main`, the fee collector, the printer.
  obtain ⟨c₁,less,to₁,under₁,left₁,calm₁,atms₁⟩ := atms_end distinct under left atm_members
  obtain ⟨c₂,to₂,others₂,alone₂,main₂⟩ := main_ends distinct under₁ left₁ main_member (fun t _ => calm₁ t) atms₁
  have here₂ := under₁.reachable.trans to₂.reaches
  have stopped : c₂.shared.progress = false := stopped_before here₂ (by simp) main₂
  have calm₂ : ∀ t, ¬ Inside c₂ t := by
    intro t
    by_cases same : t = .main
    · subst same; exact ended_outside here₂ main₂
    · exact alone₂ t same
  obtain ⟨c₃,lone₃,fee₃⟩ := collector_ends distinct here₂ (.inr rfl) (fun t _ => calm₂ t) stopped
  have here₃ := here₂.trans lone₃.reached.reaches
  have calm₃ : ∀ t, ¬ Inside c₃ t := by
    intro t
    by_cases same : t = .fee_collection
    · subst same; exact ended_outside here₃ fee₃
    · exact lone₃.alone t same
  obtain ⟨c₄,lone₄,printer₄⟩ := collector_ends distinct here₃ (.inl rfl) (fun t _ => calm₃ t) (lone₃.flag.trans stopped)
  have here₄ := here₃.trans lone₄.reached.reaches
  have calm₄ : ∀ t, ¬ Inside c₄ t := by
    intro t
    by_cases same : t = .accounts_print
    · subst same; exact ended_outside here₄ printer₄
    · exact lone₄.alone t same
  have fee₄ := (exited_same here₃ lone₄.reached.reaches (lone₄.others .fee_collection (by simp))).trans fee₃
  have main₄ := (exited_same here₃ lone₄.reached.reaches (lone₄.others .main (by simp))).trans
    ((exited_same here₂ lone₃.reached.reaches (lone₃.others .main (by simp))).trans main₂)
  have atms₄ : ∀ i, 1 ≤ i → i ≤ n → c₄.shared.exited (.atm i) = true := fun i first last =>
    (exited_same here₃ lone₄.reached.reaches (lone₄.others _ (by simp))).trans
      ((exited_same here₂ lone₃.reached.reaches (lone₃.others _ (by simp))).trans
        ((exited_same under₁.reachable to₂.reaches (others₂ _ (by simp))).trans (atms₁ i first last)))
  refine ⟨c₄,((to₁.reaches.trans to₂.reaches).trans lone₃.reached.reaches).trans lone₄.reached.reaches,?_,fun m other => ?_,?_⟩
  · intro t started
    cases t with
    | atm i => obtain ⟨first,last⟩ := started i rfl; exact atms₄ i first last
    | accounts_print => exact printer₄
    | fee_collection => exact fee₄
    | main => exact main₄
  · obtain ⟨V,⟨Γ,G,_⟩,_⟩ := reachable_holds (S := SerialHistory.anyFiles files) here₄
    exact free_of_calm G.locks calm₄ other
  · obtain ⟨hist,B,serial,_,done,_⟩ := SerialHistory.commands_done (reachable_holds (S := SerialHistory.anyFiles files) here₄)
    refine ⟨hist,B,serial,fun i first last => ?_⟩
    obtain ⟨point,ends,finished⟩ := (exited_iff here₄ (.atm i)).mp (atms₄ i first last)
    have all := done i point ends
    cases point with
    | parser_file todo => cases finished
    | _ => exact (List.append_nil _).symm.trans all

/-- The printer waits for a transfer that is in the list. -/
theorem can_finish_printer : ∃ d, (bank 1).Reaches (Option.get _ waiting_ends) d ∧ Finished 1 SerialHistory.drainingFiles d :=
  can_finish draining_distinct (reachable_get waiting_ends)

end StructureOfOs.Finishing
