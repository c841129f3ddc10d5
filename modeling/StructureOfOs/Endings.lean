import StructureOfOs.Debts
import StructureOfOs.BankFollows

/-!
How the threads of the bank end. An operation of an ATM performs at most 40 actions, and none
that ends a thread, joins one or uses `progress`. `main` has joined every ATM before it
clears the flag, and the printer and the fee collector end only after that.
-/
namespace StructureOfOs.Endings
open StructureOfOs.Programs StructureOfOs.Outlines StructureOfOs.BankState StructureOfOs.Accounts StructureOfOs.Atm
open StructureOfOs.Bank StructureOfOs.Debts

/-! ### The pieces of the operations -/

/-- The operations on the mutexes and on the writers' flag, and those that only look at the list
    or at an account. -/
def Still : Act → Prop
  | .lock _ | .unlock _ | .readers _ | .set_readers _ _ | .accounts_print | .set_accounts_print _ | .find _ | .id _ | .password _
  | .deleted _ | .balance _ => True
  | _ => False
/-- The lines of the log. -/
def Logs : Act → Prop
  | .log _ => True
  | _ => False
/-- Operations of this kind are allowed. -/
class Allows (kind allowed : Act → Prop) : Prop where
  may : ∀ a, kind a → allowed a

variable {k n : Nat} {this : Nat} {id : Int} {pw : String} {amount : Int} {l : RwId} {r src dest : Ref} {line : Line}

section
variable {allowed : Act → Prop} [Allows Still allowed]

theorem still {a : Act} (kind : Still a) : allowed a := Allows.may a kind
theorem within_lock_for_read : Within allowed 6 (lock_for_read l) := by
  refine within_then (still trivial) fun _ => within_then (still trivial) fun _ => ?_
  refine within_then (still trivial) fun _ => within_then (still trivial) fun _ => ?_
  exact within_ite (within_then (still trivial) fun _ => within_call (still trivial)) (within_call (still trivial))
theorem within_unlock_from_read : Within allowed (k + 6) (unlock_from_read l) := by
  refine within_then (still trivial) fun _ => within_then (still trivial) fun _ => ?_
  refine within_then (still trivial) fun _ => within_then (still trivial) fun _ => ?_
  exact within_ite (within_then (still trivial) fun _ => within_call (still trivial)) (within_call (still trivial))
theorem within_wait_for_writer : Within allowed 2 wait_for_writer :=
  within_then (still trivial) fun _ => within_ite (within_call (still trivial)) within_ret
theorem within_finish_writing : Within allowed (k + 3) finish_writing :=
  within_then (still trivial) fun _ => within_then (still trivial) fun _ => within_call (still trivial)
theorem within_does_not_exsit : (it : Option Ref) → Within allowed 1 (does_not_exsit it)
  | none => within_ret
  | some _ => within_call (still trivial)
theorem within_vallid_password : Within allowed 1 (vallid_password r pw) := within_then (still trivial) fun _ => within_ret
theorem within_either_deleted : Within allowed 2 (either_deleted src dest) :=
  within_then (still trivial) fun _ => within_ite within_ret (within_call (still trivial))
theorem within_finish_transfer : Within allowed (k + 9) (finish_transfer src dest) :=
  within_then (still trivial) fun _ => within_then (still trivial) fun _ => within_then (still trivial) fun _ => within_unlock_from_read

theorem within_leave_write : Within allowed (k + 7) (do unlock_from_write r; unlock_account_list_from_read) :=
  within_then (still trivial) fun _ => within_unlock_from_read
theorem within_leave_read : Within allowed (k + 12) (do unlock_account_from_read r; unlock_account_list_from_read) := by
  have left : Within allowed 6 (unlock_account_from_read r) := within_unlock_from_read (k := 0)
  exact within_bind (k := k + 6) left fun _ => within_unlock_from_read
theorem within_leave_list : Within allowed (k + 4) (do unlock_from_write r; finish_writing) :=
  within_then (still trivial) fun _ => within_finish_writing
theorem within_leave_transfer : Within allowed (k + 7) (do pthread_mutex_unlock .transfer_lock; unlock_account_list_from_read) :=
  within_then (still trivial) fun _ => within_unlock_from_read

variable [Allows Logs allowed]

omit [Allows Still allowed] in
theorem logs {line : Line} : allowed (.log line) := (inferInstance : Allows Logs allowed).may _ trivial
/-- A line with a balance, and a way out. -/
theorem within_log_balance {line : Int → Line} {leave : Code Unit} (out : Within allowed k leave) : Within allowed (k + 4) (do
      pthread_mutex_lock .log_print_lock
      let balance ← balance_of r
      .call (Act.log (line balance))
      pthread_mutex_unlock .log_print_lock
      leave) :=
  within_then (still trivial) fun _ => within_then (still trivial) fun _ => within_then logs fun _ =>
    within_then (still trivial) fun _ => out
theorem within_fail {leave : Code Unit} (out : Within allowed k leave) : Within allowed (k + 3) (do log_print line; leave) :=
  within_then (still trivial) fun _ => within_then logs fun _ => within_then (still trivial) fun _ => out
end

/-! ### The operations are short -/

/-- The operations that have nothing to do with the end of the threads. -/
def Ordinary : Act → Prop
  | .progress | .set_progress _ | .exit | .join _ => False
  | _ => True

instance : Allows Still Ordinary where
  may a kind := by
    cases a with
    | progress | set_progress _ | exit | join _ => exact kind
    | _ => trivial
instance : Allows Logs Ordinary where
  may a kind := by
    cases a with
    | log line => trivial
    | _ => exact kind.elim

theorem within_withdrawl : Within Ordinary 3 (withdrawl r amount) :=
  within_then trivial fun _ => within_ite within_ret (within_then trivial fun _ => within_then trivial fun _ => within_ret)

theorem within_create_account : Within Ordinary 40 (create_account this id pw amount) := by
  refine within_then trivial fun _ => within_then trivial fun _ => within_then trivial fun it => ?_
  refine within_bind (within_does_not_exsit it) fun _ => within_ite ?_ (within_fail within_finish_writing)
  refine within_then trivial fun r => within_then trivial fun _ => within_then trivial fun _ => ?_
  exact within_fail within_leave_list

theorem within_deposit_to_account : Within Ordinary 40 (deposit_to_account this id pw amount) := by
  refine within_bind within_wait_for_writer fun _ => within_bind within_lock_for_read fun _ => within_then trivial fun it => ?_
  cases it with
  | none => exact within_fail within_unlock_from_read
  | some r =>
    refine within_then trivial fun _ => within_then trivial fun _ => within_ite (within_fail within_leave_write) ?_
    refine within_bind within_vallid_password fun _ => within_ite ?_ (within_fail within_leave_write)
    exact within_then trivial fun _ => within_then trivial fun _ => within_log_balance within_leave_write

theorem within_withdrawl_from_account : Within Ordinary 40 (withdrawl_from_account this id pw amount) := by
  refine within_bind within_wait_for_writer fun _ => within_bind within_lock_for_read fun _ => within_then trivial fun it => ?_
  cases it with
  | none => exact within_fail within_unlock_from_read
  | some r =>
    refine within_then trivial fun _ => within_then trivial fun _ => within_ite (within_fail within_leave_write) ?_
    refine within_bind within_vallid_password fun _ => within_ite ?_ (within_fail within_leave_write)
    refine within_bind within_withdrawl fun _ => within_ite ?_ (within_fail within_leave_write)
    exact within_log_balance within_leave_write

theorem within_closing_account : Within Ordinary 40 (closing_account this id pw) := by
  refine within_then trivial fun _ => within_then trivial fun _ => within_then trivial fun it => ?_
  cases it with
  | none => exact within_fail within_finish_writing
  | some r =>
    refine within_then trivial fun _ => within_then trivial fun _ => within_ite (within_fail within_leave_list) ?_
    refine within_bind within_vallid_password fun _ => within_ite ?_ (within_fail within_leave_list)
    refine within_then trivial fun _ => within_then trivial fun _ => within_then trivial fun _ => within_then trivial fun _ => ?_
    exact within_log_balance within_leave_list

theorem within_balance_check : Within Ordinary 40 (balance_check this id pw) := by
  refine within_bind within_wait_for_writer fun _ => within_bind within_lock_for_read fun _ => within_then trivial fun it => ?_
  cases it with
  | none => exact within_fail within_unlock_from_read
  | some r =>
    refine within_bind within_lock_for_read fun _ => within_then trivial fun _ => within_ite (within_fail within_leave_read) ?_
    refine within_bind within_vallid_password fun _ => within_ite ?_ (within_fail within_leave_read)
    exact within_log_balance within_leave_read

theorem within_transfer_between_accounts {src_id dest_id : Int} :
    Within Ordinary 40 (transfer_between_accounts this src_id pw dest_id amount) := by
  refine within_bind within_wait_for_writer fun _ => within_bind within_lock_for_read fun _ => within_then trivial fun _ => ?_
  refine within_then trivial fun it_src => within_then trivial fun it_dest => ?_
  cases it_src with
  | none => exact within_fail within_leave_transfer
  | some src =>
    cases it_dest with
    | none => exact within_fail within_leave_transfer
    | some dest =>
      refine within_then trivial fun _ => within_then trivial fun _ => within_bind within_either_deleted fun _ => within_ite ?_ ?_
      · exact within_then trivial fun _ => within_ite (within_fail within_finish_transfer) (within_fail within_finish_transfer)
      refine within_bind within_vallid_password fun _ => within_ite ?_ (within_fail within_finish_transfer)
      refine within_bind within_withdrawl fun _ => within_ite ?_ (within_fail within_finish_transfer)
      refine within_then trivial fun _ => within_then trivial fun _ => within_then trivial fun _ => within_then trivial fun _ => ?_
      exact within_then trivial fun _ => within_then trivial fun _ => within_then trivial fun _ => within_finish_transfer

theorem within_perform (command : Command) : Within Ordinary 40 (perform this command) := by
  cases command with
  | create_account id pw balance => exact within_create_account
  | deposit_to_account id pw amount => exact within_deposit_to_account
  | withdrawl_from_account id pw amount => exact within_withdrawl_from_account
  | balance_check id pw => exact within_balance_check
  | closing_account id pw => exact within_closing_account
  | transfer_between_accounts src pw dest amount => exact within_transfer_between_accounts



/-! ### The outline -/

/-- What a thread knows about the end: how many ATMs it has joined, whether it has read the
    flag as cleared, and whether it has exited. -/
structure Course where
  joined : Nat
  off : Bool
  exited : Bool
def Course.begun : Course := ⟨0,false,false⟩

/-- What a thread may do towards the end, as long as it has not exited. -/
def May (n : Nat) (t : Tid) (g : Course) : Act → Prop
  | .set_progress flag => flag = false ∧ t = .main ∧ n ≤ g.joined
  | .exit => (∀ i, t ≠ .atm i) → g.off = true
  | .join u => t = .main ∧ u = .atm (g.joined + 1) ∧ g.joined < n
  | .progress => True
  | _ => t ≠ .main
def Ok (n : Nat) (t : Tid) (g : Course) (a : Act) : Prop := g.exited = false ∧ May n t g a
def Next (g : Course) : (a : Act) → Res a → Course → Prop
  | .join _, _, g' => g' = { g with joined := g.joined + 1 }
  | .progress, flag, g' => g' = { g with off := !flag }
  | .set_progress flag, _, g' => g' = { g with off := !flag }
  | .exit, _, g' => g' = { g with exited := true }
  | _, _, g' => g' = g
def Loop : Tid → Ctl → Course → Prop
  | .atm _, .parser_file _, g | .accounts_print, .accounts_status_print, g | .accounts_print, .print_accounts _, g
  | .fee_collection, .fee_collection, g | .fee_collection, .charge_accounts _ _, g => g.exited = false
  | .main, .main joined, g => g.exited = false ∧ g.joined = joined
  | _, .ended, g => g.exited = true
  | _, _, _ => False

/-- Who has exited, and why. -/
structure Inv (n : Nat) (s : Shared) (V : Tid → Course) : Prop where
  exited : ∀ t, s.exited t = (V t).exited
  joined : ∀ i, 1 ≤ i → i ≤ (V .main).joined → s.exited (.atm i) = true
  stopped : s.progress = false → n ≤ (V .main).joined
  off : ∀ t, (V t).off = true → s.progress = false
  last : ∀ t, (∀ i, t ≠ .atm i) → s.exited t = true → s.progress = false

def ending (n : Nat) : Outline Tid Shared Act Res Ctl Course := ⟨Inv n,Ok n,fun _ => Next,Loop⟩

variable {t : Tid} {g g' : Course} {s s' : Shared} {V : Tid → Course} {a : Act}

/-- An ordinary operation changes nothing that matters to the end. -/
theorem run_ordinary {x : Res a} (ordinary : Ordinary a) (ran : run t a s = some (x,s')) :
    s'.exited = s.exited ∧ s'.progress = s.progress := by
  have moved : ∀ {l m}, s.move t l m = some ((),s') → s'.exited = s.exited ∧ s'.progress = s.progress := by
    intro l m moved
    obtain ⟨lock,_,same⟩ := Option.map_eq_some_iff.mp moved
    cases same
    exact ⟨rfl,rfl⟩
  cases a with
  | progress | set_progress flag | exit | join u => exact ordinary.elim
  | set_readers l n => exact moved ran
  | lock m =>
    cases m with
    | lock_read l | lock_write l => exact moved ran
    | _ =>
      simp only [run,Option.ite_none_right_eq_some] at ran
      obtain ⟨_,same⟩ := ran
      cases same
      exact ⟨rfl,rfl⟩
  | unlock m =>
    cases m with
    | lock_read l | lock_write l => exact moved ran
    | _ => cases ran; exact ⟨rfl,rfl⟩
  | _ => cases ran; exact ⟨rfl,rfl⟩

theorem next_ordinary {x : Res a} (ordinary : Ordinary a) : Next g a x g' ↔ g' = g := by
  cases a with
  | progress | set_progress flag | exit | join u => exact ordinary.elim
  | _ => exact Iff.rfl
theorem may_ordinary (ordinary : Ordinary a) : May n t g a ↔ t ≠ .main := by
  cases a with
  | progress | set_progress flag | exit | join u => exact ordinary.elim
  | _ => exact Iff.rfl

/-- The invariant after a step that changes neither the flag nor who has exited. -/
theorem Inv.learn (inv : Inv n s V) (exited : s.exited t = g.exited)
    (joined : t = .main → (V .main).joined ≤ g.joined ∧ ∀ i, 1 ≤ i → i ≤ g.joined → s.exited (.atm i) = true)
    (off : g.off = true → s.progress = false) : Inv n s (Function.update V t g) where
  exited u := by
    by_cases same : u = t
    · subst same; simpa using exited
    · simpa [same] using inv.exited u
  joined i := by
    by_cases same : t = .main
    · subst same; simpa using (joined rfl).2 i
    · simpa [Function.update_of_ne (Ne.symm same)] using inv.joined i
  stopped is := by
    by_cases same : t = .main
    · subst same; simpa using (inv.stopped is).trans (joined rfl).1
    · simpa [Function.update_of_ne (Ne.symm same)] using inv.stopped is
  off u is := by
    by_cases same : u = t
    · subst same; exact off (by simpa using is)
    · exact inv.off u (by simpa [same] using is)
  last := inv.last

theorem ending_act {x : Res a} (inv : Inv n s V) (ok : Ok n t (V t) a) (ran : run t a s = some (x,s')) :
    ∃ g, Next (V t) a x g ∧ Inv n s' (Function.update V t g) := by
  obtain ⟨going,may⟩ := ok
  by_cases ordinary : Ordinary a
  · obtain ⟨exited,progress⟩ := run_ordinary ordinary ran
    refine ⟨V t,(next_ordinary ordinary).mpr rfl,?_⟩
    rw [Function.update_eq_self]
    exact ⟨by rw [exited]; exact inv.exited,by rw [exited]; exact inv.joined,by rw [progress]; exact inv.stopped,
      by rw [progress]; exact inv.off,by rw [exited,progress]; exact inv.last⟩
  cases a with
  | progress =>
    cases ran
    refine ⟨_,rfl,inv.learn (inv.exited t) ?_ fun is => by simpa using is⟩
    rintro rfl
    exact ⟨le_rfl,inv.joined⟩
  | set_progress flag =>
    obtain ⟨rfl,rfl,all⟩ := may
    cases ran
    have now : Inv n { s with progress := false } V :=
      ⟨inv.exited,inv.joined,fun _ => all,fun _ _ => rfl,fun _ _ _ => rfl⟩
    exact ⟨_,rfl,now.learn (inv.exited _) (fun _ => ⟨le_rfl,inv.joined⟩) fun _ => rfl⟩
  | exit =>
    cases ran
    refine ⟨_,rfl,?_⟩
    have joined : ∀ u, (Function.update V t { V t with exited := true } u).joined = (V u).joined := by
      intro u
      by_cases same : u = t
      · subst same; simp
      · simp [same]
    refine ⟨fun u => ?_,fun i first last => ?_,fun is => ?_,fun u is => ?_,fun u other is => ?_⟩
    · by_cases same : u = t
      · subst same; simp
      · simpa [same] using inv.exited u
    · rw [joined] at last
      by_cases same : Tid.atm i = t
      · simp [same]
      · simpa [same] using inv.joined i first last
    · rw [joined]
      exact inv.stopped is
    · by_cases same : u = t
      · subst same; exact inv.off u (by simpa using is)
      · exact inv.off u (by simpa [same] using is)
    · by_cases same : u = t
      · subst same; exact inv.off u (may other)
      · exact inv.last u other (by simpa [same] using is)
  | join u =>
    obtain ⟨rfl,rfl,_⟩ := may
    obtain ⟨done,same⟩ := Option.ite_none_right_eq_some.mp ran
    cases same
    refine ⟨_,rfl,inv.learn (inv.exited _) (fun _ => ⟨Nat.le_succ _,fun i first last => ?_⟩) (inv.off _)⟩
    rcases Nat.of_le_succ last with before | rfl
    · exact inv.joined i first before
    · exact done
  | _ => exact absurd trivial ordinary

/-! ### Every round keeps to it -/

variable {point : Ctl}

/-- A thread that may do something else than to end, or to join. -/
def Going (t : Tid) (g : Course) : Prop := t ≠ .main ∧ g.exited = false
/-- An ordinary program takes a thread nowhere. -/
theorem follows_ordinary {α : Type} {p : Code α} (going : Going t g) (within : Within Ordinary k p) :
    (ending n).Follows t p g fun _ g' => g' = g :=
  within_follows (fun _ ordinary => ⟨going.2,(may_ordinary ordinary).mpr going.1⟩)
    (fun _ _ _ ordinary => (next_ordinary ordinary).mp) within
/-- An ordinary program, then the rest. -/
theorem ordinary_then {α β : Type} {p : Code α} {f : α → Code β} {Q : β → Course → Prop}
    (going : Going t g) (within : Within Ordinary k p) (rest : ∀ value, (ending n).Follows t (f value) g Q) :
    (ending n).Follows t (p >>= f) g Q := by
  refine follows_seq (follows_ordinary going within) ?_
  rintro value _ rfl
  exact rest value

theorem ordinary_call {a : Act} {β : Type} {f : Res a → Code β} {Q : β → Course → Prop} (going : Going t g)
    (ordinary : Ordinary a) (rest : ∀ r, (ending n).Follows t (f r) g Q) : (ending n).Follows t (.call a >>= f) g Q :=
  ordinary_then going (within_call (k := 0) ordinary) rest

theorem ending_exit (going : g.exited = false) (may : (∀ i, t ≠ .atm i) → g.off = true) :
    (ending n).Follows t pthread_exit g (Loop t) := by
  refine follows_then ⟨⟨going,may⟩,?_⟩
  rintro _ _ rfl
  cases t <;> rfl

theorem ending_round {p : Code Ctl} (looped : Loop t point g) (started : rounds n t point = some p) :
    (ending n).Follows t p g (Loop t) := by
  cases t <;> cases point <;> simp only [Loop,rounds,reduceCtorEq,Option.some.injEq] at looped started <;> subst started
  case atm.parser_file i todo =>
    have going : Going (.atm i) g := ⟨by simp,looped⟩
    cases todo with
    | nil => exact ending_exit looped fun other => absurd rfl (other _)
    | cons command todo => exact ordinary_then going (within_perform command) fun _ => looped
  case accounts_print.accounts_status_print =>
    have going : Going .accounts_print g := ⟨by simp,looped⟩
    refine follows_then ⟨⟨looped,trivial⟩,?_⟩
    rintro (flag : Bool) _ rfl
    cases flag with
    | false => exact ending_exit looped fun _ => rfl
    | true =>
      refine ordinary_call going trivial fun _ => ordinary_call going trivial fun _ => ?_
      exact ordinary_call going trivial fun _ => ordinary_call going trivial fun _ => looped
  case accounts_print.print_accounts it =>
    have going : Going .accounts_print g := ⟨by simp,looped⟩
    cases it with
    | none =>
      refine ordinary_call going trivial fun _ => ordinary_call going trivial fun _ => ordinary_call going trivial fun _ => ?_
      exact ordinary_call going trivial fun _ => ordinary_call going trivial fun _ => looped
    | some e =>
      refine ordinary_then going within_lock_for_read fun _ => ordinary_call going trivial fun _ => ?_
      refine ordinary_call going trivial fun _ => ordinary_call going trivial fun _ => ordinary_call going trivial fun _ => ?_
      exact ordinary_then going (within_unlock_from_read (k := 0)) fun _ => ordinary_call going trivial fun _ => looped
  case fee_collection.fee_collection =>
    have going : Going .fee_collection g := ⟨by simp,looped⟩
    refine follows_then ⟨⟨looped,trivial⟩,?_⟩
    rintro (flag : Bool) _ rfl
    cases flag with
    | false => exact ending_exit looped fun _ => rfl
    | true =>
      refine ordinary_call going trivial fun _ => ordinary_then going within_lock_for_read fun _ => ?_
      exact ordinary_call going trivial fun _ => looped
  case fee_collection.charge_accounts rate it =>
    have going : Going .fee_collection g := ⟨by simp,looped⟩
    cases it with
    | none => exact ordinary_then going (within_unlock_from_read (k := 0)) fun _ => looped
    | some e =>
      refine ordinary_call going trivial fun _ => ordinary_call going trivial fun _ => ordinary_call going trivial fun _ => ?_
      refine ordinary_call going trivial fun _ => ordinary_call going trivial fun _ => ordinary_call going trivial fun _ => ?_
      refine ordinary_call going trivial fun _ => ordinary_call going trivial fun _ => ordinary_call going trivial fun _ => ?_
      exact ordinary_call going trivial fun _ => ordinary_call going trivial fun _ => ordinary_call going trivial fun _ => looped
  case main.main joined =>
    obtain ⟨going,looped⟩ := looped
    unfold main
    by_cases waits : joined < n
    · rw [if_pos waits]
      refine follows_then ⟨⟨going,rfl,by rw [looped],looped ▸ waits⟩,?_⟩
      rintro _ _ rfl
      exact ⟨going,congrArg (· + 1) looped⟩
    · rw [if_neg waits]
      refine follows_then ⟨⟨going,rfl,rfl,by omega⟩,?_⟩
      rintro _ _ rfl
      exact ending_exit going fun _ => rfl

theorem ending_sound (n : Nat) : (ending n).Sound (bank n) := ⟨ending_act,ending_round⟩

variable {files : Nat → List Command} {rand : Nat → Nat} {c : Config}

theorem ending_holds (reachable : Reachable n files rand c) : (ending n).Holds c := by
  refine (ending_sound n).reaches ⟨fun _ => .begun,?_,fun t => ?_⟩ reachable
  · constructor <;> simp [Course.begun,initial,Shared.initial]
    omega
  · cases t <;> first | exact rfl | exact ⟨rfl,rfl⟩

/-- A thread has exited when it has nothing left to do, and not before. -/
theorem exited_iff (reachable : Reachable n files rand c) (t : Tid) :
    c.shared.exited t = true ↔ ∃ point, (c.thread t).prog = .ret point ∧ rounds n t point = none := by
  obtain ⟨V,inv,follows⟩ := ending_holds reachable
  have mine := follows t
  rw [inv.exited t]
  constructor
  · intro exited
    cases left : (c.thread t).prog with
    | act a next =>
      rw [left] at mine
      rw [mine.1.1] at exited; cases exited
    | ret point =>
      rw [left,follows_ret] at mine
      refine ⟨point,rfl,?_⟩
      cases t <;> cases point <;> simp_all [ending,Loop,rounds]
  · rintro ⟨point,left,ended⟩
    rw [left,follows_ret] at mine
    cases t <;> cases point <;> simp only [ending,Loop,rounds,reduceCtorEq] at mine ended <;> exact mine
/-- The flag is cleared when all ATMs have exited. -/
theorem stopped_after (reachable : Reachable n files rand c) (stopped : c.shared.progress = false) {i : Nat} (first : 1 ≤ i)
    (last : i ≤ n) : c.shared.exited (.atm i) = true := by
  obtain ⟨V,inv,_⟩ := ending_holds reachable
  exact inv.joined i first (last.trans (inv.stopped stopped))
/-- The others exit only after that. -/
theorem stopped_before (reachable : Reachable n files rand c) (other : ∀ i, t ≠ .atm i) (exited : c.shared.exited t = true) :
    c.shared.progress = false := by
  obtain ⟨V,inv,_⟩ := ending_holds reachable
  exact inv.last t other exited

end StructureOfOs.Endings
