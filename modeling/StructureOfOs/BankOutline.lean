import StructureOfOs.BankSound
import StructureOfOs.Reports

/-!
The outline of the bank, with the views that its threads have where their loops
come round, and what the functions shared by the operations lead to: the ways in
and out of the reader/writer locks, the log, and the functions on an account.
-/
namespace StructureOfOs.BankOutline
open StructureOfOs.Programs StructureOfOs.Outlines StructureOfOs.RwLock StructureOfOs.BankState StructureOfOs.Accounts
open StructureOfOs.Atm StructureOfOs.Bank StructureOfOs.AccountBook StructureOfOs.Views

/-- A thread that iterates over the accounts and stands between two of them, the
    list being locked at a point `p`. -/
structure Passing (p : Phase) (done : List (Int × Ref)) (it : Option (Int × Ref)) (g : View) : Prop where
  list : g.phase .account_list = p
  quiet : g.Quiet
  transfer : g.transfer = false
  logging : g.logging = false
  settled : g.change = .none
  read : ∀ r, g.cell r = none
  bank : g.bank = none
  todo : g.todo = []
  pass : g.pass = some (done,it)
  looked : ∀ key, g.looked key = it.bind fun e => if e.1 = key then some (some e.2) else none

/-- The views at the points where the threads' loops come round. -/
def Loop (S : Setting) : Tid → Ctl → View → Prop
  | .atm i, .parser_file todo, g => g = .home todo ∧ todo <:+ S.files i
  | .accounts_print, .accounts_status_print, g => g = .home []
  | .accounts_print, .print_accounts it, g => ∃ done rows, Passing .writing done it g ∧ g.shown = some rows ∧
      rows.map (·.1) = done.map (·.2)
  | .fee_collection, .fee_collection, g => g = .home []
  | .fee_collection, .charge_accounts rate it, g => 1 ≤ rate ∧ rate ≤ 5 ∧ ∃ done, Passing .reading done it g
  | .main, .main _, g => g = .home []
  | _, .ended, g => g = .home []
  | _, _, _ => False

/-- The outline of the bank. -/
def outline (S : Setting) : Outline Tid Shared Act Res Ctl View where
  Inv := BankInvariant.Inv S
  Ok := Ok S
  Next _ := Next S
  Loop := Loop S

variable {S : Setting} {t : Tid} {g : View} {l : RwId} {r : Ref} {α : Type}

/-- An operation that the view permits, with every answer it may get. -/
theorem follows_one {a : Act} {Q : Res a → View → Prop} (ok : Ok S t g a) (next : ∀ x g', Next S g a x g' → Q x g') :
    (outline S).Follows t (.call a) g Q :=
  (follows_call a Q).mpr ⟨ok,next⟩

/-! ### Views at the points of a lock -/

@[simp] theorem put_phase_self {p : Phase} : (g.put l p).phase l = p := by simp [View.put]
@[simp] theorem put_put {p q : Phase} : (g.put l p).put l q = g.put l q := by simp [View.put]
@[simp] theorem put_list_account {p : Phase} : (g.put (.account r) p).phase .account_list = g.phase .account_list := by
  simp [View.put]
@[simp] theorem put_account_list {p : Phase} : (g.put .account_list p).phase (.account r) = g.phase (.account r) := by
  simp [View.put]
theorem put_other {p : Phase} {q : Ref} (other : q ≠ r) :
    (g.put (.account r) p).phase (.account q) = g.phase (.account q) := by
  simp [View.put,other]
theorem forget_put {p q : Phase} : ((g.put l p).forget l).put l q = (g.put l q).forget l := by
  cases l <;> simp [View.put,View.forget]
theorem forget_at {p : Phase} : ((g.put l p).forget l).phase l = p := by
  cases l <;> simp [View.forget]
/-- A thread that leaves the list and keeps nothing else. -/
theorem leave_home (quiet : g.Quiet) (transfer : g.transfer = false) (logging : g.logging = false)
    (settled : g.change = .none) : (g.put .account_list .idle).forget .account_list = .home g.todo := by
  have phases : (g.put .account_list .idle).phase = fun _ => .idle := by
    funext l
    cases l with
    | account_list => simp
    | account r => simpa using quiet r
  simp only [View.forget,View.home]
  rw [phases]
  simp [View.put,transfer,logging,settled]

theorem move_enter {m : Move} {p q : Phase} (at_l : g.phase l = p) (outside : p.inside = false) (next : p.next m = q) :
    g.move l m = g.put l q := by
  subst at_l next
  simp [View.move,outside]
theorem move_leave {m : Move} {p q : Phase} (at_l : g.phase l = p) (inside : p.inside = true) (next : p.next m = q)
    (leaves : q.inside = false) : g.move l m = (g.put l q).forget l := by
  subst at_l next
  simp [View.move,inside,leaves]
theorem move_on {m : Move} {p q : Phase} (outside : p.inside = false) (next : p.next m = q) :
    ((g.put l p).forget l).move l m = (g.put l q).forget l := by
  rw [move_enter forget_at outside next,forget_put]
/-- What is known of the counter does not matter to a move. -/
theorem move_known {m : Move} {k : Option (RwId × Int)} : View.move { g with known := k } l m = g.move l m := rfl

/-! ### The reader/writer locks -/

/-- Who may come as a reader may also take the write mutex for the readers. -/
private theorem reader_may_wait (ok : Ok S t g (.lock (.lock_read l))) :
    Ok S t (g.put l (.counted 1)) (.lock (.lock_write l)) := by
  cases l with
  | account_list =>
    obtain ⟨_,quiet,transfer,logging⟩ := ok
    exact ⟨.inr (by simp),fun r => by simpa using quiet r,transfer,logging⟩
  | account r =>
    obtain ⟨_,held,others,transfer,logging⟩ := ok
    refine ⟨.inr (.inl (by simp)),by simpa [View.Held] using held,fun q other => .inl ?_,logging⟩
    rw [put_other other]
    exact others q other

theorem follows_lock_for_read {Q : Unit → View → Prop} (idle : g.phase l = .idle)
    (ok : Ok S t g (.lock (.lock_read l))) (next : Q () (g.put l .reading)) :
    (outline S).Follows t (lock_for_read l) g Q := by
  refine follows_then (follows_one ok ?_)
  rintro _ _ rfl
  rw [move_enter (q := .arriving) idle rfl rfl]
  refine follows_then (follows_one (by simp [Ok,Phase.holdsRead]) ?_)
  rintro (n : Int) _ ⟨rfl,_⟩
  refine follows_then (follows_one ⟨n,rfl,.inl ⟨put_phase_self,rfl⟩⟩ ?_)
  rintro _ _ rfl
  rw [move_known,move_enter (q := .counted (n + 1)) put_phase_self rfl rfl,put_put]
  refine follows_then (follows_one (by simp [Ok,Phase.holdsRead]) ?_)
  rintro (m : Int) _ ⟨rfl,same⟩
  have same : m = n + 1 := same (n + 1) (.inl put_phase_self)
  by_cases first : m = 1
  · rw [if_pos first]
    refine follows_then (follows_one ?_ ?_)
    · have may := reader_may_wait ok
      rw [← same,first]
      cases l <;> exact may
    rintro _ _ ⟨_,rfl⟩
    rw [move_known,move_enter (q := .admitted) put_phase_self rfl rfl,put_put]
    refine follows_one (.inr (.inl put_phase_self)) ?_
    rintro _ _ rfl
    rw [move_enter (q := .reading) put_phase_self rfl rfl,put_put]
    exact next
  · rw [if_neg first]
    refine follows_one (.inl ⟨n + 1,put_phase_self,by omega⟩) ?_
    rintro _ _ rfl
    rw [move_known,move_enter (q := .reading) put_phase_self rfl rfl,put_put]
    exact next

theorem follows_unlock_from_read {Q : Unit → View → Prop} (reads : g.phase l = .reading)
    (ok : Ok S t g (.lock (.lock_read l))) (next : Q () ((g.put l .idle).forget l)) :
    (outline S).Follows t (unlock_from_read l) g Q := by
  refine follows_then (follows_one ok ?_)
  rintro _ _ rfl
  rw [move_leave (q := .departing) reads rfl rfl rfl]
  refine follows_then (follows_one (by rw [Ok,forget_at]; rfl) ?_)
  rintro (n : Int) _ ⟨rfl,_⟩
  refine follows_then (follows_one ⟨n,rfl,.inr ⟨forget_at,rfl⟩⟩ ?_)
  rintro _ _ rfl
  rw [move_known,move_on (q := .discounted (n - 1)) rfl rfl]
  refine follows_then (follows_one (by rw [Ok,forget_at]; rfl) ?_)
  rintro (m : Int) _ ⟨rfl,same⟩
  have same : m = n - 1 := same (n - 1) (.inr forget_at)
  by_cases last : m = 0
  · rw [if_pos last]
    have at_l : ((g.put l (.discounted (n - 1))).forget l).phase l = .discounted 0 := by rw [forget_at,← same,last]
    refine follows_then (follows_one (by cases l <;> exact .inr at_l) ?_)
    rintro _ _ rfl
    rw [move_known,move_on (q := .released) rfl rfl]
    refine follows_one (.inr (.inr (.inr forget_at))) ?_
    rintro _ _ rfl
    rw [move_on (q := .idle) rfl rfl]
    exact next
  · rw [if_neg last]
    refine follows_one (.inr (.inr (.inl ⟨n - 1,forget_at,by omega⟩))) ?_
    rintro _ _ rfl
    rw [move_known,move_on (q := .idle) rfl rfl]
    exact next

theorem follows_lock_write {Q : Unit → View → Prop} (idle : g.phase l = .idle) (ok : Ok S t g (.lock (.lock_write l)))
    (next : Q () (g.put l .writing)) : (outline S).Follows t (pthread_mutex_lock (.lock_write l)) g Q := by
  refine follows_one ok ?_
  rintro _ _ ⟨_,rfl⟩
  rw [move_enter (q := .writing) idle rfl rfl]
  exact next
theorem follows_unlock_write {Q : Unit → View → Prop} (writes : g.phase l = .writing)
    (ok : Ok S t g (.unlock (.lock_write l))) (next : Q () ((g.put l .idle).forget l)) :
    (outline S).Follows t (pthread_mutex_unlock (.lock_write l)) g Q := by
  refine follows_one ok ?_
  rintro _ _ rfl
  rw [move_leave (q := .idle) writes rfl rfl rfl]
  exact next

/-! ### The sections of the operations -/

theorem follows_wait_for_writer {Q : Unit → View → Prop} (outside : g.Outside) (next : Q () g) :
    (outline S).Follows t wait_for_writer g Q := by
  refine follows_then (follows_one trivial ?_)
  rintro (flag : Bool) _ rfl
  cases flag with
  | true =>
    refine follows_one outside ?_
    rintro _ _ rfl
    exact next
  | false => exact next

theorem follows_lock_list_for_read {Q : Unit → View → Prop} (outside : g.Outside)
    (next : Q () (g.put .account_list .reading)) : (outline S).Follows t lock_account_list_for_read g Q := by
  obtain ⟨idle,quiet,transfer,logging⟩ := outside
  exact follows_lock_for_read idle ⟨.inl idle,quiet,transfer,logging⟩ next

theorem follows_unlock_list_from_read {Q : Unit → View → Prop} (reads : g.phase .account_list = .reading)
    (quiet : g.Quiet) (transfer : g.transfer = false) (logging : g.logging = false) (settled : g.change = .none)
    (next : Q () (.home g.todo)) : (outline S).Follows t unlock_account_list_from_read g Q := by
  refine follows_unlock_from_read reads ⟨.inr reads,quiet,transfer,logging⟩ ?_
  rw [leave_home quiet transfer logging settled]
  exact next

theorem follows_finish_writing {Q : Unit → View → Prop} (writes : g.phase .account_list = .writing) (quiet : g.Quiet)
    (transfer : g.transfer = false) (logging : g.logging = false) (settled : g.change = .none)
    (next : Q () (.home g.todo)) : (outline S).Follows t finish_writing g Q := by
  refine follows_then (follows_unlock_write writes (.inl ⟨writes,quiet,settled⟩) ?_)
  rw [leave_home quiet transfer logging settled]
  refine follows_then (follows_one trivial ?_)
  rintro _ _ rfl
  refine follows_one trivial ?_
  rintro _ _ rfl
  exact next

/-- No account's lock is half entered or half left. -/
def Steady (g : View) : Prop := ∀ r, g.phase (.account r) = .idle ∨ (g.phase (.account r)).inside = true

theorem commit_logging (logging : g.logging = false) :
    { View.commit { g with logging := true } with logging := false } = g.commit := by
  simp [View.commit,logging]

theorem follows_log_print {line : Line} {Q : Unit → View → Prop} (logging : g.logging = false) (held : g.Held)
    (steady : Steady g) (reports : View.Reports { g with logging := true } t line) (next : Q () g.commit) :
    (outline S).Follows t (log_print line) g Q := by
  refine follows_then (follows_one ⟨held,logging,steady⟩ ?_)
  rintro _ _ rfl
  refine follows_then (follows_one ⟨rfl,held,reports⟩ ?_)
  rintro _ _ rfl
  refine follows_one rfl ?_
  rintro _ _ rfl
  rw [commit_logging logging]
  exact next

/-! ### The maps and the accounts -/

theorem follows_find {id : Int} {Q : Option Ref → View → Prop} (held : g.Held) (settled : g.change = .none)
    (next : ∀ it, (∀ known, g.looked id = some known → it = known) →
      (∀ r, it = some r → ∀ key, g.looked key = some (some r) → key = id) →
      Q it { g with looked := Function.update g.looked id (some it) }) :
    (outline S).Follows t (find id) g Q := by
  refine follows_one ⟨held,settled⟩ ?_
  rintro it _ ⟨rfl,again,unique⟩
  exact next it again unique

/-- The `deleted` flag of an account looked up is never set. -/
theorem follows_deleted {id : Int} {Q : Bool → View → Prop} (looked : g.looked id = some (some r)) (next : Q false g) :
    (outline S).Follows t (deleted r) g Q := by
  refine follows_one ⟨id,looked⟩ ?_
  rintro flag _ ⟨rfl,rfl⟩
  exact next

theorem follows_vallid_password {password : String} {Q : Bool → View → Prop} (knows : g.Knows r)
    (next : ∀ own, Q (decide (own = password)) { g with pw := Function.update g.pw r (some own) }) :
    (outline S).Follows t (vallid_password r password) g Q := by
  refine follows_then (follows_one knows ?_)
  rintro own _ rfl
  exact next own

theorem follows_balance {Q : Int → View → Prop} (inside : (g.phase (.account r)).inside = true) (knows : g.Knows r)
    (unread : g.cell r = none)
    (next : ∀ c, (S.nonneg → 0 ≤ c) → Q c { g with cell := Function.update g.cell r (some (c,c)) }) :
    (outline S).Follows t (balance_of r) g Q := by
  refine follows_one ⟨inside,knows⟩ ?_
  rintro c _ ⟨amount,⟨a,read,_⟩ | ⟨_,rfl⟩⟩
  · rw [unread] at read; cases read
  · exact next c amount
theorem follows_balance_again {c a : Int} {Q : Int → View → Prop} (inside : (g.phase (.account r)).inside = true)
    (knows : g.Knows r) (read : g.cell r = some (c,a)) (next : (S.nonneg → 0 ≤ c) → Q c g) :
    (outline S).Follows t (balance_of r) g Q := by
  refine follows_one ⟨inside,knows⟩ ?_
  rintro v _ ⟨amount,⟨b,also,rfl⟩ | ⟨unread,_⟩⟩
  · rw [read] at also; cases also; exact next amount
  · rw [read] at unread; cases unread

theorem follows_set_balance {k v c a : Int} {Q : Unit → View → Prop} (may : t ≠ .accounts_print ∧ t ≠ .main)
    (writes : g.phase (.account r) = .writing) (reads : g.phase .account_list = .reading)
    (looked : g.looked k = some (some r)) (read : g.cell r = some (c,a))
    (amount : S.nonneg → 0 ≤ v) (next : Q () { g with cell := Function.update g.cell r (some (v,a)) }) :
    (outline S).Follows t (set_balance r v) g Q := by
  refine follows_one ⟨may,writes,reads,⟨k,looked⟩,⟨c,a,read⟩,amount⟩ ?_
  rintro _ _ ⟨c',a',also,rfl⟩
  rw [read] at also
  cases also
  exact next

end StructureOfOs.BankOutline
