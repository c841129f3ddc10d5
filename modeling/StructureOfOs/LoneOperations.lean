import StructureOfOs.Bank

/-!
An ATM's operation that runs by itself. On every way out each mutex that has been taken is
given back, and the reader counters are as before. The mutexes are not reentrant: a transfer
from an account to itself waits for the write mutex that it has taken for its source. Apart
from that only the screen's mutex can stop an operation, which readers take while the
writers' flag is set.
-/
namespace StructureOfOs.LoneOperations
open StructureOfOs.Programs StructureOfOs.Outlines StructureOfOs.BankState StructureOfOs.Accounts StructureOfOs.Atm

/-! ### What an operation needs of the state -/

/-- Which mutexes are taken, the reader counters, the writers' flag, and where ids are found. -/
structure View where
  held : Mutex → Bool
  readers : RwId → Int
  flag : Bool
  found : Int → Option Ref
attribute [ext] View
def view (s : Shared) : View :=
  ⟨fun m => (s.mutex m).isSome,fun l => (s.lock l).num_of_readers,s.accounts_print,s.map_of_accounts.find⟩

namespace View
def take (g : View) (m : Mutex) : View := { g with held := Function.update g.held m true }
def free (g : View) (m : Mutex) : View := { g with held := Function.update g.held m false }
def count (g : View) (l : RwId) (n : Int) : View := { g with readers := Function.update g.readers l n }
/-- One more reader; the first one has the write mutex taken. -/
def enter (g : View) (l : RwId) : View :=
  { g with
    held := Function.update g.held (.lock_write l) (decide (g.readers l = 0))
    readers := Function.update g.readers l (g.readers l + 1) }
/-- Only the screen's mutex may be taken. -/
def Idle (g : View) : Prop := ∀ m, m ≠ .stdout_print_lock → g.held m = false
end View

/-- A mutex is locked when it is free, and no thread is joined. -/
def Ok (g : View) : Act → Prop
  | .lock m => g.held m = false
  | .join _ => False
  | _ => True
def Next (g : View) : (a : Act) → Res a → View → Prop
  | .lock m, _, g' => g' = g.take m
  | .unlock m, _, g' => g' = g.free m
  | .readers l, n, g' => n = g.readers l ∧ g' = g
  | .set_readers l n, _, g' => g' = g.count l n
  | .accounts_print, flag, g' => flag = g.flag ∧ g' = g
  | .set_accounts_print flag, _, g' => g' = { g with flag := flag }
  | .find account_id, it, g' => it = g.found account_id ∧ g' = g
  | .insert _ _, _, g' => ∃ found, g' = { g with found := found }
  | .erase _, _, g' => ∃ found, g' = { g with found := found }
  | _, _, g' => g' = g
def lone : Outline Tid Shared Act Res Unit View where
  Inv s V := ∀ t, V t = view s
  Ok _ g a := Ok g a
  Next _ g a r g' := Next g a r g'
  Loop _ _ _ := True

variable {t : Tid} {this : Nat} {s s' : Shared} {g g' : View} {m : Mutex} {l : RwId} {r src dest : Ref} {α β : Type}

theorem view_lock (s : Shared) (l : RwId) (x : RwLock.Lock Tid) : view { s with lock := Function.update s.lock l x } =
    { view s with
      held := Function.update (Function.update (view s).held (.lock_read l) x.lock_read.isSome) (.lock_write l) x.lock_write.isSome
      readers := Function.update (view s).readers l x.num_of_readers } := by
  refine View.ext (funext fun m => ?_) (funext fun k => ?_) rfl rfl
  · cases m with
    | lock_read k =>
      by_cases same : k = l
      · subst same; simp [view,Shared.mutex]
      · simp [view,Shared.mutex,same]
    | lock_write k =>
      by_cases same : k = l
      · subst same; simp [view,Shared.mutex]
      · simp [view,Shared.mutex,same]
    | _ => simp [view,Shared.mutex]
  · by_cases same : k = l
    · subst same; simp [view]
    · simp [view,same]
theorem lock_move_view {move : RwLock.Move} (moved : s.move t l move = some ((),s')) :
    view s' = match move with
      | .lockRead => (view s).take (.lock_read l)
      | .unlockRead => (view s).free (.lock_read l)
      | .lockWrite => (view s).take (.lock_write l)
      | .unlockWrite => (view s).free (.lock_write l)
      | .setReaders n => (view s).count l n := by
  obtain ⟨x,lock_moved,same⟩ := Option.map_eq_some_iff.mp moved
  cases same
  have read : (s.lock l).lock_read.isSome = (view s).held (.lock_read l) := rfl
  have write : (s.lock l).lock_write.isSome = (view s).held (.lock_write l) := rfl
  have counted : (s.lock l).num_of_readers = (view s).readers l := rfl
  rw [view_lock]
  cases move with
  | lockRead =>
    obtain ⟨_,same⟩ := Option.ite_none_right_eq_some.mp lock_moved
    cases same
    simp [View.take,write,counted]
  | unlockRead =>
    cases lock_moved
    simp [View.free,write,counted]
  | lockWrite =>
    obtain ⟨_,same⟩ := Option.ite_none_right_eq_some.mp lock_moved
    cases same
    simp [View.take,read,counted]
  | unlockWrite =>
    cases lock_moved
    simp [View.free,read,counted]
  | setReaders n =>
    cases lock_moved
    simp [View.count,read,write]
theorem run_next {a : Act} {x : Res a} (ran : run t a s = some (x,s')) : Next (view s) a x (view s') := by
  cases a with
  | lock m =>
    cases m with
    | lock_read l => exact lock_move_view ran
    | lock_write l => exact lock_move_view ran
    | _ =>
      obtain ⟨_,same⟩ := Option.ite_none_right_eq_some.mp ran
      cases same
      refine View.ext (funext fun m => ?_) rfl rfl rfl
      cases m <;> simp [view,View.take,Shared.mutex]
  | unlock m =>
    cases m with
    | lock_read l => exact lock_move_view ran
    | lock_write l => exact lock_move_view ran
    | _ =>
      cases ran
      refine View.ext (funext fun m => ?_) rfl rfl rfl
      cases m <;> simp [view,View.free,Shared.mutex]
  | set_readers l n => exact lock_move_view ran
  | readers l => cases ran; exact ⟨rfl,rfl⟩
  | accounts_print => cases ran; exact ⟨rfl,rfl⟩
  | find account_id => cases ran; exact ⟨rfl,rfl⟩
  | insert account_id r => cases ran; exact ⟨_,rfl⟩
  | erase account_id => cases ran; exact ⟨_,rfl⟩
  | join u =>
    obtain ⟨_,same⟩ := Option.ite_none_right_eq_some.mp ran
    cases same
    rfl
  | _ => cases ran; rfl
theorem run_unblocked {a : Act} (ok : Ok (view s) a) : ∃ x s', run t a s = some (x,s') := by
  cases ran : run t a s with
  | some out => exact ⟨out.1,out.2,rfl⟩
  | none =>
    rcases run_blocked ran with ⟨m,u,rfl,taken⟩ | ⟨u,rfl⟩
    · have free : (s.mutex m).isSome = false := ok
      rw [taken] at free
      cases free
    · exact ok.elim
theorem progress {a : Act} (here : view s = g) (ok : Ok g a) :
    ∃ x s' g', run t a s = some (x,s') ∧ Next g a x g' ∧ view s' = g' := by
  subst here
  obtain ⟨x,s',ran⟩ := run_unblocked (t := t) ok
  exact ⟨x,s',view s',ran,run_next ran,rfl⟩
/-- A program that follows the outline runs to its end. -/
theorem lone_exec {p : Code α} {Q : α → View → Prop} (follows : lone.Follows t p (view s) Q) :
    ∃ value s', p.exec (run t) s = some (value,s') ∧ Q value (view s') := by
  have ends : ∃ value s' g', p.exec (run t) s = some (value,s') ∧ Q value g' ∧ view s' = g' :=
    follows_exec progress follows rfl
  obtain ⟨value,s',_,ran,post,rfl⟩ := ends
  exact ⟨value,s',ran,post⟩

/-! ### Operations, then the rest -/

theorem follows_one {a : Act} {Q : Res a → View → Prop} (ok : Ok g a) (next : ∀ x g', Next g a x g' → Q x g') :
    lone.Follows t (.call a) g Q :=
  (follows_call a Q).mpr ⟨ok,next⟩

theorem follows_lock {Q : Unit → View → Prop} (free : g.held m = false) (next : Q () (g.take m)) :
    lone.Follows t (pthread_mutex_lock m) g Q := by
  refine follows_one free ?_
  rintro _ _ rfl
  exact next
theorem follows_unlock {Q : Unit → View → Prop} (next : Q () (g.free m)) : lone.Follows t (pthread_mutex_unlock m) g Q := by
  refine follows_one trivial ?_
  rintro _ _ rfl
  exact next
theorem follows_readers {f : Int → Code α} {Q : α → View → Prop} (next : lone.Follows t (f (g.readers l)) g Q) :
    lone.Follows t (readers l >>= f) g Q := by
  refine follows_then (follows_one trivial ?_)
  rintro _ _ ⟨rfl,rfl⟩
  exact next
theorem follows_set_readers {n : Int} {f : Unit → Code α} {Q : α → View → Prop} (next : lone.Follows t (f ()) (g.count l n) Q) :
    lone.Follows t (set_readers l n >>= f) g Q := by
  refine follows_then (follows_one trivial ?_)
  rintro _ _ rfl
  exact next
theorem follows_find {account_id : Int} {f : Option Ref → Code α} {Q : α → View → Prop}
    (next : lone.Follows t (f (g.found account_id)) g Q) : lone.Follows t (find account_id >>= f) g Q := by
  refine follows_then (follows_one trivial ?_)
  rintro _ _ ⟨rfl,rfl⟩
  exact next
/-- An operation on data, whatever it answers. -/
theorem follows_data {a : Act} {f : Res a → Code α} {Q : α → View → Prop} (ok : Ok g a) (same : ∀ x g', Next g a x g' → g' = g)
    (next : ∀ x, lone.Follows t (f x) g Q) : lone.Follows t (.call a >>= f) g Q := by
  refine follows_then (follows_one ok fun x g' now => ?_)
  rw [same x g' now]
  exact next x

theorem free_take_other {m' : Mutex} (free : g.held m = false) (other : m' ≠ m) : ((g.take m).take m').free m = g.take m' := by
  simp only [View.take,View.free]
  rw [Function.update_comm other,Function.update_idem,← free,Function.update_eq_self]

/-! ### The reader/writer locks -/

theorem free_take (free : g.held m = false) : (g.take m).free m = g := by
  simp [View.take,View.free,← free]
/-- Views that differ at most in the mutexes of a lock. -/
theorem same_at (l : RwId) (read : g.held (.lock_read l) = g'.held (.lock_read l))
    (write : g.held (.lock_write l) = g'.held (.lock_write l))
    (others : ∀ m, m ≠ .lock_read l → m ≠ .lock_write l → g.held m = g'.held m) (readers : g.readers = g'.readers)
    (flag : g.flag = g'.flag) (found : g.found = g'.found) : g = g' := by
  refine View.ext (funext fun m => ?_) readers flag found
  by_cases at_read : m = .lock_read l
  · rw [at_read]; exact read
  · by_cases at_write : m = .lock_write l
    · rw [at_write]; exact write
    · exact others m at_read at_write
theorem follows_lock_for_read {Q : Unit → View → Prop} (read : g.held (.lock_read l) = false) (write : g.held (.lock_write l) = false)
    (next : Q () (g.enter l)) : lone.Follows t (lock_for_read l) g Q := by
  refine follows_then (follows_lock read (follows_readers (follows_set_readers (follows_readers ?_))))
  have counted : ((g.take (.lock_read l)).count l ((g.take (.lock_read l)).readers l + 1)).readers l = g.readers l + 1 := by
    simp [View.take,View.count]
  rw [counted]
  by_cases first : g.readers l = 0
  · rw [if_pos (by omega)]
    refine follows_then (follows_lock (by simpa [View.take,View.count] using write) (follows_unlock ?_))
    have entered : View.free (View.take (View.count (g.take (.lock_read l)) l (g.readers l + 1)) (.lock_write l)) (.lock_read l) =
        g.enter l := by
      refine same_at l ?_ ?_ (fun m at_read at_write => ?_) rfl rfl rfl
      · simp [View.take,View.free,View.count,View.enter,read]
      · simp [View.take,View.free,View.count,View.enter,first]
      · simp [View.take,View.free,View.count,View.enter,at_read,at_write]
    rw [← entered] at next
    exact next
  · rw [if_neg (by omega)]
    refine follows_unlock ?_
    have entered : View.free (View.count (g.take (.lock_read l)) l (g.readers l + 1)) (.lock_read l) = g.enter l := by
      refine same_at l ?_ ?_ (fun m at_read at_write => ?_) rfl rfl rfl
      · simp [View.take,View.free,View.count,View.enter,read]
      · simp [View.take,View.free,View.count,View.enter,first,write]
      · simp [View.take,View.free,View.count,View.enter,at_read,at_write]
    rw [← entered] at next
    exact next
theorem follows_unlock_from_read {Q : Unit → View → Prop} (read : g.held (.lock_read l) = false) (write : g.held (.lock_write l) = false)
    (next : Q () g) : lone.Follows t (unlock_from_read l) (g.enter l) Q := by
  have outside : (g.enter l).held (.lock_read l) = false := by simpa [View.enter] using read
  refine follows_then (follows_lock outside (follows_readers (follows_set_readers (follows_readers ?_))))
  have counted : (((g.enter l).take (.lock_read l)).count l (((g.enter l).take (.lock_read l)).readers l - 1)).readers l =
      g.readers l := by
    simp [View.take,View.count,View.enter]
  rw [counted]
  by_cases last : g.readers l = 0
  · rw [if_pos last]
    refine follows_then (follows_unlock (follows_unlock ?_))
    have left : View.free (View.free (View.count ((g.enter l).take (.lock_read l)) l
        (((g.enter l).take (.lock_read l)).readers l - 1)) (.lock_write l)) (.lock_read l) = g := by
      refine same_at l ?_ ?_ (fun m at_read at_write => ?_) ?_ rfl rfl
      · simp [View.take,View.free,View.count,View.enter,read]
      · simp [View.take,View.free,View.count,View.enter,write]
      · simp [View.take,View.free,View.count,View.enter,at_read,at_write]
      · simp [View.take,View.free,View.count,View.enter]
    rw [left]
    exact next
  · rw [if_neg last]
    refine follows_unlock ?_
    have left : View.free (View.count ((g.enter l).take (.lock_read l)) l (((g.enter l).take (.lock_read l)).readers l - 1))
        (.lock_read l) = g := by
      refine same_at l ?_ ?_ (fun m at_read at_write => ?_) ?_ rfl rfl
      · simp [View.take,View.free,View.count,View.enter,read]
      · simp [View.take,View.free,View.count,View.enter,last,write]
      · simp [View.take,View.free,View.count,View.enter,at_read,at_write]
      · simp [View.take,View.free,View.count,View.enter]
    rw [left]
    exact next

/-! ### The operations -/

theorem follows_log_print {line : Line} {f : Unit → Code α} {Q : α → View → Prop} (free : g.held .log_print_lock = false)
    (next : lone.Follows t (f ()) g Q) : lone.Follows t (log_print line >>= f) g Q := by
  refine follows_then (follows_then (follows_lock free (follows_data trivial (fun _ _ same => same) fun _ => follows_unlock ?_)))
  rw [free_take free]
  exact next
/-- The screen's mutex is free or not asked for. -/
def Unhindered (g : View) : Prop := g.flag = true → g.held .stdout_print_lock = false
/-- Back outside, with the counters as they were. -/
def Done (readers : RwId → Int) (g : View) : Prop := g.Idle ∧ g.readers = readers

theorem follows_wait_for_writer {Q : Unit → View → Prop} (idle : g.Idle) (unhindered : Unhindered g)
    (next : ∀ g', g'.Idle → g'.readers = g.readers → g'.found = g.found → Q () g') : lone.Follows t wait_for_writer g Q := by
  refine follows_then (follows_one trivial ?_)
  rintro flag g' ⟨rfl,same⟩
  rw [same]
  cases asked : g.flag with
  | false => exact next g idle rfl rfl
  | true =>
    refine follows_lock (unhindered asked) (next _ (fun m other => ?_) rfl rfl)
    simpa [View.take,other] using idle m other
theorem follows_finish_writing {readers : RwId → Int} (idle : g.Idle) (same : g.readers = readers) :
    lone.Follows t finish_writing (g.take (.lock_write .account_list)) fun _ g' => Done readers g' := by
  refine follows_then (follows_unlock ?_)
  rw [free_take (idle _ (by simp))]
  refine follows_then (follows_one trivial ?_)
  rintro _ _ rfl
  refine follows_unlock ⟨fun m other => ?_,same⟩
  simpa [View.free,other] using idle m other

/-- The way out of an account that has been locked for writing. -/
theorem follows_leave_write {Q : Unit → View → Prop} (idle : g.Idle) (next : Q () g) :
    lone.Follows t (do unlock_from_write r; unlock_account_list_from_read)
      ((g.enter .account_list).take (.lock_write (.account r))) Q := by
  refine follows_then (follows_unlock ?_)
  rw [free_take (by simpa [View.enter] using idle (.lock_write (.account r)) (by simp))]
  exact follows_unlock_from_read (idle _ (by simp)) (idle _ (by simp)) next
theorem follows_leave_read {Q : Unit → View → Prop} (idle : g.Idle) (next : Q () g) :
    lone.Follows t (do unlock_account_from_read r; unlock_account_list_from_read)
      ((g.enter .account_list).enter (.account r)) Q := by
  have read : (g.enter .account_list).held (.lock_read (.account r)) = false := by
    simpa [View.enter] using idle (.lock_read (.account r)) (by simp)
  have write : (g.enter .account_list).held (.lock_write (.account r)) = false := by
    simpa [View.enter] using idle (.lock_write (.account r)) (by simp)
  refine follows_then (follows_unlock_from_read read write ?_)
  exact follows_unlock_from_read (idle _ (by simp)) (idle _ (by simp)) next
/-- An operation on the data of an account and a line of the log, under the log's mutex. -/
theorem follows_log_balance {line : Int → Line} {f : Unit → Code α} {Q : α → View → Prop} (free : g.held .log_print_lock = false)
    (next : lone.Follows t (f ()) g Q) : lone.Follows t (do
      pthread_mutex_lock .log_print_lock
      let balance ← balance_of r
      .call (Act.log (line balance))
      pthread_mutex_unlock .log_print_lock >>= f) g Q := by
  refine follows_then (follows_lock free (follows_data trivial (fun _ _ same => same) fun _ => ?_))
  refine follows_data trivial (fun _ _ same => same) fun _ => ?_
  refine follows_then (follows_unlock ?_)
  rw [free_take free]
  exact next
theorem follows_vallid_password {password : String} {f : Bool → Code α} {Q : α → View → Prop}
    (next : ∀ valid, lone.Follows t (f valid) g Q) : lone.Follows t (vallid_password r password >>= f) g Q :=
  follows_then (follows_data trivial (fun _ _ same => same) fun _ => next _)
theorem follows_withdrawl {amount : Int} {f : Bool → Code α} {Q : α → View → Prop} (next : ∀ enough, lone.Follows t (f enough) g Q) :
    lone.Follows t (withdrawl r amount >>= f) g Q := by
  refine follows_then (follows_data trivial (fun _ _ same => same) fun balance => ?_)
  split
  · exact next false
  · exact follows_data trivial (fun _ _ same => same) fun _ => follows_data trivial (fun _ _ same => same) fun _ => next true

/-- In the list, only its write mutex may be taken besides. -/
theorem inside_free (idle : g.Idle) (other : m ≠ .lock_write .account_list) (screen : m ≠ .stdout_print_lock) :
    (g.enter .account_list).held m = false := by
  simpa [View.enter,other] using idle m screen
theorem take_other {m' : Mutex} (free : g.held m = false) (other : m ≠ m') : (g.take m').held m = false := by
  simpa [View.take,other] using free

variable {account_id amount : Int} {password : String}

/-- The way of a reader of the list to the account it asks for. -/
theorem follows_look_up {id : Int} {f : Option Ref → Code Unit} {Q : Unit → View → Prop} (idle : g.Idle) (unhindered : Unhindered g)
    (next : ∀ h : View, h.Idle → h.readers = g.readers → ∀ it, lone.Follows t (f it) (h.enter .account_list) Q) :
    lone.Follows t (do wait_for_writer; lock_account_list_for_read; find id >>= f) g Q := by
  refine follows_then (follows_wait_for_writer idle unhindered fun h idle' same _ => ?_)
  exact follows_then (follows_lock_for_read (idle' _ (by simp)) (idle' _ (by simp)) (follows_find (next h idle' same _)))
/-- What is checked once an account's lock is there. Both refusals go out the same way. -/
theorem follows_checked {absent refused : Line} {p out : Code Unit} {Q : Unit → View → Prop} (log : g.held .log_print_lock = false)
    (leave : lone.Follows t out g Q) (allowed : lone.Follows t p g Q) : lone.Follows t (do
      if ← deleted r then
        log_print absent
        out
      else if ← vallid_password r password then
        p
      else
        log_print refused
        out) g Q := by
  refine follows_data trivial (fun _ _ same => same) fun gone => ?_
  split
  · exact follows_log_print log leave
  · refine follows_vallid_password fun valid => ?_
    split
    · exact allowed
    · exact follows_log_print log leave

theorem follows_deposit_to_account (idle : g.Idle) (unhindered : Unhindered g) :
    lone.Follows t (deposit_to_account this account_id password amount) g fun _ g' => Done g.readers g' := by
  refine follows_look_up idle unhindered fun h idle' same it => ?_
  have log : (h.enter .account_list).held .log_print_lock = false := inside_free idle' (by simp) (by simp)
  cases it with
  | none => exact follows_log_print log (follows_unlock_from_read (idle' _ (by simp)) (idle' _ (by simp)) ⟨idle',same⟩)
  | some r =>
    refine follows_then (follows_lock (inside_free idle' (by simp) (by simp)) ?_)
    have log' : ((h.enter .account_list).take (.lock_write (.account r))).held .log_print_lock = false :=
      take_other log (by simp)
    refine follows_checked log' (follows_leave_write idle' ⟨idle',same⟩) ?_
    refine follows_then (follows_data trivial (fun _ _ same => same) fun _ => follows_one trivial ?_)
    rintro _ _ rfl
    exact follows_log_balance log' (follows_leave_write idle' ⟨idle',same⟩)
theorem follows_withdrawl_from_account (idle : g.Idle) (unhindered : Unhindered g) :
    lone.Follows t (withdrawl_from_account this account_id password amount) g fun _ g' => Done g.readers g' := by
  refine follows_look_up idle unhindered fun h idle' same it => ?_
  have log : (h.enter .account_list).held .log_print_lock = false := inside_free idle' (by simp) (by simp)
  cases it with
  | none => exact follows_log_print log (follows_unlock_from_read (idle' _ (by simp)) (idle' _ (by simp)) ⟨idle',same⟩)
  | some r =>
    refine follows_then (follows_lock (inside_free idle' (by simp) (by simp)) ?_)
    have log' : ((h.enter .account_list).take (.lock_write (.account r))).held .log_print_lock = false :=
      take_other log (by simp)
    refine follows_checked log' (follows_leave_write idle' ⟨idle',same⟩) (follows_withdrawl fun enough => ?_)
    split
    · exact follows_log_balance log' (follows_leave_write idle' ⟨idle',same⟩)
    · exact follows_log_print log' (follows_leave_write idle' ⟨idle',same⟩)
theorem follows_balance_check (idle : g.Idle) (unhindered : Unhindered g) :
    lone.Follows t (balance_check this account_id password) g fun _ g' => Done g.readers g' := by
  refine follows_look_up idle unhindered fun h idle' same it => ?_
  have log : (h.enter .account_list).held .log_print_lock = false := inside_free idle' (by simp) (by simp)
  cases it with
  | none => exact follows_log_print log (follows_unlock_from_read (idle' _ (by simp)) (idle' _ (by simp)) ⟨idle',same⟩)
  | some r =>
    refine follows_then (follows_lock_for_read (inside_free idle' (by simp) (by simp)) (inside_free idle' (by simp) (by simp)) ?_)
    have log' : ((h.enter .account_list).enter (.account r)).held .log_print_lock = false := by
      simpa [View.enter] using log
    have leave := follows_leave_read (t := t) (r := r) idle' (Q := fun _ g' => Done g.readers g') ⟨idle',same⟩
    exact follows_checked log' leave (follows_log_balance log' leave)

/-! ### The writers of the list -/

theorem follows_does_not_exsit {it : Option Ref} {f : Bool → Code α} {Q : α → View → Prop}
    (next : ∀ missing, lone.Follows t (f missing) g Q) : lone.Follows t (does_not_exsit it >>= f) g Q := by
  cases it with
  | none => exact next true
  | some r => exact follows_data (a := .deleted r) trivial (fun _ _ same => same) next
/-- The end of a writer that has an account's lock. -/
theorem follows_leave_list {readers : RwId → Int} (idle : g.Idle) (same : g.readers = readers) :
    lone.Follows t (do unlock_from_write r; finish_writing)
      ((g.take (.lock_write .account_list)).take (.lock_write (.account r))) fun _ g' => Done readers g' := by
  refine follows_then (follows_unlock ?_)
  rw [free_take (take_other (idle _ (by simp)) (by simp))]
  exact follows_finish_writing idle same
theorem follows_create_account (idle : g.Idle) :
    lone.Follows t (create_account this account_id password amount) g fun _ g' => Done g.readers g' := by
  refine follows_then (follows_one trivial ?_)
  rintro _ _ rfl
  refine follows_then (follows_lock (idle _ (by simp)) (follows_find (follows_does_not_exsit fun missing => ?_)))
  split
  · refine follows_data trivial (fun _ _ same => same) fun r => follows_then (follows_lock (take_other (idle _ (by simp)) (by simp)) ?_)
    refine follows_then (follows_one trivial ?_)
    rintro _ _ ⟨found,rfl⟩
    have idle' : View.Idle { g with flag := true, found := found } := idle
    exact follows_log_print (take_other (take_other (idle' _ (by simp)) (by simp)) (by simp)) (follows_leave_list idle' rfl)
  · have idle' : View.Idle { g with flag := true } := idle
    exact follows_log_print (take_other (idle' _ (by simp)) (by simp)) (follows_finish_writing idle' rfl)
theorem follows_closing_account (idle : g.Idle) :
    lone.Follows t (closing_account this account_id password) g fun _ g' => Done g.readers g' := by
  refine follows_then (follows_one trivial ?_)
  rintro _ _ rfl
  have idle' : View.Idle { g with flag := true } := idle
  have log : (View.take { g with flag := true } (.lock_write .account_list)).held .log_print_lock = false :=
    take_other (idle' _ (by simp)) (by simp)
  refine follows_then (follows_lock (idle _ (by simp)) (follows_find ?_))
  cases (View.take { g with flag := true } (.lock_write .account_list)).found account_id with
  | none => exact follows_log_print log (follows_finish_writing idle' rfl)
  | some r =>
    refine follows_then (follows_lock (take_other (idle' _ (by simp)) (by simp)) ?_)
    have log' : View.held (View.take (View.take { g with flag := true } (.lock_write .account_list)) (.lock_write (.account r)))
        .log_print_lock = false :=
      take_other log (by simp)
    refine follows_checked log' (follows_leave_list idle' rfl) (follows_data trivial (fun _ _ same => same) fun id => ?_)
    refine follows_data trivial (fun _ _ same => same) fun _ => follows_data trivial (fun _ _ same => same) fun _ => ?_
    refine follows_then (follows_one trivial ?_)
    rintro _ _ ⟨found,rfl⟩
    have idle'' : View.Idle { g with flag := true, found := found } := idle
    exact follows_log_balance (take_other (take_other (idle'' _ (by simp)) (by simp)) (by simp)) (follows_leave_list idle'' rfl)

/-! ### Transfers -/

theorem follows_either_deleted {f : Bool → Code α} {Q : α → View → Prop} (next : ∀ gone, lone.Follows t (f gone) g Q) :
    lone.Follows t (either_deleted src dest >>= f) g Q := by
  refine follows_then (follows_data trivial (fun _ _ same => same) fun gone => ?_)
  split
  · exact next true
  · exact follows_one (a := .deleted dest) trivial (by rintro gone _ rfl; exact next gone)
/-- In the list, with the transfers' mutex. -/
def transferring (g : View) : View := (g.enter .account_list).take .transfer_lock
theorem follows_leave_transfer {Q : Unit → View → Prop} (idle : g.Idle) (next : Q () g) :
    lone.Follows t (do pthread_mutex_unlock .transfer_lock; unlock_account_list_from_read) (transferring g) Q := by
  refine follows_then (follows_unlock ?_)
  rw [transferring,free_take (inside_free idle (by simp) (by simp))]
  exact follows_unlock_from_read (idle _ (by simp)) (idle _ (by simp)) next
theorem follows_finish_transfer {Q : Unit → View → Prop} (idle : g.Idle) (apart : src ≠ dest) (next : Q () g) :
    lone.Follows t (finish_transfer src dest)
      (((transferring g).take (.lock_write (.account src))).take (.lock_write (.account dest))) Q := by
  have free : ∀ r, (transferring g).held (.lock_write (.account r)) = false :=
    fun r => take_other (inside_free idle (by simp) (by simp)) (by simp)
  refine follows_then (follows_unlock (follows_then (follows_unlock ?_)))
  rw [free_take_other (free src) (by simpa using apart.symm),free_take (free dest)]
  exact follows_leave_transfer idle next
theorem follows_transfer_between_accounts {src_id dest_id : Int} (idle : g.Idle) (unhindered : Unhindered g)
    (apart : ∀ r, ¬ (g.found src_id = some r ∧ g.found dest_id = some r)) :
    lone.Follows t (transfer_between_accounts this src_id password dest_id amount) g fun _ g' => Done g.readers g' := by
  refine follows_then (follows_wait_for_writer idle unhindered fun h idle' same found => ?_)
  refine follows_then (follows_lock_for_read (idle' _ (by simp)) (idle' _ (by simp)) ?_)
  refine follows_then (follows_lock (inside_free idle' (by simp) (by simp)) (follows_find (follows_find ?_)))
  have log : (transferring h).held .log_print_lock = false := take_other (inside_free idle' (by simp) (by simp)) (by simp)
  have looked : View.found (View.take (h.enter .account_list) .transfer_lock) = g.found := found
  rw [looked]
  change lone.Follows t _ (transferring h) _
  split
  · exact follows_log_print log (follows_leave_transfer idle' ⟨idle',same⟩)
  · exact follows_log_print log (follows_leave_transfer idle' ⟨idle',same⟩)
  · rename_i src dest at_src at_dest
    have apart' : src ≠ dest := fun same_ref => apart src ⟨at_src,by rw [same_ref]; exact at_dest⟩
    have free : ∀ r, (transferring h).held (.lock_write (.account r)) = false :=
      fun r => take_other (inside_free idle' (by simp) (by simp)) (by simp)
    refine follows_then (follows_lock (free src) (follows_then (follows_lock (take_other (free dest) (by simpa using apart'.symm)) ?_)))
    have log' : (((transferring h).take (.lock_write (.account src))).take (.lock_write (.account dest))).held .log_print_lock = false :=
      take_other (take_other log (by simp)) (by simp)
    have out := follows_finish_transfer (t := t) idle' apart' (Q := fun _ g' => Done g.readers g') ⟨idle',same⟩
    refine follows_either_deleted fun gone => ?_
    split
    · refine follows_data trivial (fun _ _ same => same) fun gone' => ?_
      split
      · exact follows_log_print log' out
      · exact follows_log_print log' out
    · refine follows_vallid_password fun valid => ?_
      split
      · refine follows_withdrawl fun enough => ?_
        split
        · refine follows_data trivial (fun _ _ same => same) fun balance => follows_data trivial (fun _ _ same => same) fun _ => ?_
          refine follows_then (follows_lock log' (follows_data trivial (fun _ _ same => same) fun a => ?_))
          refine follows_data trivial (fun _ _ same => same) fun b => ?_
          refine follows_data trivial (fun _ _ same => same) fun _ => follows_then (follows_unlock ?_)
          rw [free_take log']
          exact out
        · exact follows_log_print log' out
      · exact follows_log_print log' out

/-! ### Operations that are never done -/

/-- From a state with this view the program comes to a mutex that is taken. -/
def Stuck (t : Tid) (p : Code α) (g : View) : Prop := ∀ s, view s = g → p.exec (run t) s = none
theorem stuck_lock {f : Unit → Code α} (taken : g.held m = true) : Stuck t (pthread_mutex_lock m >>= f) g := by
  rintro s rfl
  obtain ⟨u,has⟩ := Option.isSome_iff_exists.mp taken
  have blocked : run t (.lock m) s = none := by
    cases m <;> simp_all [run,Shared.move,RwLock.Lock.move,Shared.mutex]
  rw [Prog.exec_bind,Prog.exec_call,blocked]
  rfl
theorem stuck_then {p : Code α} {f : α → Code β} {Q : α → View → Prop} (first : lone.Follows t p g Q)
    (rest : ∀ value g', Q value g' → Stuck t (f value) g') : Stuck t (p >>= f) g := by
  rintro s rfl
  obtain ⟨value,s',ran,post⟩ := lone_exec first
  rw [Prog.exec_bind,ran]
  exact rest value _ post s' rfl
theorem stuck_bind {p : Code α} {f : α → Code β} (stuck : Stuck t p g) : Stuck t (p >>= f) g := by
  intro s here
  rw [Prog.exec_bind,stuck s here]
  rfl
/-- The writers' flag is set, and the screen's mutex taken. -/
theorem stuck_screen (hindered : ¬ Unhindered g) : Stuck t wait_for_writer g := by
  obtain ⟨flag,taken⟩ := Classical.not_imp.mp hindered
  refine stuck_then (Q := fun x g' => x = g.flag ∧ g' = g) (follows_one trivial fun _ _ => id) ?_
  rintro _ _ ⟨rfl,rfl⟩
  rw [flag]
  exact stuck_lock (f := .ret) (by simpa using taken)
/-- A transfer that finds one account under both ids. -/
theorem stuck_transfer {src_id dest_id : Int} (idle : g.Idle) (unhindered : Unhindered g) (at_src : g.found src_id = some r)
    (at_dest : g.found dest_id = some r) : Stuck t (transfer_between_accounts this src_id password dest_id amount) g := by
  refine stuck_then (Q := fun _ h => h.Idle ∧ h.found = g.found)
    (follows_wait_for_writer idle unhindered fun h idle' _ found => ⟨idle',found⟩) ?_
  rintro _ h ⟨idle',found⟩
  refine stuck_then (Q := fun _ k => k = h.enter .account_list) (follows_lock_for_read (idle' _ (by simp)) (idle' _ (by simp)) rfl) ?_
  rintro _ _ rfl
  refine stuck_then (Q := fun _ k => k = transferring h) (follows_lock (inside_free idle' (by simp) (by simp)) rfl) ?_
  rintro _ _ rfl
  have looked : (transferring h).found = g.found := found
  have here : ∀ {id}, g.found id = some r →
      lone.Follows t (find id) (transferring h) fun it k => it = some r ∧ k = transferring h := by
    intro id at_id
    refine follows_one trivial ?_
    rintro it k ⟨same,same'⟩
    exact ⟨by rw [same,looked,at_id],same'⟩
  refine stuck_then (here at_src) ?_
  rintro _ _ ⟨rfl,rfl⟩
  refine stuck_then (here at_dest) ?_
  rintro _ _ ⟨rfl,rfl⟩
  have free : (transferring h).held (.lock_write (.account r)) = false := take_other (inside_free idle' (by simp) (by simp)) (by simp)
  refine stuck_then (Q := fun _ k => k = (transferring h).take (.lock_write (.account r))) (follows_lock free rfl) ?_
  rintro _ _ rfl
  exact stuck_lock (by simp [View.take])

/-! ### Every operation -/

/-- The operation reads the list, so it asks for the screen's mutex when the writers' flag is set. -/
def ReadsList : Command → Prop
  | .create_account .. => False
  | .closing_account .. => False
  | _ => True
/-- The operation asks for the screen's mutex, and it is taken. -/
def Hindered (s : Shared) (command : Command) : Prop :=
  ReadsList command ∧ s.accounts_print = true ∧ s.stdout_print_lock ≠ none
/-- A transfer whose two ids are found at one account: its source is its destination. -/
def ToItself (s : Shared) : Command → Prop
  | .transfer_between_accounts src_id _ dest_id _ => ∃ r, s.map_of_accounts.find src_id = some r ∧ s.map_of_accounts.find dest_id = some r
  | _ => False
/-- No thread has a mutex of the list, of an account, of the transfers or of the log. -/
def Free (s : Shared) : Prop := ∀ m, m ≠ .stdout_print_lock → s.mutex m = none
/-- Run by itself, the operation ends; these mutexes are free again, and every counter is as before. -/
def Finishes (this : Nat) (command : Command) (s : Shared) : Prop :=
  ∃ s', (perform this command).exec (run (.atm this)) s = some ((),s') ∧ Free s' ∧
    ∀ l, (s'.lock l).num_of_readers = (s.lock l).num_of_readers

theorem free_idle (free : Free s) : (view s).Idle := by
  intro m other
  simp [view,free m other]
theorem hindered_iff {command : Command} : Hindered s command ↔ ReadsList command ∧ ¬ Unhindered (view s) := by
  simp [Hindered,Unhindered,view,Shared.mutex]
theorem follows_perform {command : Command} (idle : (view s).Idle) (unhindered : ¬ Hindered s command) (apart : ¬ ToItself s command) :
    lone.Follows t (perform this command) (view s) fun _ g' => Done (view s).readers g' := by
  rw [hindered_iff] at unhindered
  cases command with
  | create_account account_id password balance => exact follows_create_account idle
  | closing_account account_id password => exact follows_closing_account idle
  | deposit_to_account account_id password amount =>
    exact follows_deposit_to_account idle (by_contra fun hindered => unhindered ⟨trivial,hindered⟩)
  | withdrawl_from_account account_id password amount =>
    exact follows_withdrawl_from_account idle (by_contra fun hindered => unhindered ⟨trivial,hindered⟩)
  | balance_check account_id password =>
    exact follows_balance_check idle (by_contra fun hindered => unhindered ⟨trivial,hindered⟩)
  | transfer_between_accounts src_id pw dest_id n =>
    exact follows_transfer_between_accounts idle (by_contra fun hindered => unhindered ⟨trivial,hindered⟩) fun r both => apart ⟨r,both⟩
theorem stuck_perform {command : Command} (idle : (view s).Idle) (unable : Hindered s command ∨ ToItself s command) :
    (perform this command).exec (run t) s = none := by
  have screen : Hindered s command → Stuck t wait_for_writer (view s) :=
    fun hindered => stuck_screen (hindered_iff.mp hindered).2
  cases command with
  | create_account => exact unable.elim (fun hindered => hindered.1.elim) False.elim
  | closing_account => exact unable.elim (fun hindered => hindered.1.elim) False.elim
  | deposit_to_account => exact unable.elim (fun hindered => stuck_bind (screen hindered) s rfl) False.elim
  | withdrawl_from_account => exact unable.elim (fun hindered => stuck_bind (screen hindered) s rfl) False.elim
  | balance_check => exact unable.elim (fun hindered => stuck_bind (screen hindered) s rfl) False.elim
  | transfer_between_accounts src_id pw dest_id n =>
    by_cases hindered : Hindered s (.transfer_between_accounts src_id pw dest_id n)
    · exact stuck_bind (screen hindered) s rfl
    · obtain ⟨r,at_src,at_dest⟩ := unable.resolve_left hindered
      have unhindered : Unhindered (view s) := by_contra fun held => hindered (hindered_iff.mpr ⟨trivial,held⟩)
      exact stuck_transfer idle unhindered at_src at_dest s rfl

/-- Run by itself from a state in which these mutexes are free, every operation ends and gives
    back what it has taken, except a transfer from an account to itself, and a reader of the list
    that has to wait for the screen's mutex. -/
theorem lone_operation_iff (this : Nat) (command : Command) (s : Shared) (free : Free s) :
    Finishes this command s ↔ ¬ ToItself s command ∧ ¬ Hindered s command := by
  constructor
  · rintro ⟨s',ran,_⟩
    have done : ∀ {unable : Prop}, (unable → (perform this command).exec (run (.atm this)) s = none) → ¬ unable := by
      intro unable stuck holds
      rw [stuck holds] at ran
      cases ran
    exact ⟨done fun itself => stuck_perform (free_idle free) (.inr itself),
      done fun hindered => stuck_perform (free_idle free) (.inl hindered)⟩
  · rintro ⟨apart,unhindered⟩
    have follows : lone.Follows (.atm this) (perform this command) (view s) fun _ g' => Done (view s).readers g' :=
      follows_perform (free_idle free) unhindered apart
    obtain ⟨_,s',ran,idle,readers⟩ := lone_exec follows
    refine ⟨s',ran,fun m other => ?_,fun l => congrFun readers l⟩
    have unheld := idle m other
    simpa [view] using unheld
/-- So it comes to its end when only its thread is scheduled. -/
theorem finishes_runs {n this : Nat} {command : Command} {c : Bank.Config} {f : Unit → Code Bank.Ctl}
    (finishes : Finishes this command c.shared)
    (left : (c.thread (.atm this)).prog = perform this command >>= f) :
    ∃ k d, (Bank.bank n).runs (List.replicate k (.atm this)) c = some d ∧ (d.thread (.atm this)).prog = f () ∧ Free d.shared := by
  obtain ⟨s',ran,free,_⟩ := finishes
  obtain ⟨k,ends⟩ := exec_runs (M := Bank.bank n) left ran
  exact ⟨k,_,ends,by simp,free⟩

/-- One account, and nothing is locked. -/
def one_account : Shared :=
  { Shared.initial (fun _ => 0) with
    account := fun _ => ⟨1,5,"p",false⟩
    allocated := 1
    map_of_accounts := OrdMap.empty.insert 1 0 }
theorem transfer_to_itself_stuck : ¬ ∀ this command s, Free s → Finishes this command s := by
  intro claimed
  have free : Free one_account := by
    intro m other
    cases m <;> rfl
  obtain ⟨s',ran,_⟩ := claimed 1 (.transfer_between_accounts 1 "p" 1 1) one_account free
  have itself : ToItself one_account (.transfer_between_accounts 1 "p" 1 1) := ⟨0,by decide,by decide⟩
  rw [stuck_perform (free_idle free) (.inr itself)] at ran
  cases ran

theorem lone_operation_iff_deposit : Finishes 1 (.deposit_to_account 1 "p" 1) one_account :=
  (lone_operation_iff 1 (.deposit_to_account 1 "p" 1) one_account (by intro m other; cases m <;> rfl)).mpr
    ⟨id,fun hindered => Bool.false_ne_true hindered.2.1⟩

end StructureOfOs.LoneOperations
