import StructureOfOs.Bank

/-!
The gate in front of the readers of the account list: "if a writer wants to write
in map_of_acounts -> go to sleep". A reader that finds `accounts_print` set locks
`stdout_print_lock`, which the writers only unlock. Every program keeps to the gate
(`gated`): what a reader does after the flag, and what a writer does before it
unlocks. When the mutex is taken the reader sleeps until a writer has finished;
when it is free, as it is at first, the reader takes it and goes on.
-/
namespace StructureOfOs.WriterGate
open StructureOfOs.Programs StructureOfOs.Outlines StructureOfOs.BankState StructureOfOs.Accounts StructureOfOs.Atm
open StructureOfOs.Bank

/-- The point of a round that ends a writer's section: an ATM that creates or closes
    an account, or the printer after its last row. -/
def Writes : Ctl → Prop
  | .parser_file (.create_account _ _ _ :: _) => True
  | .parser_file (.closing_account _ _ :: _) => True
  | .print_accounts none => True
  | _ => False

/-- Where a thread is at the gate: a reader has found the flag set, or has taken the
    mutex, or a writer has cleared the flag. -/
inductive Place
  | away
  | stopped
  | through
  | cleared
deriving DecidableEq
def Place.next : Place → (a : Act) → Res a → Place
  | _, .accounts_print, true => .stopped
  | _, .lock .stdout_print_lock, _ => .through
  | _, .set_accounts_print false, _ => .cleared
  | _, _, _ => .away
/-- What the code does at each place. -/
def Place.Ok (writes : Prop) : Place → Act → Prop
  | .away, a => a ≠ .lock .stdout_print_lock ∧ a ≠ .unlock .stdout_print_lock
  | .stopped, a => a = .lock .stdout_print_lock
  | .through, a => a = .lock (.lock_read .account_list)
  | .cleared, a => a = .unlock .stdout_print_lock ∧ writes
def gate (point : Ctl) : Outline Tid Shared Act Res Ctl Place where
  Inv _ _ := True
  Ok _ g a := g.Ok (Writes point) a
  Next _ g a r g' := g' = g.next a r
  Loop _ _ g := g = .away
/-- The program keeps to the gate of its point's round, and ends away from it. -/
def Keeps {α : Type} (point : Ctl) (t : Tid) (g : Place) (p : Code α) : Prop :=
  (gate point).Follows t p g (fun _ g' => g' = .away)

variable {n id : Nat} {files : Nat → List Command} {rand : Nat → Nat} {c d e : Config} {t u : Tid} {point : Ctl}
variable {g : Place} {a : Act} {α β : Type}

/-! ### The programs keep to the gate -/

theorem keeps_call (ok : g.Ok (Writes point) a) (next : ∀ r, g.next a r = .away) : Keeps point t g (.call a) := by
  refine ⟨ok,?_⟩
  rintro r g' rfl
  exact next r
theorem keeps_then {f : Res a → Code β} (ok : g.Ok (Writes point) a) (rest : ∀ r, Keeps point t (g.next a r) (f r)) :
    Keeps point t g (.call a >>= f) := by
  refine ⟨ok,?_⟩
  rintro r g' rfl
  exact rest r
theorem keeps_act {next : Res a → Code α} (keeps : Keeps point t g (.act a next)) :
    g.Ok (Writes point) a ∧ ∀ r, Keeps point t (g.next a r) (next r) :=
  ⟨keeps.1,fun r => keeps.2 r _ rfl⟩
theorem keeps_bind {p : Code α} {f : α → Code β} (first : Keeps point t g p)
    (rest : ∀ value, Keeps point t .away (f value)) : Keeps point t g (p >>= f) := by
  refine follows_seq first ?_
  rintro value g' rfl
  exact rest value

/-- The operations that neither use the gate nor change it. -/
def plain : Act → Bool
  | .accounts_print => false
  | .lock .stdout_print_lock => false
  | .unlock .stdout_print_lock => false
  | .set_accounts_print false => false
  | _ => true
theorem keeps_plain (unused : plain a = true) : Keeps point t .away (.call a) := by
  refine keeps_call ⟨?_,?_⟩ fun r => ?_
  · rintro rfl; cases unused
  · rintro rfl; cases unused
  · unfold Place.next
    split
    · cases unused
    · cases unused
    · cases unused
    · rfl

theorem lock_for_read_keeps {l : RwId} (ok : g.Ok (Writes point) (.lock (.lock_read l))) :
    Keeps point t g (lock_for_read l) := by
  refine keeps_then ok fun _ => ?_
  repeat' first | exact keeps_plain rfl | refine keeps_bind (keeps_plain rfl) fun _ => ?_ | split
theorem unlock_from_read_keeps (l : RwId) : Keeps point t .away (unlock_from_read l) := by
  unfold unlock_from_read
  repeat' first | exact keeps_plain rfl | refine keeps_bind (keeps_plain rfl) fun _ => ?_ | split
theorem log_print_keeps (line : Line) : Keeps point t .away (log_print line) := by
  unfold log_print
  repeat' first | exact keeps_plain rfl | refine keeps_bind (keeps_plain rfl) fun _ => ?_
theorem vallid_password_keeps (r : Ref) (password : String) : Keeps point t .away (vallid_password r password) :=
  keeps_bind (keeps_plain rfl) fun _ => rfl
/-- A writer's section ends with the flag and then the mutex. -/
theorem finish_writing_keeps (writes : Writes point) : Keeps point t .away finish_writing := by
  refine keeps_bind (keeps_plain rfl) fun _ => ?_
  refine keeps_then ⟨by simp,by simp⟩ fun _ => ?_
  exact keeps_call ⟨rfl,writes⟩ fun _ => rfl
/-- A reader that finds the flag set goes for the mutex, and then for the list. -/
theorem reader_keeps {rest : Code Unit} (keeps : Keeps point t .away rest) :
    Keeps point t .away (do wait_for_writer; lock_account_list_for_read; rest) := by
  refine keeps_then ⟨by simp,by simp⟩ fun flag => ?_
  cases flag with
  | true =>
    refine keeps_then rfl fun _ => ?_
    exact keeps_bind (lock_for_read_keeps rfl) fun _ => keeps
  | false =>
    show Keeps point t .away (lock_account_list_for_read >>= fun _ => rest)
    refine keeps_bind (lock_for_read_keeps ?_) fun _ => keeps
    exact ⟨by simp,by simp⟩
/-- A writer sets the flag before it locks the list. -/
theorem writer_keeps {rest : Code Unit} (keeps : Keeps point t .away rest) :
    Keeps point t .away (do set_accounts_print true; pthread_mutex_lock (.lock_write .account_list); rest) :=
  keeps_bind (keeps_plain rfl) fun _ => keeps_bind (keeps_plain rfl) fun _ => keeps

/-- A failure of a reader, once it has left whatever it holds besides the list. -/
theorem fail_keeps {line : Line} {leave : Code Unit} (keeps : Keeps point t .away leave) :
    Keeps point t .away (do log_print line; leave) :=
  keeps_bind (log_print_keeps line) fun _ => keeps
theorem leave_list_keeps : Keeps point t .away unlock_account_list_from_read := unlock_from_read_keeps _
theorem leave_account_keeps {leave : Code Unit} (r : Ref) (keeps : Keeps point t .away leave) :
    Keeps point t .away (do unlock_from_write r; leave) :=
  keeps_bind (keeps_plain rfl) fun _ => keeps
theorem log_balance_keeps {r : Ref} {line : Int → Line} {leave : Code Unit} (keeps : Keeps point t .away leave) :
    Keeps point t .away (do
      pthread_mutex_lock .log_print_lock
      let balance ← balance_of r
      .call (Act.log (line balance))
      pthread_mutex_unlock .log_print_lock
      leave) :=
  keeps_bind (keeps_plain rfl) fun _ => keeps_bind (keeps_plain rfl) fun _ =>
    keeps_bind (keeps_plain rfl) fun _ => keeps_bind (keeps_plain rfl) fun _ => keeps
theorem withdrawl_keeps (r : Ref) (amount : Int) : Keeps point t .away (withdrawl r amount) := by
  refine keeps_bind (keeps_plain rfl) fun balance => ?_
  split
  · rfl
  · exact keeps_bind (keeps_plain rfl) fun _ => keeps_bind (keeps_plain rfl) fun _ => rfl
theorem deposit_keeps (r : Ref) (amount : Int) : Keeps point t .away (deposit r amount) :=
  keeps_bind (keeps_plain rfl) fun _ => keeps_plain rfl

theorem create_account_keeps (this : Nat) (account_id : Int) (password : String) (balance : Int) (writes : Writes point) :
    Keeps point t .away (create_account this account_id password balance) := by
  refine writer_keeps (keeps_bind (keeps_plain rfl) fun it => ?_)
  refine keeps_bind ?_ fun gone => ?_
  · cases it with
    | none => rfl
    | some r => exact keeps_plain rfl
  · cases gone with
    | true =>
      refine keeps_bind (keeps_plain rfl) fun r => keeps_bind (keeps_plain rfl) fun _ => ?_
      refine keeps_bind (keeps_plain rfl) fun _ => keeps_bind (log_print_keeps _) fun _ => ?_
      exact leave_account_keeps r (finish_writing_keeps writes)
    | false => exact fail_keeps (finish_writing_keeps writes)

theorem deposit_to_account_keeps (this : Nat) (account_id : Int) (password : String) (amount : Int) :
    Keeps point t .away (deposit_to_account this account_id password amount) := by
  refine reader_keeps (keeps_bind (keeps_plain rfl) fun it => ?_)
  cases it with
  | none => exact fail_keeps leave_list_keeps
  | some r =>
    refine keeps_bind (keeps_plain rfl) fun _ => keeps_bind (keeps_plain rfl) fun gone => ?_
    cases gone with
    | true => exact fail_keeps (leave_account_keeps r leave_list_keeps)
    | false =>
      refine keeps_bind (vallid_password_keeps r password) fun valid => ?_
      cases valid with
      | true =>
        refine keeps_bind (deposit_keeps r amount) fun _ => ?_
        exact log_balance_keeps (leave_account_keeps r leave_list_keeps)
      | false => exact fail_keeps (leave_account_keeps r leave_list_keeps)
theorem withdrawl_from_account_keeps (this : Nat) (account_id : Int) (password : String) (amount : Int) :
    Keeps point t .away (withdrawl_from_account this account_id password amount) := by
  refine reader_keeps (keeps_bind (keeps_plain rfl) fun it => ?_)
  cases it with
  | none => exact fail_keeps leave_list_keeps
  | some r =>
    refine keeps_bind (keeps_plain rfl) fun _ => keeps_bind (keeps_plain rfl) fun gone => ?_
    cases gone with
    | true => exact fail_keeps (leave_account_keeps r leave_list_keeps)
    | false =>
      refine keeps_bind (vallid_password_keeps r password) fun valid => ?_
      cases valid with
      | true =>
        refine keeps_bind (withdrawl_keeps r amount) fun paid => ?_
        cases paid with
        | true => exact log_balance_keeps (leave_account_keeps r leave_list_keeps)
        | false => exact fail_keeps (leave_account_keeps r leave_list_keeps)
      | false => exact fail_keeps (leave_account_keeps r leave_list_keeps)
theorem closing_account_keeps (this : Nat) (account_id : Int) (password : String) (writes : Writes point) :
    Keeps point t .away (closing_account this account_id password) := by
  refine writer_keeps (keeps_bind (keeps_plain rfl) fun it => ?_)
  cases it with
  | none => exact fail_keeps (finish_writing_keeps writes)
  | some r =>
    refine keeps_bind (keeps_plain rfl) fun _ => keeps_bind (keeps_plain rfl) fun gone => ?_
    cases gone with
    | true => exact fail_keeps (leave_account_keeps r (finish_writing_keeps writes))
    | false =>
      refine keeps_bind (vallid_password_keeps r password) fun valid => ?_
      cases valid with
      | true =>
        refine keeps_bind (keeps_plain rfl) fun id => keeps_bind (keeps_plain rfl) fun _ => ?_
        refine keeps_bind (keeps_plain rfl) fun _ => keeps_bind (keeps_plain rfl) fun _ => ?_
        exact log_balance_keeps (leave_account_keeps r (finish_writing_keeps writes))
      | false => exact fail_keeps (leave_account_keeps r (finish_writing_keeps writes))
theorem balance_check_keeps (this : Nat) (account_id : Int) (password : String) :
    Keeps point t .away (balance_check this account_id password) := by
  have leave : ∀ r, Keeps point t .away (do unlock_account_from_read r; unlock_account_list_from_read) :=
    fun r => keeps_bind (unlock_from_read_keeps _) fun _ => leave_list_keeps
  refine reader_keeps (keeps_bind (keeps_plain rfl) fun it => ?_)
  cases it with
  | none => exact fail_keeps leave_list_keeps
  | some r =>
    refine keeps_bind (lock_for_read_keeps ?_) fun _ => keeps_bind (keeps_plain rfl) fun gone => ?_
    · exact ⟨by simp,by simp⟩
    cases gone with
    | true => exact fail_keeps (leave r)
    | false =>
      refine keeps_bind (vallid_password_keeps r password) fun valid => ?_
      cases valid with
      | true => exact log_balance_keeps (leave r)
      | false => exact fail_keeps (leave r)

theorem finish_transfer_keeps (src dest : Ref) : Keeps point t .away (finish_transfer src dest) :=
  leave_account_keeps src (leave_account_keeps dest (keeps_bind (keeps_plain rfl) fun _ => leave_list_keeps))
theorem either_deleted_keeps (src dest : Ref) : Keeps point t .away (either_deleted src dest) := by
  refine keeps_bind (keeps_plain rfl) fun gone => ?_
  cases gone with
  | true => rfl
  | false => exact keeps_plain rfl
theorem transfer_between_accounts_keeps (this : Nat) (src_account_id : Int) (src_password : String)
    (dest_account_id amount : Int) :
    Keeps point t .away (transfer_between_accounts this src_account_id src_password dest_account_id amount) := by
  refine reader_keeps (keeps_bind (keeps_plain rfl) fun _ => ?_)
  refine keeps_bind (keeps_plain rfl) fun it_src => keeps_bind (keeps_plain rfl) fun it_dest => ?_
  have early : ∀ line, Keeps point t .away (do
      log_print line; pthread_mutex_unlock .transfer_lock; unlock_account_list_from_read) :=
    fun line => fail_keeps (keeps_bind (keeps_plain rfl) fun _ => leave_list_keeps)
  cases it_src with
  | none => exact early _
  | some src =>
    cases it_dest with
    | none => exact early _
    | some dest =>
      refine keeps_bind (keeps_plain rfl) fun _ => keeps_bind (keeps_plain rfl) fun _ => ?_
      refine keeps_bind (either_deleted_keeps src dest) fun gone => ?_
      cases gone with
      | true =>
        refine keeps_bind (keeps_plain rfl) fun src_gone => ?_
        cases src_gone with
        | true => exact fail_keeps (finish_transfer_keeps src dest)
        | false => exact fail_keeps (finish_transfer_keeps src dest)
      | false =>
        refine keeps_bind (vallid_password_keeps src src_password) fun valid => ?_
        cases valid with
        | true =>
          refine keeps_bind (withdrawl_keeps src amount) fun paid => ?_
          cases paid with
          | true =>
            refine keeps_bind (keeps_plain rfl) fun _ => keeps_bind (keeps_plain rfl) fun _ => ?_
            refine keeps_bind (keeps_plain rfl) fun _ => keeps_bind (keeps_plain rfl) fun src_balance => ?_
            refine keeps_bind (keeps_plain rfl) fun _ => keeps_bind (keeps_plain rfl) fun _ => ?_
            exact keeps_bind (keeps_plain rfl) fun _ => finish_transfer_keeps src dest
          | false => exact fail_keeps (finish_transfer_keeps src dest)
        | false => exact fail_keeps (finish_transfer_keeps src dest)

theorem perform_keeps (this : Nat) (command : Command) (todo : List Command) :
    Keeps (.parser_file (command :: todo)) t .away (perform this command) := by
  cases command with
  | create_account account_id password balance => exact create_account_keeps this account_id password balance trivial
  | deposit_to_account account_id password amount => exact deposit_to_account_keeps this account_id password amount
  | withdrawl_from_account account_id password amount => exact withdrawl_from_account_keeps this account_id password amount
  | balance_check account_id password => exact balance_check_keeps this account_id password
  | closing_account account_id password => exact closing_account_keeps this account_id password trivial
  | transfer_between_accounts src_account_id src_password dest_account_id amount =>
    exact transfer_between_accounts_keeps this src_account_id src_password dest_account_id amount

theorem pthread_exit_keeps : Keeps point t .away pthread_exit := keeps_bind (keeps_plain rfl) fun _ => rfl
theorem rounds_keep {p : Code Ctl} (started : rounds n t point = some p) : Keeps point t .away p := by
  unfold rounds at started
  split at started
  · rename_i id todo
    cases started
    cases todo with
    | nil => exact pthread_exit_keeps
    | cons command todo => exact keeps_bind (perform_keeps id command todo) fun _ => rfl
  · cases started
    refine keeps_bind (keeps_plain rfl) fun open_ => ?_
    cases open_ with
    | true =>
      refine keeps_bind (keeps_plain rfl) fun _ => keeps_bind (keeps_plain rfl) fun _ => ?_
      exact keeps_bind (keeps_plain rfl) fun _ => keeps_bind (keeps_plain rfl) fun _ => rfl
    | false => exact pthread_exit_keeps
  · rename_i it
    cases started
    cases it with
    | none =>
      refine keeps_bind (keeps_plain rfl) fun _ => keeps_bind (keeps_plain rfl) fun _ => ?_
      refine keeps_bind (keeps_plain rfl) fun _ => keeps_then ⟨by simp,by simp⟩ fun _ => ?_
      exact keeps_then ⟨rfl,trivial⟩ fun _ => rfl
    | some entry =>
      obtain ⟨key,r⟩ := entry
      refine keeps_bind (lock_for_read_keeps ⟨by simp,by simp⟩) fun _ => ?_
      refine keeps_bind (keeps_plain rfl) fun _ => keeps_bind (keeps_plain rfl) fun _ => ?_
      refine keeps_bind (keeps_plain rfl) fun _ => keeps_bind (keeps_plain rfl) fun _ => ?_
      exact keeps_bind (unlock_from_read_keeps _) fun _ => keeps_bind (keeps_plain rfl) fun _ => rfl
  · cases started
    refine keeps_bind (keeps_plain rfl) fun open_ => ?_
    cases open_ with
    | true =>
      refine keeps_bind (keeps_plain rfl) fun _ => keeps_bind (lock_for_read_keeps ⟨by simp,by simp⟩) fun _ => ?_
      exact keeps_bind (keeps_plain rfl) fun _ => rfl
    | false => exact pthread_exit_keeps
  · rename_i rand_fee it
    cases started
    cases it with
    | none => exact keeps_bind leave_list_keeps fun _ => rfl
    | some entry =>
      obtain ⟨key,r⟩ := entry
      unfold charge_accounts
      repeat' first | refine keeps_bind (keeps_plain rfl) fun _ => ?_ | exact keeps_plain rfl | rfl
  · rename_i joined
    cases started
    unfold main
    split
    · exact keeps_bind (keeps_plain rfl) fun _ => rfl
    · exact keeps_bind (keeps_plain rfl) fun _ => pthread_exit_keeps
  · cases started

/-! ### Every run keeps to the gate -/

/-- Every thread is somewhere at the gate, with the rest of its round ahead. -/
def Gated (c : Config) : Prop := ∀ t, ∃ g, Keeps (c.thread t).point t g (c.thread t).prog

theorem gated_initial : Gated (initial files rand) := fun _ => ⟨.away,rfl⟩
theorem gated_step (gated : Gated c) (stepped : (bank n).step c t = some d) : Gated d := by
  intro u
  by_cases same : u = t
  · subst same
    obtain ⟨g,keeps⟩ := gated u
    rcases step_cases stepped with ⟨point,p,left,started,rfl⟩ | ⟨a,next,r,s,left,_,rfl⟩
    · exact ⟨.away,by simpa using rounds_keep started⟩
    · rw [left] at keeps
      exact ⟨g.next a r,by simpa using (keeps_act keeps).2 r⟩
  · have still : d.thread u = c.thread u := by
      rcases step_cases stepped with ⟨_,_,_,_,rfl⟩ | ⟨_,_,_,_,_,_,rfl⟩
      · simp [same]
      · simp [same]
    rw [still]
    exact gated u
theorem gated (reached : Reachable n files rand c) : Gated c :=
  reached.invariant gated_initial fun _ _ _ => gated_step

/-- Only a thread that has just cleared the flag frees the mutex. -/
theorem keeps_unlock {p : Code α} (keeps : Keeps point t g p) (frees : p.action = some (.unlock .stdout_print_lock)) :
    g = .cleared ∧ Writes point := by
  have ok : g.Ok (Writes point) (.unlock .stdout_print_lock) := follows_permits keeps frees
  cases g with
  | away => exact absurd rfl ok.2
  | stopped => cases ok
  | through => cases ok
  | cleared => exact ⟨rfl,ok.2⟩
theorem next_cleared {r : Res a} (cleared : g.next a r = .cleared) : a = .set_accounts_print false := by
  unfold Place.next at cleared
  split at cleared <;> first | rfl | cases cleared

/-- The mutex is freed by writers only, at the end of their sections. -/
theorem unlock_writes (gated : Gated c) (frees : (c.thread t).prog.action = some (.unlock .stdout_print_lock)) :
    Writes (c.thread t).point := by
  obtain ⟨g,keeps⟩ := gated t
  exact (keeps_unlock keeps frees).2
/-- A thread comes to free the mutex by clearing the flag. -/
theorem unlock_after_clear (gated : Gated c) (stepped : (bank n).step c t = some d)
    (frees : (d.thread t).prog.action = some (.unlock .stdout_print_lock)) :
    (c.thread t).prog.action = some (.set_accounts_print false) := by
  obtain ⟨g,keeps⟩ := gated t
  rcases step_cases stepped with ⟨point,p,left,started,rfl⟩ | ⟨a,next,r,s,left,_,rfl⟩
  · have first : p.action = some (.unlock .stdout_print_lock) := by simpa using frees
    cases (keeps_unlock (rounds_keep (t := t) started) first).1
  · rw [left] at keeps ⊢
    have first : (next r).action = some (.unlock .stdout_print_lock) := by simpa using frees
    exact congrArg some (next_cleared (keeps_unlock ((keeps_act keeps).2 r) first).1)
/-- A reader that found the flag set goes for the mutex, and then for the list. -/
theorem stopped_next {p : Code α} (keeps : Keeps point t .stopped p) :
    ∃ next, p = .act (.lock .stdout_print_lock) next ∧ (next ()).action = some (.lock (.lock_read .account_list)) := by
  cases p with
  | ret value => cases keeps
  | act a next =>
    obtain ⟨rfl,rest⟩ := keeps_act keeps
    have through : Keeps point t .through (next ()) := rest ()
    refine ⟨next,rfl,?_⟩
    cases after : next () with
    | ret value => rw [after] at through; cases through
    | act a next => rw [after] at through; exact congrArg some (keeps_act through).1
/-- The reader at the mutex, with the list's read lock next. -/
def Stopped (c : Config) (t : Tid) : Prop :=
  ∃ next, (c.thread t).prog = .act (.lock .stdout_print_lock) next ∧
    (next ()).action = some (.lock (.lock_read .account_list))
theorem reads_set (gated : Gated c) (reads : (c.thread t).prog.action = some .accounts_print)
    (flag : c.shared.accounts_print = true) (stepped : (bank n).step c t = some d) :
    d.shared = c.shared ∧ Stopped d t ∧ ∀ u, u ≠ t → d.thread u = c.thread u := by
  obtain ⟨g,keeps⟩ := gated t
  obtain ⟨next,left⟩ := Prog.action_eq_some.mp reads
  rw [left] at keeps
  have stopped : Keeps (c.thread t).point t .stopped (next true) := (keeps_act keeps).2 true
  have moved : d = ⟨c.shared,Function.update c.thread t ⟨(c.thread t).point,next true⟩⟩ := by
    simpa [Machine.step,left,bank,run,flag] using stepped.symm
  subst moved
  refine ⟨rfl,?_,fun u other => by simp [other]⟩
  simpa [Stopped] using stopped_next stopped

theorem move_stdout {s s' : Shared} {l : RwId} {m : RwLock.Move} {r : Unit} (moved : s.move t l m = some (r,s')) :
    s'.stdout_print_lock = s.stdout_print_lock := by
  obtain ⟨_,_,same⟩ := Option.map_eq_some_iff.mp moved
  cases same
  rfl
/-- Taken, the mutex stays taken until it is unlocked. -/
theorem run_taken {s s' : Shared} {r : Res a} (taken : s.stdout_print_lock ≠ none)
    (other : a ≠ .unlock .stdout_print_lock) (ran : run t a s = some (r,s')) : s'.stdout_print_lock ≠ none := by
  cases a with
  | lock m =>
    cases m with
    | lock_read l | lock_write l => rw [move_stdout ran]; exact taken
    | stdout_print_lock => simp [run,taken] at ran
    | _ => simp only [run,Option.ite_none_right_eq_some] at ran; obtain ⟨_,same⟩ := ran; cases same; exact taken
  | unlock m =>
    cases m with
    | lock_read l | lock_write l => rw [move_stdout ran]; exact taken
    | stdout_print_lock => exact absurd rfl other
    | _ => cases ran; exact taken
  | set_readers l k => rw [move_stdout ran]; exact taken
  | join w => simp only [run,Option.ite_none_right_eq_some] at ran; obtain ⟨_,same⟩ := ran; cases same; exact taken
  | _ => cases ran; exact taken
theorem taken_kept (taken : c.shared.stdout_print_lock ≠ none) (stepped : (bank n).step c t = some d)
    (other : (c.thread t).prog.action ≠ some (.unlock .stdout_print_lock)) : d.shared.stdout_print_lock ≠ none := by
  rcases step_cases stepped with ⟨_,_,_,_,rfl⟩ | ⟨a,next,r,s,left,ran,rfl⟩
  · exact taken
  · refine run_taken taken ?_ ran
    rintro rfl
    exact other (by rw [left]; rfl)

/-! ### Who passes the gate -/

/-- The thread is about to unlock the mutex. -/
abbrev Frees (c : Config) (u : Tid) : Prop := (c.thread u).prog.action = some (.unlock .stdout_print_lock)
abbrev Clears (c : Config) (u : Tid) : Prop := (c.thread u).prog.action = some (.set_accounts_print false)
/-- In the run of the schedule a writer ends its section by unlocking the mutex. -/
def Ends (n : Nat) (schedule : List Tid) (c : Config) : Prop :=
  ∃ u before after e, schedule = before ++ u :: after ∧ (bank n).runs before c = some e ∧ Frees e u ∧
    Writes (e.thread u).point
/-- In the run of the schedule a writer clears the flag, and unlocks the mutex with
    its next action. -/
def Finishes (n : Nat) (schedule : List Tid) (c : Config) : Prop :=
  ∃ u before between after d e, schedule = before ++ u :: between ++ u :: after ∧ u ∉ between ∧
    (bank n).runs before c = some d ∧ Clears d u ∧
    (bank n).runs (before ++ u :: between) c = some e ∧ Frees e u ∧ Writes (e.thread u).point

/-- The last step of a run, after the steps before it. -/
theorem runs_last {schedule : List Tid} (ran : (bank n).runs (schedule ++ [u]) c = some e) :
    ∃ d, (bank n).runs schedule c = some d ∧ (bank n).step d u = some e := by
  rw [runs_append] at ran
  obtain ⟨d,ranBefore,ranLast⟩ := Option.bind_eq_some_iff.mp ran
  obtain ⟨e',stepped,same⟩ := Option.bind_eq_some_iff.mp ranLast
  cases same
  exact ⟨d,ranBefore,stepped⟩
theorem gated_runs {schedule : List Tid} (gated : Gated c) (ran : (bank n).runs schedule c = some d) : Gated d :=
  Machine.Reaches.invariant ⟨schedule,ran⟩ gated fun _ _ _ => gated_step
theorem step_others (stepped : (bank n).step c u = some d) (other : t ≠ u) : d.thread t = c.thread t := by
  have ran : (bank n).runs [u] c = some d := by simp [Machine.runs,stepped]
  exact runs_frame ran (by simpa using other)

/-- A reader that has to wait for the mutex waits until a writer has freed it. -/
theorem waits_until_freed {schedule : List Tid} (gated : Gated c) (stopped : Stopped c t)
    (taken : c.shared.stdout_print_lock ≠ none) (ran : (bank n).runs schedule c = some d) :
    Ends n schedule c ∨ Stopped d t ∧ d.shared.stdout_print_lock ≠ none := by
  induction schedule using List.reverseRecOn generalizing d with
  | nil => cases ran; exact .inr ⟨stopped,taken⟩
  | append_singleton schedule u ih =>
    obtain ⟨e,ranBefore,stepped⟩ := runs_last ran
    rcases ih ranBefore with ⟨w,before,after,f,rfl,ends⟩ | ⟨stopped',taken'⟩
    · exact .inl ⟨w,before,after ++ [u],f,by simp,ends⟩
    · by_cases frees : Frees e u
      · exact .inl ⟨u,schedule,[],e,rfl,ranBefore,frees,unlock_writes (gated_runs gated ranBefore) frees⟩
      · have waits : t ≠ u := by
          rintro rfl
          obtain ⟨next,left,_⟩ := stopped'
          simp [Machine.step,left,bank,run,taken'] at stepped
        refine .inr ⟨?_,taken_kept taken' stepped frees⟩
        rw [Stopped,step_others stepped waits]
        exact stopped'
/-- A thread that came to be about to unlock the mutex has cleared the flag on the way. -/
theorem cleared_on_the_way {schedule : List Tid} (gated : Gated c) (ran : (bank n).runs schedule c = some d)
    (before_not : ¬ Frees c u) (frees : Frees d u) :
    ∃ before between e, schedule = before ++ u :: between ∧ u ∉ between ∧ (bank n).runs before c = some e ∧
      Clears e u := by
  induction schedule using List.reverseRecOn generalizing d with
  | nil => cases ran; exact absurd frees before_not
  | append_singleton schedule w ih =>
    obtain ⟨e,ranBefore,stepped⟩ := runs_last ran
    by_cases same : u = w
    · subst same
      exact ⟨schedule,[],e,rfl,by simp,ranBefore,unlock_after_clear (gated_runs gated ranBefore) stepped frees⟩
    · rw [Frees,step_others stepped same] at frees
      obtain ⟨before,between,f,rfl,fresh,ranFirst,clears⟩ := ih ranBefore frees
      exact ⟨before,between ++ [w],f,by simp,by simp [fresh,same],ranFirst,clears⟩
theorem finishes_of_ends {schedule : List Tid} (gated : Gated c) (nobody : ∀ u, ¬ Frees c u)
    (ends : Ends n schedule c) : Finishes n schedule c := by
  obtain ⟨u,before,after,e,rfl,ran,frees,writes⟩ := ends
  obtain ⟨first,between,d,rfl,fresh,ranFirst,clears⟩ := cleared_on_the_way gated ran (nobody u) frees
  exact ⟨u,first,between,after,d,e,rfl,fresh,ranFirst,clears,ran,frees,writes⟩

/-- Free, the mutex lets the reader through at once. -/
theorem passes_free (stopped : Stopped c t) (free : c.shared.stdout_print_lock = none) :
    ∃ d, (bank n).step c t = some d ∧ (d.thread t).prog.action = some (.lock (.lock_read .account_list)) := by
  obtain ⟨next,left,reads⟩ := stopped
  refine ⟨⟨{ c.shared with stdout_print_lock := some t },
    Function.update c.thread t ⟨(c.thread t).point,next ()⟩⟩,?_,?_⟩
  · simp [Machine.step,left,bank,run,free]
  · simpa using reads
/-- Unlocking frees the mutex and leaves the other threads where they are. -/
theorem frees_mutex (frees : Frees c u) :
    ∃ d, (bank n).step c u = some d ∧ d.shared.stdout_print_lock = none ∧ ∀ w, w ≠ u → d.thread w = c.thread w := by
  obtain ⟨next,left⟩ := Prog.action_eq_some.mp frees
  refine ⟨⟨{ c.shared with stdout_print_lock := none },
    Function.update c.thread u ⟨(c.thread u).point,next ()⟩⟩,?_,rfl,fun w other => by simp [other]⟩
  simp [Machine.step,left,bank,run]
theorem stopped_not_frees (stopped : Stopped c t) : ¬ Frees c t := by
  obtain ⟨next,left,_⟩ := stopped
  rw [Frees,left]
  rintro ⟨⟩
theorem ends_alone (ends : Ends n [t] c) : Frees c t := by
  obtain ⟨u,before,after,e,split,ran,frees,_⟩ := ends
  cases before with
  | nil => cases split; cases ran; exact frees
  | cons w before => simp at split
/-- A run in which no thread moves twice does not see a writer finish. -/
theorem finishes_nodup {schedule : List Tid} (once : schedule.Nodup) : ¬ Finishes n schedule c := by
  rintro ⟨u,before,between,after,_,_,rfl,_⟩
  exact (List.nodup_append.mp once).2.2 u (by simp) u (by simp) rfl

/-- In every run after the reader found the flag set, it comes to lock the list only
    once the writers have done something. -/
def SleepsUntil (n : Nat) (done : List Tid → Config → Prop) (c : Config) (t : Tid) : Prop :=
  ∀ schedule d, (bank n).runs schedule c = some d →
    (d.thread t).prog.action = some (.lock (.lock_read .account_list)) → done schedule c

/-- The gate works when the mutex is taken as the flag is read. The reader then sleeps
    until a writer has unlocked the mutex; and when no writer is just then about to
    unlock it, until one has cleared the flag and unlocked the mutex after the read. -/
theorem gate_holds_iff (reached : Reachable n files rand c)
    (reads : (c.thread (.atm id)).prog.action = some .accounts_print) (flag : c.shared.accounts_print = true)
    (stepped : (bank n).step c (.atm id) = some d) :
    (SleepsUntil n (Ends n) d (.atm id) ↔ c.shared.stdout_print_lock ≠ none) ∧
    (SleepsUntil n (Finishes n) d (.atm id) ↔ c.shared.stdout_print_lock ≠ none ∧ ∀ u, ¬ Frees c u) := by
  obtain ⟨shared,stopped,others⟩ := reads_set (gated reached) reads flag stepped
  have gated' : Gated d := gated (reached.step stepped)
  have sleeps (taken : c.shared.stdout_print_lock ≠ none) : SleepsUntil n (Ends n) d (.atm id) := by
    intro schedule e ran goes
    rcases waits_until_freed gated' stopped (by rw [shared]; exact taken) ran with ends | ⟨⟨next,left,_⟩,_⟩
    · exact ends
    · rw [left] at goes; cases goes
  refine ⟨⟨fun sleeps free => ?_,sleeps⟩,⟨fun finishes => ⟨fun free => ?_,fun u frees => ?_⟩,?_⟩⟩
  · obtain ⟨e,passed,goes⟩ := passes_free (n := n) stopped (by rw [shared]; exact free)
    exact stopped_not_frees stopped (ends_alone (sleeps [.atm id] e (by simp [Machine.runs,passed]) goes))
  · obtain ⟨e,passed,goes⟩ := passes_free (n := n) stopped (by rw [shared]; exact free)
    exact finishes_nodup (by simp) (finishes [.atm id] e (by simp [Machine.runs,passed]) goes)
  · -- The writer unlocks, and the reader takes the mutex it has left.
    have other : u ≠ .atm id := by rintro rfl; rw [Frees,reads] at frees; cases frees
    obtain ⟨e,freed,free,still⟩ := frees_mutex (n := n) (u := u) (c := d) (by rw [Frees,others u other]; exact frees)
    have stopped' : Stopped e (.atm id) := by rw [Stopped,still _ other.symm]; exact stopped
    obtain ⟨f,passed,goes⟩ := passes_free (n := n) stopped' free
    exact finishes_nodup (by simp [other]) (finishes [u,.atm id] f (by simp [Machine.runs,freed,passed]) goes)
  · rintro ⟨taken,nobody⟩ schedule e ran goes
    refine finishes_of_ends gated' (fun u frees => ?_) (sleeps taken schedule e ran goes)
    by_cases same : u = .atm id
    · subst same; exact stopped_not_frees stopped frees
    · rw [Frees,others u same] at frees; exact nobody u frees

/-- ATM 1 is about to create an account and has set the flag; the others deposit. -/
def gateFiles (i : Nat) : List Command :=
  if i = 1 then [.create_account 1 "a" 10] else [.deposit_to_account 1 "a" 5]
def gateRun (schedule : List Tid) : Option Config := (bank 3).runs schedule (initial gateFiles fun _ => 0)
theorem arrives : (gateRun [.atm 1,.atm 1,.atm 2]).isSome = true := by decide
theorem passes : (gateRun [.atm 1,.atm 1,.atm 2,.atm 2]).isSome = true := by decide

/-- Nobody has the mutex, and the first reader that finds the flag set does not sleep. -/
theorem first_reader_passes : ¬ ∀ n files rand c d id, Reachable n files rand c →
    (c.thread (.atm id)).prog.action = some .accounts_print → c.shared.accounts_print = true →
    (bank n).step c (.atm id) = some d → SleepsUntil n (Ends n) d (.atm id) := by
  intro claimed
  have sleeps := claimed 3 gateFiles (fun _ => 0) _ (Option.get _ passes) 2 (reachable_get arrives) rfl rfl
    (Option.some_get passes).symm
  exact stopped_not_frees ⟨_,rfl,rfl⟩ (ends_alone (sleeps [.atm 2] _ rfl rfl))

/-- ATM 3 has found the flag set first, and has taken the mutex. -/
theorem arrives_second : (gateRun [.atm 1,.atm 1,.atm 3,.atm 3,.atm 3,.atm 2]).isSome = true := by decide
theorem stops : (gateRun [.atm 1,.atm 1,.atm 3,.atm 3,.atm 3,.atm 2,.atm 2]).isSome = true := by decide
theorem second_stops : (bank 3).step (Option.get _ arrives_second) (.atm 2) = some (Option.get _ stops) :=
  (Option.some_get stops).symm
theorem second_reader_sleeps : SleepsUntil 3 (Ends 3) (Option.get _ stops) (.atm 2) :=
  (gate_holds_iff (reachable_get arrives_second) rfl rfl second_stops).1.mpr (Option.some_ne_none (Tid.atm 3))

end StructureOfOs.WriterGate
