import StructureOfOs.Outlines
import StructureOfOs.RwLock
import StructureOfOs.OrdMap

/-!
The state that the threads of the bank share and the single operations on it:
locking and unlocking a mutex, reading or writing a counter, a flag or a balance,
an access to one of the two account maps, and writing one line of the log or of
the screen. Sleeping changes nothing and is left out: a schedule may let a thread
wait anywhere. Balances are exact integers, as `int` overflow has no meaning in
C++, and so are the reader counters, which count threads.
-/
namespace StructureOfOs.BankState
open StructureOfOs.Programs StructureOfOs.RwLock

/-- The threads: one for each ATM, the status printer, the fee collector and `main`. -/
inductive Tid
  | atm (id : Nat)
  | accounts_print
  | fee_collection
  | main
deriving DecidableEq, Repr

/-- The address of an account object. -/
abbrev Ref := Nat
/-- An account object, less its mutexes and its reader counter. -/
structure Account where
  id : Int
  balance : Int
  password : String
  deleted : Bool
deriving DecidableEq, Repr

/-- The reader/writer locks: the account list's and each account's. -/
inductive RwId
  | account_list
  | account (r : Ref)
deriving DecidableEq, Repr
inductive Mutex
  | lock_read (l : RwId)
  | lock_write (l : RwId)
  | transfer_lock
  | log_print_lock
  | stdout_print_lock
deriving DecidableEq, Repr

/-- Why an operation failed. -/
inductive Reason
  | same_id_exists
  | does_not_exist (account_id : Int)
  | incorrect_password (account_id : Int)
  | lower_balance (account_id : Int) (amount : Int)
deriving DecidableEq, Repr
/-- A line of log.txt. The first number is the id of the ATM that wrote it. -/
inductive Line
  | created (atm : Nat) (account_id : Int) (password : String) (balance : Int)
  | deposited (atm : Nat) (account_id : Int) (balance : Int) (amount : Int)
  | withdrew (atm : Nat) (account_id : Int) (balance : Int) (amount : Int)
  | closed (atm : Nat) (account_id : Int) (balance : Int)
  | checked (atm : Nat) (account_id : Int) (balance : Int)
  | transferred (atm : Nat) (amount : Int) (src dest : Int) (src_balance dest_balance : Int)
  | commission (rate : Nat) (fee : Int) (account_id : Int)
  | error (atm : Nat) (reason : Reason)
deriving DecidableEq, Repr

def Reason.text : Reason → String
  | .same_id_exists => "account with the same id exists"
  | .does_not_exist account_id => s!"account id {account_id} does not exist"
  | .incorrect_password account_id => s!"password for account id {account_id} is incorrect"
  | .lower_balance account_id amount => s!"account id {account_id} balance is lower than {amount}"
/-- The line as it stands in the file. -/
def Line.text : Line → String
  | .created atm account_id password balance =>
    s!"{atm}: New account id is {account_id} with password {password} and initial balance {balance}"
  | .deposited atm account_id balance amount =>
    s!"{atm}: Account {account_id} new balance is {balance} after {amount}$ was deposited"
  | .withdrew atm account_id balance amount =>
    s!"{atm}: Account {account_id} new balance is {balance} after {amount}$ was withdrew"
  | .closed atm account_id balance => s!"{atm}: Account {account_id} is now closed. Balance was {balance}"
  | .checked atm account_id balance => s!"{atm}: Account {account_id} balance is {balance}"
  | .transferred atm amount src dest src_balance dest_balance =>
    s!"{atm}: Transfer {amount} from account {src} to account {dest} new account balance is {src_balance}" ++
      s!" new target account balance is {dest_balance}"
  | .commission rate fee account_id =>
    s!"Bank: commissions of {rate} % were charged, the bank gained {fee} $ from account {account_id}"
  | .error atm reason => s!"Error {atm}: Your transaction failed - {reason.text}"

/-- What the status printer writes on the screen. -/
inductive Output
  | header
  | row (id : Int) (balance : Int) (password : String)
  | bank (balance : Int)
deriving DecidableEq, Repr
def Output.text : Output → String
  | .header => "Current Bank Status"
  | .row id balance password => s!"Account {id}: Balance - {balance} $, Account Password - {password}"
  | .bank balance => s!"The Bank has {balance} $"

/-- The shared state. The mutexes and counters of an account are found under its
    address. `rand` holds the answers of the coming calls of `rand()`. -/
structure Shared where
  lock : RwId → Lock Tid
  transfer_lock : Option Tid
  log_print_lock : Option Tid
  stdout_print_lock : Option Tid
  accounts_print : Bool
  progress : Bool
  rand : Nat → Nat
  account : Ref → Account
  allocated : Ref
  map_of_accounts : OrdMap Int Ref
  map_of_deleted_accounts : OrdMap Int Ref
  balance : Int
  log : List Line
  screen : List Output
  exited : Tid → Bool

/-- The thread that has a mutex. -/
def Shared.mutex (s : Shared) : Mutex → Option Tid
  | .lock_read l => (s.lock l).lock_read
  | .lock_write l => (s.lock l).lock_write
  | .transfer_lock => s.transfer_lock
  | .log_print_lock => s.log_print_lock
  | .stdout_print_lock => s.stdout_print_lock

/-- The single operations. -/
inductive Act
  | lock (m : Mutex)
  | unlock (m : Mutex)
  | readers (l : RwId)
  | set_readers (l : RwId) (n : Int)
  | accounts_print
  | set_accounts_print (flag : Bool)
  | progress
  | set_progress (flag : Bool)
  | rand
  | find (account_id : Int)
  | first
  | after (account_id : Int)
  | new_account (id : Int) (balance : Int) (password : String)
  | insert (account_id : Int) (r : Ref)
  | insert_deleted (account_id : Int) (r : Ref)
  | erase (account_id : Int)
  | id (r : Ref)
  | password (r : Ref)
  | deleted (r : Ref)
  | set_deleted (r : Ref)
  | balance (r : Ref)
  | set_balance (r : Ref) (balance : Int)
  | bank_balance
  | set_bank_balance (balance : Int)
  | log (line : Line)
  | print (output : Output)
  | exit
  | join (t : Tid)
/-- What an operation answers. -/
abbrev Res : Act → Type
  | .readers _ | .id _ | .balance _ | .bank_balance => Int
  | .accounts_print | .progress | .deleted _ => Bool
  | .rand => Nat
  | .find _ => Option Ref
  | .first | .after _ => Option (Int × Ref)
  | .new_account _ _ _ => Ref
  | .password _ => String
  | _ => Unit
abbrev Code := Prog Act Res

/-- A move on a reader/writer lock. -/
def Shared.move (s : Shared) (t : Tid) (l : RwId) (m : Move) : Option (Unit × Shared) :=
  ((s.lock l).move t m).map fun x => ((),{ s with lock := Function.update s.lock l x })

/-- The effect of an operation, `none` when the thread has to wait. -/
def run (t : Tid) : (a : Act) → Shared → Option (Res a × Shared)
  | .lock (.lock_read l), s => s.move t l .lockRead
  | .lock (.lock_write l), s => s.move t l .lockWrite
  | .lock .transfer_lock, s => if s.transfer_lock = none then some ((),{ s with transfer_lock := some t }) else none
  | .lock .log_print_lock, s => if s.log_print_lock = none then some ((),{ s with log_print_lock := some t }) else none
  | .lock .stdout_print_lock, s =>
    if s.stdout_print_lock = none then some ((),{ s with stdout_print_lock := some t }) else none
  | .unlock (.lock_read l), s => s.move t l .unlockRead
  | .unlock (.lock_write l), s => s.move t l .unlockWrite
  | .unlock .transfer_lock, s => some ((),{ s with transfer_lock := none })
  | .unlock .log_print_lock, s => some ((),{ s with log_print_lock := none })
  | .unlock .stdout_print_lock, s => some ((),{ s with stdout_print_lock := none })
  | .readers l, s => some ((s.lock l).num_of_readers,s)
  | .set_readers l n, s => s.move t l (.setReaders n)
  | .accounts_print, s => some (s.accounts_print,s)
  | .set_accounts_print flag, s => some ((),{ s with accounts_print := flag })
  | .progress, s => some (s.progress,s)
  | .set_progress flag, s => some ((),{ s with progress := flag })
  | .rand, s => some (s.rand 0,{ s with rand := fun n => s.rand (n + 1) })
  | .find account_id, s => some (s.map_of_accounts.find account_id,s)
  | .first, s => some (s.map_of_accounts.first,s)
  | .after account_id, s => some (s.map_of_accounts.after account_id,s)
  | .new_account id balance password, s =>
    some (s.allocated,{ s with
      account := Function.update s.account s.allocated ⟨id,balance,password,false⟩
      allocated := s.allocated + 1 })
  | .insert account_id r, s => some ((),{ s with map_of_accounts := s.map_of_accounts.insert account_id r })
  | .insert_deleted account_id r, s =>
    some ((),{ s with map_of_deleted_accounts := s.map_of_deleted_accounts.insert account_id r })
  | .erase account_id, s => some ((),{ s with map_of_accounts := s.map_of_accounts.erase account_id })
  | .id r, s => some ((s.account r).id,s)
  | .password r, s => some ((s.account r).password,s)
  | .deleted r, s => some ((s.account r).deleted,s)
  | .set_deleted r, s =>
    some ((),{ s with account := Function.update s.account r { s.account r with deleted := true } })
  | .balance r, s => some ((s.account r).balance,s)
  | .set_balance r balance, s =>
    some ((),{ s with account := Function.update s.account r { s.account r with balance := balance } })
  | .bank_balance, s => some (s.balance,s)
  | .set_bank_balance balance, s => some ((),{ s with balance := balance })
  | .log line, s => some ((),{ s with log := s.log ++ [line] })
  | .print output, s => some ((),{ s with screen := s.screen ++ [output] })
  | .exit, s => some ((),{ s with exited := Function.update s.exited t true })
  | .join u, s => if s.exited u then some ((),s) else none

/-- The bank before its threads start. -/
def Shared.initial (rand : Nat → Nat) : Shared where
  lock _ := Lock.fresh
  transfer_lock := none
  log_print_lock := none
  stdout_print_lock := none
  accounts_print := false
  progress := true
  rand := rand
  account _ := ⟨0,0,"",false⟩
  allocated := 0
  map_of_accounts := .empty
  map_of_deleted_accounts := .empty
  balance := 0
  log := []
  screen := []
  exited _ := false

/-- Only a mutex that is taken, or a thread that has not ended, makes an operation wait. -/
theorem run_blocked {t : Tid} {a : Act} {s : Shared} (blocked : run t a s = none) :
    (∃ m u, a = .lock m ∧ s.mutex m = some u) ∨ ∃ u, a = .join u := by
  cases a with
  | lock m =>
    cases free : s.mutex m with
    | some u => exact .inl ⟨m,u,rfl,free⟩
    | none => cases m <;> simp_all [run,Shared.move,Lock.move,Shared.mutex]
  | join u => exact .inr ⟨u,rfl⟩
  | unlock m => cases m <;> simp [run,Shared.move,Lock.move] at blocked
  | _ => simp [run,Shared.move,Lock.move] at blocked

/-- Three operations change a balance, and of the others two the list. -/
theorem run_money {t : Tid} {a : Act} {r : Res a} {s s' : Shared} (ran : run t a s = some (r,s')) :
    (∃ q v, a = .set_balance q v) ∨ (∃ v, a = .set_bank_balance v) ∨ (∃ id v pw, a = .new_account id v pw) ∨
      ((∀ q, (s'.account q).balance = (s.account q).balance) ∧ s'.balance = s.balance) ∧
        ((∃ id q, a = .insert id q) ∨ (∃ id, a = .erase id) ∨ s'.map_of_accounts = s.map_of_accounts) := by
  have moved : ∀ {l m}, s.move t l m = some ((),s') →
      ((∀ q, (s'.account q).balance = (s.account q).balance) ∧ s'.balance = s.balance) ∧ s'.map_of_accounts = s.map_of_accounts := by
    intro l m moved
    obtain ⟨lock,_,same⟩ := Option.map_eq_some_iff.mp moved
    cases same
    exact ⟨⟨fun _ => rfl,rfl⟩,rfl⟩
  cases a with
  | set_balance q v => exact .inl ⟨q,v,rfl⟩
  | set_bank_balance v => exact .inr (.inl ⟨v,rfl⟩)
  | new_account id v pw => exact .inr (.inr (.inl ⟨id,v,pw,rfl⟩))
  | insert id q => cases ran; exact .inr (.inr (.inr ⟨⟨fun _ => rfl,rfl⟩,.inl ⟨id,q,rfl⟩⟩))
  | erase id => cases ran; exact .inr (.inr (.inr ⟨⟨fun _ => rfl,rfl⟩,.inr (.inl ⟨id,rfl⟩)⟩))
  | set_deleted q =>
    cases ran
    refine .inr (.inr (.inr ⟨⟨fun k => ?_,rfl⟩,.inr (.inr rfl)⟩))
    by_cases same : k = q
    · subst same; simp
    · simp [same]
  | set_readers l n => exact .inr (.inr (.inr ⟨(moved ran).1,.inr (.inr (moved ran).2)⟩))
  | lock m =>
    cases m with
    | lock_read l | lock_write l => exact .inr (.inr (.inr ⟨(moved ran).1,.inr (.inr (moved ran).2)⟩))
    | _ =>
      simp only [run,Option.ite_none_right_eq_some] at ran
      obtain ⟨_,same⟩ := ran
      cases same
      exact .inr (.inr (.inr ⟨⟨fun _ => rfl,rfl⟩,.inr (.inr rfl)⟩))
  | unlock m =>
    cases m with
    | lock_read l | lock_write l => exact .inr (.inr (.inr ⟨(moved ran).1,.inr (.inr (moved ran).2)⟩))
    | _ => cases ran; exact .inr (.inr (.inr ⟨⟨fun _ => rfl,rfl⟩,.inr (.inr rfl)⟩))
  | join u =>
    simp only [run,Option.ite_none_right_eq_some] at ran
    obtain ⟨_,same⟩ := ran
    cases same
    exact .inr (.inr (.inr ⟨⟨fun _ => rfl,rfl⟩,.inr (.inr rfl)⟩))
  | _ => cases ran; exact .inr (.inr (.inr ⟨⟨fun _ => rfl,rfl⟩,.inr (.inr rfl)⟩))

/-- A move that the lock's code makes keeps all locks in order, takes the thread one
    point further, and leaves the others where they are with the counter they may
    have read. -/
theorem locks_move {s s' : Shared} {t : Tid} {l : RwId} {m : Move} (locks : ∀ k, (s.lock k).Inv)
    (permits : ((s.lock l).phase t).Permits (s.lock l).num_of_readers m) (ran : s.move t l m = some ((),s')) :
    (∀ k, (s'.lock k).Inv) ∧
      (∀ k, (s'.lock k).phase t = Function.update (fun k => (s.lock k).phase t) l (((s.lock l).phase t).next m) k) ∧
      ∀ u, u ≠ t → ∀ k, (s'.lock k).phase u = (s.lock k).phase u ∧
        (((s.lock k).phase u).holdsRead = true → (s'.lock k).num_of_readers = (s.lock k).num_of_readers) := by
  obtain ⟨x,moved,same⟩ := Option.map_eq_some_iff.mp ran
  cases same
  refine ⟨fun k => ?_,fun k => ?_,fun u other k => ?_⟩
  · by_cases same : k = l
    · subst same; simpa using inv_move (locks k) permits moved
    · simpa [same] using locks k
  · by_cases same : k = l
    · subst same; simp [move_phase_self moved]
    · simp [same]
  · by_cases same : k = l
    · subst same
      simpa [move_phase_other moved other] using known_kept (locks k) permits moved other
    · simp [same]

end StructureOfOs.BankState
