import StructureOfOs.AccountBook

/-!
The views of the bank's threads: which locks a thread is in, what it has looked up
and read under them, and which of its writes the log does not report yet. `Ok` says
what a view permits, so it states the locking discipline and what a line of the
log must report; `Next` says what an operation adds to a view or takes from it.
Nothing here looks at the shared state.
-/
namespace StructureOfOs.Views
open StructureOfOs.Programs StructureOfOs.RwLock StructureOfOs.BankState StructureOfOs.Atm StructureOfOs.Bank
open StructureOfOs.AccountBook

/-- The command carries no negative amount. -/
def Nonneg : Command → Prop
  | .create_account _ _ balance => 0 ≤ balance
  | .deposit_to_account _ _ amount | .withdrawl_from_account _ _ amount
  | .transfer_between_accounts _ _ _ amount => 0 ≤ amount
  | .balance_check _ _ | .closing_account _ _ => True
/-- A transfer names two different accounts. -/
def Distinct : Command → Prop
  | .transfer_between_accounts src _ dest _ => src ≠ dest
  | _ => True

/-- The ATMs' files, and which of the two assumptions on their commands are made. -/
structure Setting where
  files : Nat → List Command
  nonneg : Prop
  distinct : Prop
  amounts : nonneg → ∀ i, ∀ c ∈ files i, Nonneg c
  targets : distinct → ∀ i, ∀ c ∈ files i, Distinct c

/-- A change of the account maps that the log does not report yet. -/
inductive Change
  | none
  | allocated (r : Ref) (id : Int) (pw : String) (balance : Int)
  | added (r : Ref) (id : Int) (pw : String) (balance : Int)
  | kept (r : Ref) (id : Int)
  | flagged (r : Ref) (id : Int)
  | erased (r : Ref) (id : Int)
deriving DecidableEq
def Change.ref : Change → Option Ref
  | .none => Option.none
  | .allocated r _ _ _ | .added r _ _ _ | .kept r _ | .flagged r _ | .erased r _ => some r

/-- What a thread holds and knows. Of an account it has locked, `cell` gives the
    balance and the balance that the log accounts for; `bank` is the same for the
    bank's balance. `pass` is the iteration under way: the entries it has passed
    and the one it stands at. `shown` are the rows printed in this status. -/
structure View where
  phase : RwId → Phase
  transfer : Bool
  logging : Bool
  known : Option (RwId × Int)
  looked : Int → Option (Option Ref)
  pw : Ref → Option String
  cell : Ref → Option (Int × Int)
  bank : Option (Int × Int)
  change : Change
  pass : Option (List (Int × Ref) × Option (Int × Ref))
  shown : Option (List (Ref × Int))
  todo : List Command
attribute [ext] View

namespace View
/-- A thread that holds and knows nothing. -/
def home (todo : List Command) : View :=
  ⟨fun _ => .idle,false,false,none,fun _ => none,fun _ => none,fun _ => none,none,.none,none,none,todo⟩

/-- The thread is inside the account list, as reader or writer. -/
def Held (g : View) : Prop := (g.phase .account_list).inside = true
/-- The thread is in no account's lock. -/
def Quiet (g : View) : Prop := ∀ r, g.phase (.account r) = .idle
/-- The thread is in no lock at all. -/
def Outside (g : View) : Prop :=
  g.phase .account_list = .idle ∧ g.Quiet ∧ g.transfer = false ∧ g.logging = false
/-- The thread can name the account: it has looked it up or is creating or closing it. -/
def Knows (g : View) (r : Ref) : Prop := (∃ id, g.looked id = some (some r)) ∨ g.change.ref = some r
/-- The log accounts for the balance of an account. -/
def Clean (g : View) (r : Ref) : Prop := ∀ c a, g.cell r = some (c,a) → c = a
def CleanBank (g : View) : Prop := ∀ c a, g.bank = some (c,a) → c = a

/-- What is known under a lock is forgotten with it. -/
def forget (g : View) : RwId → View
  | .account_list => { g with looked := fun _ => none, pw := fun _ => none, cell := fun _ => none, bank := none,
                              pass := none, shown := none }
  | .account r => { g with cell := Function.update g.cell r none }
/-- The thread at another point of a lock. -/
def put (g : View) (l : RwId) (p : Phase) : View := { g with phase := Function.update g.phase l p, known := none }
/-- A move on a reader/writer lock. -/
def move (g : View) (l : RwId) (m : Move) : View :=
  let moved := g.put l ((g.phase l).next m)
  if (g.phase l).inside && !((g.phase l).next m).inside then moved.forget l else moved
/-- An iteration comes to an entry, or to the end. -/
def visit (g : View) (done : List (Int × Ref)) (it : Option (Int × Ref)) : View :=
  { g with pass := some (done,it), looked := fun key => it.bind fun e => if e.1 = key then some (some e.2) else none,
           pw := fun _ => none, bank := none }
/-- The log now accounts for everything. -/
def commit (g : View) : View :=
  { g with cell := fun r => (g.cell r).map fun x => (x.1,x.1), bank := g.bank.map fun x => (x.1,x.1),
           change := .none, todo := g.todo.tail }

/-- A book agrees with what the thread knows. -/
structure Agrees (g : View) (B : Book) : Prop where
  absent : ∀ id, g.looked id = some none → B.opened.find id = none
  present : ∀ id r, g.looked id = some (some r) → ∃ p a, B.opened.find id = some (p,a) ∧
    (∀ q, g.pw r = some q → p = q) ∧ ∀ c b, g.cell r = some (c,b) → a = b
  added : ∀ r id pw balance, g.change = .added r id pw balance → B.opened.find id = none
  erased : ∀ r id, g.change = .erased r id → ∃ p a, B.opened.find id = some (p,a) ∧
    (∀ q, g.pw r = some q → p = q) ∧ ∀ c b, g.cell r = some (c,b) → a = b
  bank : ∀ c a, g.bank = some (c,a) → B.bank = a

/-- The entry of an id once the thread's writes are accounted for. -/
def entry (g : View) (B : Book) (id : Int) : Option (String × Int) :=
  match g.change with
  | .added _ key pw balance => if id = key then some (pw,balance) else B.opened.find id
  | .erased _ key => if id = key then none else B.opened.find id
  | _ => match (g.looked id).bind fun it => it.bind g.cell with
    | some (c,_) => (B.opened.find id).map fun own => (own.1,c)
    | none => B.opened.find id
/-- The book after an event accounts for exactly the thread's writes. -/
structure Commits (g : View) (B B' : Book) : Prop where
  opened : ∀ id, B'.opened.find id = g.entry B id
  closed : match g.change with
    | .none | .added _ _ _ _ => B'.closed = B.closed
    | .erased r id => ∃ p b, g.pw r = some p ∧ g.cell r = some (b,b) ∧ B'.closed = B.closed ++ [(id,p,b)]
    | .allocated _ _ _ _ | .kept _ _ | .flagged _ _ => False
  bank : B'.bank = match g.bank with
    | some (c,_) => c
    | none => B.bank

/-- The event a line is about: the ATM's next command, or a charge by the fee collector. -/
def Performs (g : View) (t : Tid) : Event → Prop
  | .command atm c => t = .atm atm ∧ g.todo.head? = some c
  | .charge _ _ => t = .fee_collection
/-- The line reports an event that, performed at once on any book that agrees with
    the view, yields this line and accounts for the thread's writes. -/
def Reports (g : View) (t : Tid) (line : Line) : Prop :=
  ∃ e, g.Performs t e ∧ ∀ B, g.Agrees B → ∃ B', B.exec e = some (B',line) ∧ g.Commits B B'

/-- The output belongs to the status under way: a row is the account the iteration
    stands at, and the bank comes after a row for every account. -/
def Shows (g : View) : Output → Prop
  | .header => True
  | .row _ balance _ => ∃ done key r rows, g.pass = some (done,some (key,r)) ∧ g.cell r = some (balance,balance) ∧
      g.shown = some rows
  | .bank balance => ∃ done rows, g.pass = some (done,none) ∧ g.shown = some rows ∧
      rows.map (·.1) = done.map (·.2) ∧ g.bank = some (balance,balance)
end View

/-- What a view permits. -/
def Ok (S : Setting) (t : Tid) (g : View) : Act → Prop
  | .lock (.lock_read .account_list) =>
    (g.phase .account_list = .idle ∨ g.phase .account_list = .reading) ∧ g.Quiet ∧ g.transfer = false ∧ g.logging = false
  | .lock (.lock_read (.account r)) =>
    (g.phase (.account r) = .idle ∨ g.phase (.account r) = .reading) ∧ g.Held ∧
      (∀ q, q ≠ r → g.phase (.account q) = .idle) ∧ g.transfer = false ∧ g.logging = false
  | .lock (.lock_write .account_list) =>
    (g.phase .account_list = .idle ∨ g.phase .account_list = .counted 1) ∧ g.Quiet ∧ g.transfer = false ∧
      g.logging = false
  | .lock (.lock_write (.account r)) =>
    (g.phase (.account r) = .idle ∨ g.phase (.account r) = .counted 1 ∨
      g.phase (.account r) = .writing ∧ g.transfer = true ∧ ¬ S.distinct) ∧ g.Held ∧
      (∀ q, q ≠ r → g.phase (.account q) = .idle ∨ g.transfer = true ∧ g.phase (.account q) = .writing) ∧
      g.logging = false
  | .lock .transfer_lock =>
    g.phase .account_list = .reading ∧ g.Quiet ∧ g.transfer = false ∧ g.logging = false
  | .lock .log_print_lock =>
    g.Held ∧ g.logging = false ∧ ∀ r, g.phase (.account r) = .idle ∨ (g.phase (.account r)).inside = true
  | .lock .stdout_print_lock => g.Outside
  | .unlock (.lock_read l) => (g.phase l).Permits 0 .unlockRead
  | .unlock (.lock_write .account_list) =>
    g.phase .account_list = .writing ∧ g.Quiet ∧ g.change = .none ∨ g.phase .account_list = .discounted 0
  | .unlock (.lock_write (.account r)) =>
    g.phase (.account r) = .writing ∧ g.Clean r ∧ g.CleanBank ∨ g.phase (.account r) = .discounted 0
  | .unlock .transfer_lock => g.transfer = true
  | .unlock .log_print_lock => g.logging = true
  | .unlock .stdout_print_lock => True
  | .readers l => (g.phase l).holdsRead = true
  | .set_readers l n => ∃ v, g.known = some (l,v) ∧ (g.phase l).Permits v (.setReaders n)
  | .find _ => g.Held ∧ g.change = .none
  | .first => g.Held ∧ g.change = .none ∧ g.Quiet
  | .after key => g.change = .none ∧ g.Quiet ∧ ∃ done r, g.pass = some (done,some (key,r))
  | .new_account _ balance _ => (∃ i, t = .atm i) ∧ g.phase .account_list = .writing ∧ g.change = .none ∧ g.Quiet ∧
      (S.nonneg → 0 ≤ balance)
  | .insert id r => (∃ pw balance, g.change = .allocated r id pw balance) ∧ g.looked id = some none ∧
      g.phase (.account r) = .writing
  | .insert_deleted id r => (∃ i, t = .atm i) ∧ g.phase .account_list = .writing ∧ g.change = .none ∧
      g.looked id = some (some r) ∧ g.phase (.account r) = .writing
  | .set_deleted r => ∃ id, g.change = .kept r id
  | .erase id => ∃ r, g.change = .flagged r id
  | .id r | .password r => g.Knows r
  | .deleted r => ∃ id, g.looked id = some (some r)
  | .balance r => (g.phase (.account r)).inside = true ∧ g.Knows r
  | .set_balance r balance => (t ≠ .accounts_print ∧ t ≠ .main) ∧ g.phase (.account r) = .writing ∧ g.phase .account_list = .reading ∧
      (∃ id, g.looked id = some (some r)) ∧ (∃ c a, g.cell r = some (c,a)) ∧ (S.nonneg → 0 ≤ balance)
  | .bank_balance => t = .fee_collection ∧ g.phase .account_list = .reading ∨ g.phase .account_list = .writing
  | .set_bank_balance balance => t = .fee_collection ∧ g.phase .account_list = .reading ∧
      (∃ r, g.phase (.account r) = .writing) ∧ (∃ c a, g.bank = some (c,a)) ∧ (S.nonneg → 0 ≤ balance)
  | .log line => g.logging = true ∧ g.Held ∧ g.Reports t line
  | .print output => t = .accounts_print ∧ g.phase .account_list = .writing ∧ g.Shows output
  | .join _ => g.Outside
  | .accounts_print | .set_accounts_print _ | .progress | .set_progress _ | .rand | .exit => True

/-- What an operation and its answer do to a view. -/
def Next (S : Setting) (g : View) : (a : Act) → Res a → View → Prop
  | .lock (.lock_read l), _, g' => g' = g.move l .lockRead
  | .lock (.lock_write l), _, g' => g.phase l ≠ .writing ∧ g' = g.move l .lockWrite
  | .lock .transfer_lock, _, g' => g' = { g with transfer := true }
  | .lock .log_print_lock, _, g' => g' = { g with logging := true }
  | .unlock (.lock_read l), _, g' => g' = g.move l .unlockRead
  | .unlock (.lock_write l), _, g' => g' = g.move l .unlockWrite
  | .unlock .transfer_lock, _, g' => g' = { g with transfer := false }
  | .unlock .log_print_lock, _, g' => g' = { g with logging := false }
  | .readers l, n, g' => g' = { g with known := some (l,n) } ∧
      ∀ v, g.phase l = .counted v ∨ g.phase l = .discounted v → n = v
  | .set_readers l n, _, g' => g' = g.move l (.setReaders n)
  | .find id, it, g' => g' = { g with looked := Function.update g.looked id (some it) } ∧
      (∀ known, g.looked id = some known → it = known) ∧
      ∀ r, it = some r → ∀ key, g.looked key = some (some r) → key = id
  | .first, it, g' => g' = g.visit [] it
  | .after key, it, g' => ∃ done r, g.pass = some (done,some (key,r)) ∧ g' = g.visit (done ++ [(key,r)]) it
  | .new_account id balance pw, r, g' => g' = { g with change := .allocated r id pw balance }
  | .insert _ _, _, g' => ∃ r id pw balance, g.change = .allocated r id pw balance ∧
      g' = { g with change := .added r id pw balance, looked := fun _ => none, pass := none }
  | .insert_deleted id r, _, g' => g' = { g with change := .kept r id }
  | .set_deleted r, _, g' => ∃ id, g.change = .kept r id ∧
      g' = { g with change := .flagged r id, looked := fun _ => none }
  | .erase id, _, g' => ∃ r, g.change = .flagged r id ∧ g' = { g with change := .erased r id, pass := none }
  | .id r, id, g' => g' = g ∧ ∀ key, g.looked key = some (some r) → id = key
  | .password r, p, g' => g' = { g with pw := Function.update g.pw r (some p) }
  | .deleted _, flag, g' => g' = g ∧ flag = false
  | .balance r, v, g' => (S.nonneg → 0 ≤ v) ∧ ((∃ a, g.cell r = some (v,a) ∧ g' = g) ∨
      g.cell r = none ∧ g' = { g with cell := Function.update g.cell r (some (v,v)) })
  | .set_balance r v, _, g' => ∃ c a, g.cell r = some (c,a) ∧
      g' = { g with cell := Function.update g.cell r (some (v,a)) }
  | .bank_balance, v, g' => (S.nonneg → 0 ≤ v) ∧ ((∃ a, g.bank = some (v,a) ∧ g' = g) ∨
      g.bank = none ∧ g' = { g with bank := some (v,v) })
  | .set_bank_balance v, _, g' => ∃ c a, g.bank = some (c,a) ∧ g' = { g with bank := some (v,a) }
  | .log _, _, g' => g' = g.commit
  | .print .header, _, g' => g' = { g with shown := some [] }
  | .print (.row _ balance _), _, g' => ∃ done key r rows, g.pass = some (done,some (key,r)) ∧ g.shown = some rows ∧
      g' = { g with shown := some (rows ++ [(r,balance)]) }
  | _, _, g' => g' = g

end StructureOfOs.Views
