import StructureOfOs.Extensions
import StructureOfOs.Finishing
import StructureOfOs.CommandLines

/-!
bank.cpp from `main`'s arguments to its exit status: the ATMs read the lines of their files,
`main` starts and joins the threads, stops at the first call that fails, and at the end takes
the bank down with its destructors. Beside the state of the bank stands what only `main`
changes (`Process`). Between the bank's operations the program does nothing that the bank
does not allow, so all its runs are runs of `bank` (`program_refines`).
-/
namespace StructureOfOs.BankProgram
open StructureOfOs.Programs StructureOfOs.Outlines StructureOfOs.BankState StructureOfOs.Accounts StructureOfOs.Atm
open StructureOfOs.Bank (pthread_exit bank)
open StructureOfOs.Extensions
open StructureOfOs.Streams (Text getlines)
open StructureOfOs.CommandLines

/-- What `main` knows and has done. `results` holds what the coming calls of `pthread_create` and
    `pthread_join` return. -/
structure Process where
  results : Nat → Int
  created : Tid → Bool
  list_of_atms : List Nat
  log_open : Bool
  destroyed : List Mutex
  freed_atms : List Nat
  freed_accounts : List Ref
  cerr : List String
  status : Option Int

inductive Extra
  | started
  | pthread_create (t : Tid)
  | result
  | wait (t : Tid)
  | push_back (id : Nat)
  | list_of_atms
  | close
  | destroy (m : Mutex)
  | delete_atm (id : Nat)
  | first
  | after (account_id : Int)
  | first_deleted
  | after_deleted (account_id : Int)
  | free (r : Ref)
  | cerr (text : String)
  | exit (status : Int)
abbrev ResX : Extra → Type
  | .pthread_create _ | .result => Int
  | .list_of_atms => List Nat
  | .first | .after _ | .first_deleted | .after_deleted _ => Option (Int × Ref)
  | _ => Unit
abbrev Code := Prog (Act ⊕ Extra) (Sum.elim Res ResX)

/-- The result of a call, and what is left of them. -/
def Process.next (o : Process) : Process := { o with results := fun k => o.results (k + 1) }
def own (t : Tid) : (x : Extra) → Shared → Process → Option (ResX x × Process)
  | .started, _, o => if o.created t then some ((),o) else none
  | .pthread_create u, _, o =>
    if o.results 0 = 0 then some (0,{ o.next with created := Function.update o.created u true }) else some (o.results 0,o.next)
  | .result, _, o => some (o.results 0,o.next)
  | .wait u, s, o => if s.exited u then some ((),o) else none
  | .push_back id, _, o => some ((),{ o with list_of_atms := o.list_of_atms ++ [id] })
  | .list_of_atms, _, o => some (o.list_of_atms,o)
  | .close, _, o => some ((),{ o with log_open := false })
  | .destroy m, _, o => some ((),{ o with destroyed := o.destroyed ++ [m] })
  | .delete_atm id, _, o => some ((),{ o with freed_atms := o.freed_atms ++ [id] })
  | .first, s, o => some (s.map_of_accounts.first,o)
  | .after account_id, s, o => some (s.map_of_accounts.after account_id,o)
  | .first_deleted, s, o => some (s.map_of_deleted_accounts.first,o)
  | .after_deleted account_id, s, o => some (s.map_of_deleted_accounts.after account_id,o)
  | .free r, _, o => some ((),{ o with freed_accounts := o.freed_accounts ++ [r] })
  | .cerr text, _, o => some ((),{ o with cerr := o.cerr ++ [text] })
  | .exit status, _, o => some ((),{ o with status := some status })

/-- The points of the loops, with the iterators over the ATMs, the accounts and the closed accounts. -/
inductive Ctl
  | unborn
  | parser_file (v : Fields) (lines : List Text)
  | loop (point : Bank.Ctl)
  | main
  | create_atms (i : Nat)
  | join_atms (i : Nat)
  | free_atms (it : List Nat)
  | free_accounts (it : Option (Int × Ref))
  | free_deleted_accounts (it : Option (Int × Ref))
  | ended

def extra (x : Extra) : Code (ResX x) := .act (.inr x) .ret
/-- A round of the bank. -/
def bank_round (p : BankState.Code Bank.Ctl) : Code Ctl := lift p >>= fun point => .ret (.loop point)

/-! ### The ATMs -/

/-- `while(getline(..))` of atm::parser_file, over the lines of the file. -/
def parser_file (this : Nat) (v : Fields) : List Text → Code Ctl
  | [] => bank_round pthread_exit
  | [] :: lines => return .parser_file v lines
  | line :: lines =>
    match parse_line v line with
    | (some command,v) => do
      lift (perform this command)
      return .parser_file v lines
    | (none,v) => return .parser_file v lines

/-! ### `main` -/

/-- An argument is the text of the file it names, `none` when that cannot be opened. -/
abbrev Argv := List (Option Text)
def arr_of_files : Argv → Option (List Text)
  | [] => some []
  | some file :: argv => (arr_of_files argv).map (file :: ·)
  | none :: _ => none

/-- A message, then `exit(1)`. What `perror` adds to the message is left out. -/
def fail (text : String) : Code Ctl := do
  extra (.cerr text)
  extra (.exit 1)
  return .ended

def main (argv : Argv) : Code Ctl :=
  if argv.length < 1 then fail "Bank error: illegal arguments"
  else
    match arr_of_files argv with
    | none => fail "Bank error: illegal arguments"
    | some _ => return .create_atms 0

def create_atms (n i : Nat) : Code Ctl :=
  if i < n then do
    let result ← extra (.pthread_create (.atm (i + 1)))
    if result ≠ 0 then fail "Bank error: pthread_create failed"
    else
      extra (.push_back (i + 1))
      return .create_atms (i + 1)
  else do
    let result ← extra (.pthread_create .accounts_print)
    if result ≠ 0 then fail "Bank error: pthread_create failed"
    else
      let result ← extra (.pthread_create .fee_collection)
      if result ≠ 0 then fail "Bank error: pthread_create failed" else return .join_atms 0

/-- The end of an ATM is awaited by an operation of the bank, that of the others is not. -/
def wait : Tid → Code Unit
  | .atm id => lift (.call (Act.join (.atm id)))
  | t => extra (.wait t)
/-- When `pthread_join` returns 0, the thread has ended. -/
def pthread_join (t : Tid) : Code Int := do
  let result ← extra .result
  if result = 0 then
    wait t
    return result
  else return result

/-- From the loop that joins the ATMs to the destructor of the bank. -/
def join_atms (n i : Nat) : Code Ctl :=
  if i < n then do
    let result ← pthread_join (.atm (i + 1))
    if result ≠ 0 then fail "Bank error: pthread_join failed" else return .join_atms (i + 1)
  else do
    lift (.call (Act.set_progress false))
    let result ← pthread_join .fee_collection
    if result ≠ 0 then fail "Bank error: pthread_join failed"
    else
      let result ← pthread_join .accounts_print
      if result ≠ 0 then fail "Bank error: pthread_join failed"
      else
        extra (.destroy .stdout_print_lock)
        let it ← extra .list_of_atms
        return .free_atms it

/-- bank::free_atms, then the destructor up to the accounts. -/
def free_atms : List Nat → Code Ctl
  | id :: it => do
    extra (.delete_atm id)
    return .free_atms it
  | [] => do
    extra .close
    extra (.destroy .log_print_lock)
    extra (.destroy .transfer_lock)
    extra (.destroy (.lock_read .account_list))
    extra (.destroy (.lock_write .account_list))
    let it ← extra .first
    return .free_accounts it

def delete_account (r : Ref) : Code Unit := do
  extra (.destroy (.lock_read (.account r)))
  extra (.destroy (.lock_write (.account r)))
  extra (.free r)
/-- The loops of bank::free_accounts. -/
def free_accounts : Option (Int × Ref) → Code Ctl
  | some (key,r) => do
    let it ← extra (.after key)
    delete_account r
    return .free_accounts it
  | none => do
    let it ← extra .first_deleted
    return .free_deleted_accounts it
def free_deleted_accounts : Option (Int × Ref) → Code Ctl
  | some (key,r) => do
    let it ← extra (.after_deleted key)
    delete_account r
    return .free_deleted_accounts it
  | none => do
    extra (.exit 0)
    return .ended

/-! ### The program -/

/-- The file of an ATM. -/
def text (argv : Argv) : Nat → Text
  | 0 => []
  | i + 1 => (argv[i]?.join).getD []
/-- A thread begins when it has been created. -/
def born (point : Ctl) : Code Ctl := do
  extra .started
  return point

section
variable (argv : Argv) (v : Nat → Fields)

def rounds : Tid → Ctl → Option (Code Ctl)
  | .atm id, .unborn => some (born (.parser_file (v id) (getlines (text argv id))))
  | .atm id, .parser_file v lines => some (parser_file id v lines)
  | .accounts_print, .unborn => some (born (.loop .accounts_status_print))
  | .accounts_print, .loop point => (Bank.rounds argv.length .accounts_print point).map bank_round
  | .fee_collection, .unborn => some (born (.loop .fee_collection))
  | .fee_collection, .loop point => (Bank.rounds argv.length .fee_collection point).map bank_round
  | .main, .main => some (main argv)
  | .main, .create_atms i => some (create_atms argv.length i)
  | .main, .join_atms i => some (join_atms argv.length i)
  | .main, .free_atms it => some (free_atms it)
  | .main, .free_accounts it => some (free_accounts it)
  | .main, .free_deleted_accounts it => some (free_deleted_accounts it)
  | _, _ => none
/-- When the process has exited, no thread moves. -/
def process : Extension Tid Shared Process Act Extra Res ResX Ctl where
  alive o := o.status.isNone
  own := own
  round := rounds argv v
/-- The program on these files; `v` is what the variables of each ATM hold at first. -/
def program : Machine Tid (Shared × Process) (Act ⊕ Extra) (Sum.elim Res ResX) Ctl :=
  extend (bank argv.length) (process argv v)

def start : Tid → Ctl
  | .main => .main
  | _ => .unborn
def Process.initial (results : Nat → Int) : Process := ⟨results,fun _ => false,[],true,[],[],[],[],none⟩
abbrev Config := Programs.Config Tid (Shared × Process) (Act ⊕ Extra) (Sum.elim Res ResX) Ctl
def initial (results : Nat → Int) (rand : Nat → Nat) : Config :=
  ⟨(.initial rand,.initial results),fun t => ⟨start t,.ret (start t)⟩⟩
/-- The states of the program under every schedule. -/
def Reachable (results : Nat → Int) (rand : Nat → Nat) (c : Config) : Prop :=
  (program argv v).Reaches (initial results rand) c

/-! ### The bank in the program -/

/-- The commands that the lines of each file come to. -/
def files (id : Nat) : List Command := commands (v id) (text argv id)
/-- What `main` and the others may do between the bank's operations. -/
def May : Tid → Extra → Prop
  | .main, _ | _, .started => True
  | _, _ => False
/-- Where the bank's thread is, when the program's comes to a point. -/
def Beside : Tid → Ctl → BankState.Code Bank.Ctl → Prop
  | .atm i, .unborn, p => p = .ret (.parser_file (files argv v i))
  | .atm _, .parser_file v lines, p => p = .ret (.parser_file ((performed v lines).filterMap id))
  | .accounts_print, .unborn, p => p = .ret .accounts_status_print
  | .fee_collection, .unborn, p => p = .ret .fee_collection
  | .atm _, .loop point, p => point = .ended ∧ p = .ret .ended
  | .accounts_print, .loop point, p | .fee_collection, .loop point, p => p = .ret point
  | .main, .main, p | .main, .create_atms _, p => p = .ret (.main 0)
  | .main, .join_atms i, p => p = .ret (.main i)
  | .main, .free_atms _, p | .main, .free_accounts _, p | .main, .free_deleted_accounts _, p => p = pthread_exit
  | .main, .ended, _ => True
  | _, _, _ => False
end

variable {argv : Argv} {v : Nat → Fields} {results : Nat → Int} {rand : Nat → Nat} {c : Config} {t : Tid}
  {p : BankState.Code Bank.Ctl} {q : Code Ctl} {i n : Nat}

theorem behind_bank_round (loops : ∀ point, Beside argv v t (.loop point) (.ret point)) :
    Behind (May t) (Beside argv v t) (bank_round p) p := by
  induction p with
  | ret point => exact loops point
  | act a next ih => exact ⟨_,rfl,fun r => ih r⟩
theorem behind_fail {message : String} : Behind (May .main) (Beside argv v .main) (fail message) p :=
  ⟨trivial,fun _ => ⟨trivial,fun _ => trivial⟩⟩

theorem behind_main {x : Extra} {f : ResX x → Code Ctl} (rest : ∀ r, Behind (May .main) (Beside argv v .main) (f r) p) :
    Behind (May .main) (Beside argv v .main) (extra x >>= f) p := ⟨trivial,rest⟩
/-- A join of an ATM is the bank's. -/
theorem behind_join {f : Int → Code Ctl} {below : Unit → BankState.Code Bank.Ctl}
    (failed : ∀ result, result ≠ 0 → Behind (May .main) (Beside argv v .main) (f result) (.act (.join (.atm i)) below))
    (joined : Behind (May .main) (Beside argv v .main) (f 0) (below ())) :
    Behind (May .main) (Beside argv v .main) (pthread_join (.atm i) >>= f) (.act (.join (.atm i)) below) := by
  refine ⟨trivial,fun (result : Int) => ?_⟩
  show Behind _ _ ((if result = 0 then wait (.atm i) >>= fun _ => .ret result else .ret result) >>= f) _
  by_cases success : result = 0
  · rw [if_pos success]
    exact ⟨below,rfl,fun _ => success ▸ joined⟩
  · rw [if_neg success]
    exact failed result success
/-- The others are joined beside it. -/
theorem behind_wait {f : Int → Code Ctl} (other : ∀ i, t ≠ .atm i)
    (rest : ∀ result, Behind (May .main) (Beside argv v .main) (f result) p) :
    Behind (May .main) (Beside argv v .main) (pthread_join t >>= f) p := by
  refine ⟨trivial,fun (result : Int) => ?_⟩
  show Behind _ _ ((if result = 0 then wait t >>= fun _ => .ret result else .ret result) >>= f) _
  split
  · cases t with
    | atm i => exact absurd rfl (other i)
    | _ => exact ⟨trivial,fun _ => rest result⟩
  · exact rest result

/-- A line that is executed is a round of the bank's ATM, at the others it stays where it is. -/
theorem parser_file_beside {w : Fields} {lines : List Text} (stands : p = .ret (.parser_file ((performed w lines).filterMap id))) :
    (Behind (May (.atm i)) (Beside argv v (.atm i)) (parser_file i w lines) p ∧
      Ends (fun point => ∃ w' lines', point = .parser_file w' lines' ∧ lines'.length < lines.length) (parser_file i w lines)) ∨
    ∃ low q, p = .ret low ∧ (bank n).round (.atm i) low = some q ∧
      Behind (May (.atm i)) (Beside argv v (.atm i)) (parser_file i w lines) q := by
  subst stands
  cases lines with
  | nil => exact .inr ⟨_,_,rfl,rfl,_,rfl,fun _ => ⟨rfl,rfl⟩⟩
  | cons line lines =>
    cases line with
    | nil => exact .inl ⟨rfl,_,_,rfl,Nat.lt_succ_self _⟩
    | cons c line =>
      rw [parser_file,performed]
      cases parse_line w (c :: line) with
      | mk operation w' =>
        cases operation with
        | none => exact .inl ⟨rfl,_,_,rfl,Nat.lt_succ_self _⟩
        | some command => exact .inr ⟨_,_,rfl,rfl,behind_lift fun _ => rfl⟩
      · simp
      · simp

theorem main_beside {point : Ctl} (beside : Beside argv v .main point p) (started : rounds argv v .main point = some q) :
    Behind (May .main) (Beside argv v .main) q p ∨ ∃ low p', p = .ret low ∧ (bank argv.length).round .main low = some p' ∧
      Behind (May .main) (Beside argv v .main) q p' := by
  cases point <;> simp only [rounds,reduceCtorEq,Option.some.injEq] at started <;> subst started
  case main =>
    refine .inl ?_
    unfold main
    split
    · exact behind_fail
    · split
      · exact behind_fail
      · exact beside
  case create_atms i =>
    refine .inl ?_
    unfold create_atms
    split
    · refine behind_main fun result => ?_
      split
      · exact behind_fail
      · exact behind_main fun _ => beside
    · refine behind_main fun result => ?_
      split
      · exact behind_fail
      · refine behind_main fun result => ?_
        split
        · exact behind_fail
        · exact beside
  case join_atms i =>
    refine .inr ⟨.main i,_,beside,rfl,?_⟩
    unfold join_atms Bank.main
    split
    · refine behind_join (fun result failed => ?_) rfl
      rw [if_pos failed]
      exact behind_fail
    · refine ⟨_,rfl,fun _ => behind_wait (by simp) fun result => ?_⟩
      split
      · exact behind_fail
      · refine behind_wait (by simp) fun result => ?_
        split
        · exact behind_fail
        · exact behind_main fun _ => behind_main fun _ => rfl
  case free_atms it =>
    refine .inl ?_
    cases it with
    | nil =>
      refine behind_main fun _ => behind_main fun _ => behind_main fun _ => ?_
      exact behind_main fun _ => behind_main fun _ => behind_main fun _ => beside
    | cons id it => exact behind_main fun _ => beside
  case free_accounts it =>
    refine .inl ?_
    cases it with
    | none => exact behind_main fun _ => beside
    | some e => exact behind_main fun _ => behind_main fun _ => behind_main fun _ => behind_main fun _ => beside
  case free_deleted_accounts it =>
    refine .inl ?_
    cases it with
    | none => exact behind_main fun _ => trivial
    | some e => exact behind_main fun _ => behind_main fun _ => behind_main fun _ => behind_main fun _ => beside

theorem rounds_beside : Rounds (bank argv.length) (process argv v) May (Beside argv v) := by
  intro t point p q beside started
  cases t with
  | atm i =>
    cases point with
    | unborn =>
      cases started
      exact .inl ⟨trivial,fun _ => beside⟩
    | parser_file w lines =>
      cases started
      exact (parser_file_beside beside).imp_left And.left
    | _ => cases started
  | accounts_print | fee_collection =>
    cases point with
    | unborn =>
      cases started
      exact .inl ⟨trivial,fun _ => beside⟩
    | loop point =>
      obtain ⟨q,starts,rfl⟩ := Option.map_eq_some_iff.mp started
      exact .inr ⟨point,q,beside,starts,behind_bank_round fun _ => rfl⟩
    | _ => cases started
  | main => exact main_beside beside started

theorem sim_initial : Sim May (Beside argv v) (initial results rand) (Bank.initial (files argv v) rand) := by
  refine ⟨rfl,fun t => ?_⟩
  cases t <;> exact rfl

/-- Every state of the program is one of the bank, where ATM `i` performs the operations that the
    lines of the `i`th file come to. -/
theorem program_refines (reachable : Reachable argv v results rand c) : ∃ d, Bank.Reachable argv.length (files argv v) rand d ∧
    c.shared.1 = d.shared ∧ ∀ t, Behind (May t) (Beside argv v t) (c.thread t).prog (d.thread t).prog := by
  obtain ⟨d,reached,sim⟩ := refines rounds_beside sim_initial reachable
  exact ⟨d,reached,sim.shared,sim.thread⟩

theorem reachable_get {schedule : List Tid} (ran : ((program argv v).runs schedule (initial results rand)).isSome = true) :
    Reachable argv v results rand (Option.get _ ran) := ⟨schedule,(Option.some_get ran).symm⟩

/-- One file: "O 1 p 9". -/
def one_file : Argv := [some [79,32,49,32,112,32,57]]
/-- The threads one after the other, as far as they come. -/
def one_day : List Tid :=
  List.replicate 9 .main ++ List.replicate 18 (.atm 1) ++ List.replicate 4 .main ++ List.replicate 5 .fee_collection ++
    List.replicate 5 .accounts_print ++ List.replicate 23 .main
def day (steps : Nat) : Option Config :=
  (program one_file fun _ => ⟨0,0,[],0,0⟩).runs (one_day.take steps) (initial (fun _ => 0) fun _ => 0)
/-- The ATM has inserted the account. -/
theorem day_begins : (day 20).isSome = true := by decide

theorem program_refines_day : ∃ d, Bank.Reachable 1 (files one_file fun _ => ⟨0,0,[],0,0⟩) (fun _ => 0) d ∧
    ((day 20).get day_begins).shared.1 = d.shared ∧ ∀ t, Behind (May t) (Beside one_file (fun _ => ⟨0,0,[],0,0⟩) t)
      (((day 20).get day_begins).thread t).prog (d.thread t).prog :=
  program_refines (reachable_get day_begins)

end StructureOfOs.BankProgram
