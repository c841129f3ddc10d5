import StructureOfOs.Bank

/-!
The bank as one sequential account book: an operation or a charge is performed in
one step and yields its line of the log. This is what the concurrent bank is for;
nothing here knows of threads or mutexes. A line also says on its own what it does
to the book (`Book.apply`), and what it adds to the money in it (`net`).
-/
namespace StructureOfOs.AccountBook
open StructureOfOs.BankState StructureOfOs.Atm StructureOfOs.Bank

/-- The open accounts with their passwords and balances, the closed ones in the
    order of closing, and the bank's own balance. -/
structure Book where
  opened : OrdMap Int (String × Int)
  closed : List (Int × String × Int)
  bank : Int
/-- A command performed by an ATM, or a charge at a rate on an account. -/
inductive Event
  | command (atm : Nat) (c : Command)
  | charge (rate : Nat) (account_id : Int)
deriving DecidableEq, Repr

namespace Book
def empty : Book := ⟨.empty,[],0⟩

def create (B : Book) (atm : Nat) (id : Int) (pw : String) (balance : Int) : Book × Line :=
  match B.opened.find id with
  | some _ => (B,.error atm .same_id_exists)
  | none => ({ B with opened := B.opened.insert id (pw,balance) },.created atm id pw balance)
def deposit (B : Book) (atm : Nat) (id : Int) (pw : String) (amount : Int) : Book × Line :=
  match B.opened.find id with
  | none => (B,.error atm (.does_not_exist id))
  | some (own,balance) =>
    if own = pw then
      ({ B with opened := B.opened.set id (own,balance + amount) },.deposited atm id (balance + amount) amount)
    else (B,.error atm (.incorrect_password id))
def withdraw (B : Book) (atm : Nat) (id : Int) (pw : String) (amount : Int) : Book × Line :=
  match B.opened.find id with
  | none => (B,.error atm (.does_not_exist id))
  | some (own,balance) =>
    if own = pw then
      if balance < amount then (B,.error atm (.lower_balance id amount))
      else ({ B with opened := B.opened.set id (own,balance - amount) },.withdrew atm id (balance - amount) amount)
    else (B,.error atm (.incorrect_password id))
def check (B : Book) (atm : Nat) (id : Int) (pw : String) : Book × Line :=
  match B.opened.find id with
  | none => (B,.error atm (.does_not_exist id))
  | some (own,balance) =>
    if own = pw then (B,.checked atm id balance) else (B,.error atm (.incorrect_password id))
def close (B : Book) (atm : Nat) (id : Int) (pw : String) : Book × Line :=
  match B.opened.find id with
  | none => (B,.error atm (.does_not_exist id))
  | some (own,balance) =>
    if own = pw then
      ({ B with opened := B.opened.erase id, closed := B.closed ++ [(id,own,balance)] },.closed atm id balance)
    else (B,.error atm (.incorrect_password id))
/-- The withdrawal from the source, then the deposit to the target. -/
def transfer (B : Book) (atm : Nat) (src : Int) (pw : String) (dest : Int) (amount : Int) : Book × Line :=
  match B.opened.find src, B.opened.find dest with
  | none, _ => (B,.error atm (.does_not_exist src))
  | some _, none => (B,.error atm (.does_not_exist dest))
  | some (own,balance), some (other,target) =>
    if own = pw then
      if balance < amount then (B,.error atm (.lower_balance src amount))
      else
        let target := if src = dest then balance - amount else target
        ({ B with opened := (B.opened.set src (own,balance - amount)).set dest (other,target + amount) },
          .transferred atm amount src dest (balance - amount) (target + amount))
    else (B,.error atm (.incorrect_password src))

/-- A command performed at once. -/
def perform (B : Book) (atm : Nat) : Command → Book × Line
  | .create_account id pw balance => B.create atm id pw balance
  | .deposit_to_account id pw amount => B.deposit atm id pw amount
  | .withdrawl_from_account id pw amount => B.withdraw atm id pw amount
  | .balance_check id pw => B.check atm id pw
  | .closing_account id pw => B.close atm id pw
  | .transfer_between_accounts src pw dest amount => B.transfer atm src pw dest amount
/-- An event performed at once; only an open account can be charged. -/
def exec (B : Book) : Event → Option (Book × Line)
  | .command atm c => some (B.perform atm c)
  | .charge rate id => (B.opened.find id).map fun own =>
      ({ B with opened := B.opened.set id (own.1,own.2 - fee own.2 rate), bank := B.bank + fee own.2 rate },
        .commission rate (fee own.2 rate) id)

/-- What a line of the log does to the book: a success is that operation, a
    commission is that charge, an error is nothing. -/
def apply (B : Book) : Line → Book
  | .created _ id pw balance => { B with opened := B.opened.insert id (pw,balance) }
  | .deposited _ id _ amount => match B.opened.find id with
    | none => B
    | some (own,balance) => { B with opened := B.opened.set id (own,balance + amount) }
  | .withdrew _ id _ amount => match B.opened.find id with
    | none => B
    | some (own,balance) => { B with opened := B.opened.set id (own,balance - amount) }
  | .closed _ id _ => match B.opened.find id with
    | none => B
    | some (own,balance) => { B with opened := B.opened.erase id, closed := B.closed ++ [(id,own,balance)] }
  | .checked _ _ _ => B
  | .transferred _ amount src dest _ _ => match B.opened.find src with
    | none => B
    | some (own,balance) =>
      let withdrawn := B.opened.set src (own,balance - amount)
      match withdrawn.find dest with
      | none => B
      | some (other,target) => { B with opened := withdrawn.set dest (other,target + amount) }
  | .commission rate _ id => match B.opened.find id with
    | none => B
    | some (own,balance) =>
      { B with opened := B.opened.set id (own,balance - fee balance rate), bank := B.bank + fee balance rate }
  | .error _ _ => B

/-- All the money in the book. -/
def worth (B : Book) : Int := OrdMap.total (·.2) B.opened + B.bank
end Book

/-- A serial history from the empty book: the book it leads to and its lines. -/
inductive Serial : List Event → Book → List Line → Prop
  | nil : Serial [] .empty []
  | snoc {events : List Event} {B B' : Book} {lines : List Line} {e : Event} {line : Line} :
      Serial events B lines → B.exec e = some (B',line) → Serial (events ++ [e]) B' (lines ++ [line])

/-- The commands of an ATM in a history, in order. -/
def commandsOf (atm : Nat) (events : List Event) : List Command :=
  events.filterMap fun
    | .command i c => if i = atm then some c else none
    | .charge _ _ => none
/-- The ATM that wrote a line. -/
def writer : Line → Option Nat
  | .created atm _ _ _ | .deposited atm _ _ _ | .withdrew atm _ _ _ | .closed atm _ _ | .checked atm _ _
  | .transferred atm _ _ _ _ _ | .error atm _ => some atm
  | .commission _ _ _ => none
/-- The lines of an ATM in the log, in order. -/
def linesOf (atm : Nat) (lines : List Line) : List Line := lines.filter fun line => writer line = some atm
/-- What a line adds to the money in the bank: initial balances and deposits, less
    withdrawals and the balances paid out at closing. -/
def net : Line → Int
  | .created _ _ _ balance => balance
  | .deposited _ _ _ amount => amount
  | .withdrew _ _ _ amount => -amount
  | .closed _ _ balance => -balance
  | _ => 0
/-- The ids of the accounts closed, one for each closing. -/
def closings (lines : List Line) : List Int :=
  lines.filterMap fun
    | .closed _ id _ => some id
    | _ => none

/-- The account that a command is about, other than one it creates, and the
    password it gives for it. -/
def subject : Command → Option (Int × String)
  | .create_account _ _ _ => none
  | .deposit_to_account id pw _ | .withdrawl_from_account id pw _ | .balance_check id pw | .closing_account id pw
  | .transfer_between_accounts id pw _ _ => some (id,pw)
/-- The other account of a transfer. -/
def target : Command → Option Int
  | .transfer_between_accounts _ _ dest _ => some dest
  | _ => none

variable {B B' : Book} {e : Event} {line : Line} {events : List Event} {lines : List Line} {atm : Nat}

@[simp] theorem commandsOf_snoc_self (c : Command) :
    commandsOf atm (events ++ [.command atm c]) = commandsOf atm events ++ [c] := by
  simp [commandsOf]
theorem commandsOf_snoc_other {i : Nat} (other : i ≠ atm) (c : Command) :
    commandsOf atm (events ++ [.command i c]) = commandsOf atm events := by
  simp [commandsOf,other]
@[simp] theorem commandsOf_snoc_charge (rate : Nat) (id : Int) :
    commandsOf atm (events ++ [.charge rate id]) = commandsOf atm events := by
  simp [commandsOf]

theorem commandsOf_append (first second : List Event) :
    commandsOf atm (first ++ second) = commandsOf atm first ++ commandsOf atm second := List.filterMap_append ..
theorem mem_commandsOf {c : Command} : c ∈ commandsOf atm events ↔ .command atm c ∈ events := by
  unfold commandsOf
  rw [List.mem_filterMap]
  constructor
  · rintro ⟨e,member,is⟩
    cases e with
    | charge rate id => simp at is
    | command i d =>
      by_cases same : i = atm
      · subst same; simp only [if_pos,Option.some.injEq] at is; exact is ▸ member
      · simp [same] at is
  · exact fun member => ⟨_,member,by simp⟩

theorem linesOf_snoc_self (wrote : writer line = some atm) : linesOf atm (lines ++ [line]) = linesOf atm lines ++ [line] := by
  simp [linesOf,wrote]
theorem linesOf_snoc_other (wrote : writer line ≠ some atm) : linesOf atm (lines ++ [line]) = linesOf atm lines := by
  simp [linesOf,wrote]

theorem perform_absent {c : Command} {id : Int} {pw : String} (about : subject c = some (id,pw))
    (absent : B.opened.find id = none) : B.perform atm c = (B,.error atm (.does_not_exist id)) := by
  cases c <;> simp only [subject,reduceCtorEq,Option.some.injEq,Prod.mk.injEq] at about <;> obtain ⟨rfl,rfl⟩ := about <;>
    simp [Book.perform,Book.deposit,Book.withdraw,Book.check,Book.close,Book.transfer,absent]
theorem perform_incorrect {c : Command} {id balance : Int} {pw own : String} (about : subject c = some (id,pw))
    (found : B.opened.find id = some (own,balance)) (wrong : own ≠ pw)
    (others : ∀ dest, target c = some dest → (B.opened.find dest).isSome) :
    B.perform atm c = (B,.error atm (.incorrect_password id)) := by
  cases c with
  | create_account => cases about
  | transfer_between_accounts src key dest amount =>
    cases about
    obtain ⟨other,there⟩ := Option.isSome_iff_exists.mp (others dest rfl)
    simp [Book.perform,Book.transfer,found,there,wrong]
  | _ => cases about; simp [Book.perform,Book.deposit,Book.withdraw,Book.check,Book.close,found,wrong]

/-- A command about one account finds it under the password given, or fails. -/
theorem perform_found {c : Command} {id : Int} {pw : String} (about : subject c = some (id,pw)) (single : target c = none)
    (performed : B.perform atm c = (B',line)) :
    (B' = B ∧ ∃ reason, line = .error atm reason) ∨ ∃ balance, B.opened.find id = some (pw,balance) := by
  cases at_id : B.opened.find id with
  | none =>
    rw [perform_absent about at_id] at performed
    cases performed
    exact .inl ⟨rfl,_,rfl⟩
  | some x =>
    obtain ⟨own,balance⟩ := x
    by_cases right : own = pw
    · exact .inr ⟨balance,by rw [right]⟩
    · rw [perform_incorrect about at_id right (by simp [single])] at performed
      cases performed
      exact .inl ⟨rfl,_,rfl⟩

/-! ### What an event does -/

/-- The ways in which an event takes effect. An error leaves the book as it is. -/
inductive Step (B : Book) : Event → Book → Line → Prop
  | created {i : Nat} {id balance : Int} {pw : String} (absent : B.opened.find id = none) :
      Step B (.command i (.create_account id pw balance)) { B with opened := B.opened.insert id (pw,balance) }
        (.created i id pw balance)
  | deposited {i : Nat} {id balance amount : Int} {pw : String} (found : B.opened.find id = some (pw,balance)) :
      Step B (.command i (.deposit_to_account id pw amount))
        { B with opened := B.opened.set id (pw,balance + amount) } (.deposited i id (balance + amount) amount)
  | withdrew {i : Nat} {id balance amount : Int} {pw : String} (found : B.opened.find id = some (pw,balance))
      (enough : ¬ balance < amount) :
      Step B (.command i (.withdrawl_from_account id pw amount))
        { B with opened := B.opened.set id (pw,balance - amount) } (.withdrew i id (balance - amount) amount)
  | checked {i : Nat} {id balance : Int} {pw : String} (found : B.opened.find id = some (pw,balance)) :
      Step B (.command i (.balance_check id pw)) B (.checked i id balance)
  | closed {i : Nat} {id balance : Int} {pw : String} (found : B.opened.find id = some (pw,balance)) :
      Step B (.command i (.closing_account id pw))
        { B with opened := B.opened.erase id, closed := B.closed ++ [(id,pw,balance)] } (.closed i id balance)
  | transferred {i : Nat} {src dest balance target amount : Int} {pw other : String}
      (found : B.opened.find src = some (pw,balance))
      (there : (B.opened.set src (pw,balance - amount)).find dest = some (other,target)) (enough : ¬ balance < amount) :
      Step B (.command i (.transfer_between_accounts src pw dest amount))
        { B with opened := (B.opened.set src (pw,balance - amount)).set dest (other,target + amount) }
        (.transferred i amount src dest (balance - amount) (target + amount))
  | commission {rate : Nat} {id balance : Int} {pw : String} (found : B.opened.find id = some (pw,balance)) :
      Step B (.charge rate id)
        { B with opened := B.opened.set id (pw,balance - fee balance rate), bank := B.bank + fee balance rate }
        (.commission rate (fee balance rate) id)
  | error {i : Nat} {c : Command} {reason : Reason} : Step B (.command i c) B (.error i reason)

private theorem transfer_step {i : Nat} {src dest amount : Int} {pw : String} (executed : B.transfer i src pw dest amount = (B',line)) :
    Step B (.command i (.transfer_between_accounts src pw dest amount)) B' line := by
  simp only [Book.transfer] at executed
  cases at_src : B.opened.find src with
  | none => rw [at_src] at executed; cases executed; exact .error
  | some x =>
    cases at_dest : B.opened.find dest with
    | none => rw [at_src,at_dest] at executed; cases executed; exact .error
    | some y =>
      obtain ⟨own,balance⟩ := x
      obtain ⟨other,target⟩ := y
      simp only [at_src,at_dest] at executed
      by_cases right : own = pw
      · subst right
        by_cases lower : balance < amount
        · simp only [if_pos,lower] at executed; cases executed; exact .error
        · simp only [if_pos,if_neg lower] at executed
          cases executed
          refine .transferred at_src ?_ lower
          by_cases same : src = dest
          · subst same
            cases at_src.symm.trans at_dest
            rw [if_pos rfl]
            exact OrdMap.find_set_self at_src
          · rw [if_neg same,OrdMap.find_set_other (Ne.symm same)]
            exact at_dest
      · rw [if_neg right] at executed; cases executed; exact .error

theorem exec_step (executed : B.exec e = some (B',line)) : Step B e B' line := by
  cases e with
  | charge rate id =>
    obtain ⟨own,found,same⟩ := Option.map_eq_some_iff.mp executed
    cases same
    exact .commission found
  | command i c =>
    have performed : B.perform i c = (B',line) := Option.some.inj executed
    cases c with
    | transfer_between_accounts src pw dest amount => exact transfer_step performed
    | create_account id pw balance =>
      simp only [Book.perform,Book.create] at performed
      cases at_id : B.opened.find id with
      | none => rw [at_id] at performed; cases performed; exact .created at_id
      | some x => rw [at_id] at performed; cases performed; exact .error
    | deposit_to_account id pw amount =>
      rcases perform_found rfl rfl performed with ⟨rfl,reason,rfl⟩ | ⟨balance,found⟩
      · exact .error
      · simp only [Book.perform,Book.deposit,found,if_pos] at performed
        cases performed
        exact .deposited found
    | withdrawl_from_account id pw amount =>
      rcases perform_found rfl rfl performed with ⟨rfl,reason,rfl⟩ | ⟨balance,found⟩
      · exact .error
      · simp only [Book.perform,Book.withdraw,found,if_pos] at performed
        by_cases lower : balance < amount
        · rw [if_pos lower] at performed; cases performed; exact .error
        · rw [if_neg lower] at performed; cases performed; exact .withdrew found lower
    | balance_check id pw =>
      rcases perform_found rfl rfl performed with ⟨rfl,reason,rfl⟩ | ⟨balance,found⟩
      · exact .error
      · simp only [Book.perform,Book.check,found,if_pos] at performed
        cases performed
        exact .checked found
    | closing_account id pw =>
      rcases perform_found rfl rfl performed with ⟨rfl,reason,rfl⟩ | ⟨balance,found⟩
      · exact .error
      · simp only [Book.perform,Book.close,found,if_pos] at performed
        cases performed
        exact .closed found

theorem perform_step {i : Nat} {c : Command} : Step B (.command i c) (B.perform i c).1 (B.perform i c).2 := exec_step rfl
/-- The line of a command is the ATM's. -/
theorem Step.writer {i : Nat} {c : Command} (step : Step B (.command i c) B' line) : writer line = some i := by
  cases step <;> rfl

/-- The line of an event says all that the event does. -/
theorem Step.apply (step : Step B e B' line) : B.apply line = B' := by
  cases step with
  | created absent => rfl
  | deposited found => simp [Book.apply,found]
  | withdrew found enough => simp [Book.apply,found]
  | checked found => rfl
  | closed found => simp [Book.apply,found]
  | transferred found there enough => simp [Book.apply,found,there]
  | commission found => simp [Book.apply,found]
  | error => rfl

/-- An event changes the money in the book by what its line says. -/
theorem Step.worth (step : Step B e B' line) : B'.worth = B.worth + net line := by
  cases step with
  | created absent => simp [Book.worth,net,OrdMap.total_insert _ absent]; omega
  | deposited found => simp [Book.worth,net,OrdMap.total_set _ found]; omega
  | withdrew found enough => simp [Book.worth,net,OrdMap.total_set _ found]; omega
  | checked found => simp [net]
  | closed found =>
    have := OrdMap.total_erase (·.2) found
    simp only [Book.worth,net]
    omega
  | transferred found there enough =>
    simp [Book.worth,net,OrdMap.total_set _ there,OrdMap.total_set _ found]; omega
  | commission found => simp [Book.worth,net,OrdMap.total_set _ found]
  | error => simp [net]

/-! ### Whole histories -/

/-- The last line of a serial history is that of its last event. -/
theorem Serial.last (serial : Serial events B (lines ++ [line])) :
    ∃ earlier e A, events = earlier ++ [e] ∧ Serial earlier A lines ∧ A.exec e = some (B,line) := by
  generalize same : lines ++ [line] = all at serial
  cases serial with
  | nil => simp at same
  | snoc earlier executed =>
    obtain ⟨rfl,rfl⟩ := List.append_singleton_inj.mp same
    exact ⟨_,_,_,rfl,earlier,executed⟩
theorem Serial.length (serial : Serial events B lines) : events.length = lines.length := by
  induction serial with
  | nil => rfl
  | snoc _ _ ih => simp [ih]
/-- Executing the lines of a serial history leads to its book. -/
theorem Serial.replay (serial : Serial events B lines) : lines.foldl Book.apply .empty = B := by
  induction serial with
  | nil => rfl
  | snoc _ executed ih => rw [List.foldl_append,ih]; exact (exec_step executed).apply
/-- The money in the book is the sum of what the lines say. -/
theorem Serial.worth (serial : Serial events B lines) : B.worth = (lines.map net).sum := by
  induction serial with
  | nil => rfl
  | snoc _ executed ih => simp [(exec_step executed).worth,ih]
/-- The book has an entry for every closing in the log, in the order of the log. -/
theorem Serial.closings (serial : Serial events B lines) : B.closed.map (·.1) = closings lines := by
  induction serial with
  | nil => rfl
  | @snoc events B B' lines e line _ executed ih =>
    rw [AccountBook.closings,List.filterMap_append,← AccountBook.closings,← ih]
    cases exec_step executed with
    | closed found => simp
    | _ => simp
/-- The lines of an ATM are those of its commands, in order. -/
theorem Serial.linesOf (serial : Serial events B lines) (atm : Nat) :
    List.Forall₂ (fun c line => ∃ B : Book, (B.perform atm c).2 = line) (commandsOf atm events)
      (AccountBook.linesOf atm lines) := by
  induction serial with
  | nil => exact .nil
  | @snoc events B B' lines e line _ executed ih =>
    cases e with
    | charge rate id =>
      obtain ⟨own,_,same⟩ := Option.map_eq_some_iff.mp executed
      cases same
      rwa [commandsOf_snoc_charge,linesOf_snoc_other (by simp [writer])]
    | command i c =>
      simp only [Book.exec,Option.some.injEq] at executed
      have wrote : writer line = some i := by
        have step := perform_step (B := B) (i := i) (c := c)
        rw [executed] at step
        exact step.writer
      by_cases same : i = atm
      · subst same
        rw [commandsOf_snoc_self,linesOf_snoc_self wrote]
        exact List.rel_append ih (.cons ⟨B,by rw [executed]⟩ .nil)
      · rwa [commandsOf_snoc_other same,linesOf_snoc_other (by simp [wrote,same])]

/-- The log tells how many of its commands an ATM has completed. -/
theorem Serial.same_commands {others : List Event} {B' : Book} {file : List Command} (serial : Serial events B lines)
    (serial' : Serial others B' lines) (ordered : commandsOf atm events <+: file) (ordered' : commandsOf atm others <+: file) :
    commandsOf atm events = commandsOf atm others := by
  have same : (commandsOf atm events).length = (commandsOf atm others).length :=
    (serial.linesOf atm).length_eq.trans (serial'.linesOf atm).length_eq.symm
  exact (List.prefix_of_prefix_length_le ordered ordered' same.le).eq_of_length same

end StructureOfOs.AccountBook
