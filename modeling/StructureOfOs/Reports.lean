import StructureOfOs.Views

/-!
When a line of the log reports an event: for every exit of the operations and for
a charge, what a thread has to know at that point so that the event, performed on
the book at once, yields this very line and exactly the writes of the thread.
-/
namespace StructureOfOs.Reports
open StructureOfOs.BankState StructureOfOs.Atm StructureOfOs.Bank StructureOfOs.AccountBook StructureOfOs.Views

variable {g : View} {t : Tid} {B B' : Book} {i : Nat} {c : Command} {line : Line} {id : Int} {pw own : String} {r : Ref}

/-- No unlogged balance among the accounts looked up. -/
def Unchanged (g : View) : Prop :=
  g.change = .none ∧ g.CleanBank ∧ ∀ id r, g.looked id = some (some r) → g.Clean r

theorem unchanged_unread (settled : g.change = .none) (bank : g.bank = none) (unread : ∀ r, g.cell r = none) : Unchanged g := by
  refine ⟨settled,?_,?_⟩
  · intro c a known
    rw [bank] at known; cases known
  · intro id r _ c a known
    rw [unread r] at known; cases known

theorem commits_nothing (agrees : g.Agrees B) (unchanged : Unchanged g) : g.Commits B B := by
  obtain ⟨settled,bank,clean⟩ := unchanged
  refine ⟨fun id => ?_,by rw [settled],?_⟩
  · simp only [View.entry,settled]
    cases known : (g.looked id).bind fun it => it.bind g.cell with
    | none => rfl
    | some x =>
      obtain ⟨it,looked,read⟩ := Option.bind_eq_some_iff.mp known
      obtain ⟨r,rfl,read⟩ := Option.bind_eq_some_iff.mp read
      obtain ⟨p,a,found,_,balance⟩ := agrees.present id r looked
      have same : x.1 = a := (clean id r looked x.1 x.2 read).trans (balance x.1 x.2 read).symm
      simp [found,same]
  · cases read : g.bank with
    | none => rfl
    | some x => exact (agrees.bank x.1 x.2 read).trans (bank x.1 x.2 read).symm

/-- The ATM's next command, when it is performed on every book that agrees with the view. -/
theorem reports_command (is : t = .atm i) (next : g.todo.head? = some c)
    (performed : ∀ B, g.Agrees B → ∃ B', B.perform i c = (B',line) ∧ g.Commits B B') : g.Reports t line := by
  refine ⟨.command i c,⟨is,next⟩,fun B agrees => ?_⟩
  obtain ⟨B',performed,commits⟩ := performed B agrees
  exact ⟨B',by rw [Book.exec,performed],commits⟩

/-! ### The errors -/

theorem reports_absent (is : t = .atm i) (next : g.todo.head? = some c) (about : subject c = some (id,pw))
    (looked : g.looked id = some none) (unchanged : Unchanged g) :
    g.Reports t (.error i (.does_not_exist id)) := by
  refine reports_command is next fun B agrees => ⟨B,?_,commits_nothing agrees unchanged⟩
  exact perform_absent about (agrees.absent id looked)

theorem reports_incorrect (is : t = .atm i) (next : g.todo.head? = some c) (about : subject c = some (id,pw))
    (looked : g.looked id = some (some r)) (read : g.pw r = some own) (wrong : own ≠ pw)
    (others : ∀ dest, target c = some dest → ∃ q, g.looked dest = some (some q)) (unchanged : Unchanged g) :
    g.Reports t (.error i (.incorrect_password id)) := by
  refine reports_command is next fun B agrees => ⟨B,?_,commits_nothing agrees unchanged⟩
  obtain ⟨p,a,found,password,_⟩ := agrees.present id r looked
  refine perform_incorrect about (by rw [found,password own read]) wrong fun dest named => ?_
  obtain ⟨q,there⟩ := others dest named
  obtain ⟨p',a',found',_⟩ := agrees.present dest q there
  rw [found']; rfl

theorem reports_same_id {balance : Int} (is : t = .atm i) (next : g.todo.head? = some (.create_account id pw balance))
    (looked : g.looked id = some (some r)) (unchanged : Unchanged g) :
    g.Reports t (.error i .same_id_exists) := by
  refine reports_command is next fun B agrees => ⟨B,?_,commits_nothing agrees unchanged⟩
  obtain ⟨p,a,found,_⟩ := agrees.present id r looked
  simp [Book.perform,Book.create,found]

theorem reports_no_target {dest amount : Int} (is : t = .atm i)
    (next : g.todo.head? = some (.transfer_between_accounts id pw dest amount))
    (looked : g.looked id = some (some r)) (other : g.looked dest = some none) (unchanged : Unchanged g) :
    g.Reports t (.error i (.does_not_exist dest)) := by
  refine reports_command is next fun B agrees => ⟨B,?_,commits_nothing agrees unchanged⟩
  obtain ⟨p,a,found,_⟩ := agrees.present id r looked
  simp [Book.perform,Book.transfer,found,agrees.absent dest other]

theorem reports_lower (balance : Int) {amount : Int} (is : t = .atm i)
    (next : g.todo.head? = some (.withdrawl_from_account id pw amount)) (looked : g.looked id = some (some r))
    (password : g.pw r = some pw) (read : g.cell r = some (balance,balance)) (lower : balance < amount)
    (unchanged : Unchanged g) : g.Reports t (.error i (.lower_balance id amount)) := by
  refine reports_command is next fun B agrees => ⟨B,?_,commits_nothing agrees unchanged⟩
  obtain ⟨p,a,found,own,accounted⟩ := agrees.present id r looked
  rw [own pw password,accounted balance balance read] at found
  simp [Book.perform,Book.withdraw,found,lower]

theorem reports_transfer_lower (balance : Int) {dest amount : Int} {q : Ref} (is : t = .atm i)
    (next : g.todo.head? = some (.transfer_between_accounts id pw dest amount)) (looked : g.looked id = some (some r))
    (other : g.looked dest = some (some q)) (password : g.pw r = some pw) (read : g.cell r = some (balance,balance))
    (lower : balance < amount) (unchanged : Unchanged g) : g.Reports t (.error i (.lower_balance id amount)) := by
  refine reports_command is next fun B agrees => ⟨B,?_,commits_nothing agrees unchanged⟩
  obtain ⟨p,a,found,own,accounted⟩ := agrees.present id r looked
  obtain ⟨p',a',there,_⟩ := agrees.present dest q other
  rw [own pw password,accounted balance balance read] at found
  simp [Book.perform,Book.transfer,found,there,lower]

/-! ### The successes -/

/-- One account looked up, with a new balance. -/
theorem commits_balance {new old bank : Int} (settled : g.change = .none) (looked : g.looked id = some (some r))
    (only : ∀ key, key ≠ id → g.looked key = none) (read : g.cell r = some (new,old))
    (found : B.opened.find id = some (own,old)) (banked : bank = match g.bank with
      | some (c,_) => c
      | none => B.bank) :
    g.Commits B { B with opened := B.opened.set id (own,new), bank := bank } := by
  refine ⟨fun key => ?_,by rw [settled],banked⟩
  simp only [View.entry,settled]
  by_cases same : key = id
  · subst same
    simp [looked,read,found,OrdMap.find_set_self found]
  · simp [only key same,OrdMap.find_set_other same]

theorem reports_created {balance : Int} (is : t = .atm i) (next : g.todo.head? = some (.create_account id pw balance))
    (added : g.change = .added r id pw balance) (bank : g.bank = none) :
    g.Reports t (.created i id pw balance) := by
  refine reports_command is next fun B agrees => ?_
  have absent := agrees.added r id pw balance added
  refine ⟨{ B with opened := B.opened.insert id (pw,balance) },by simp [Book.perform,Book.create,absent],?_,?_,?_⟩
  · intro key
    simp only [View.entry,added]
    by_cases same : key = id
    · subst same; simp [OrdMap.find_insert_self absent]
    · simp [same,OrdMap.find_insert_other same]
  · rw [added]
  · rw [bank]

theorem reports_deposited {balance amount : Int} (is : t = .atm i)
    (next : g.todo.head? = some (.deposit_to_account id pw amount)) (looked : g.looked id = some (some r))
    (only : ∀ key, key ≠ id → g.looked key = none) (password : g.pw r = some pw)
    (read : g.cell r = some (balance + amount,balance)) (settled : g.change = .none) (bank : g.bank = none) :
    g.Reports t (.deposited i id (balance + amount) amount) := by
  refine reports_command is next fun B agrees => ?_
  obtain ⟨p,a,found,own,accounted⟩ := agrees.present id r looked
  rw [own pw password,accounted _ _ read] at found
  refine ⟨{ B with opened := B.opened.set id (pw,balance + amount) },by simp [Book.perform,Book.deposit,found],?_⟩
  exact commits_balance settled looked only read found (by rw [bank])

theorem reports_withdrew {balance amount : Int} (is : t = .atm i)
    (next : g.todo.head? = some (.withdrawl_from_account id pw amount)) (looked : g.looked id = some (some r))
    (only : ∀ key, key ≠ id → g.looked key = none) (password : g.pw r = some pw) (enough : ¬ balance < amount)
    (read : g.cell r = some (balance - amount,balance)) (settled : g.change = .none) (bank : g.bank = none) :
    g.Reports t (.withdrew i id (balance - amount) amount) := by
  refine reports_command is next fun B agrees => ?_
  obtain ⟨p,a,found,own,accounted⟩ := agrees.present id r looked
  rw [own pw password,accounted _ _ read] at found
  refine ⟨{ B with opened := B.opened.set id (pw,balance - amount) },by simp [Book.perform,Book.withdraw,found,enough],?_⟩
  exact commits_balance settled looked only read found (by rw [bank])

theorem reports_checked (balance : Int) (is : t = .atm i) (next : g.todo.head? = some (.balance_check id pw))
    (looked : g.looked id = some (some r)) (password : g.pw r = some pw) (read : g.cell r = some (balance,balance))
    (unchanged : Unchanged g) : g.Reports t (.checked i id balance) := by
  refine reports_command is next fun B agrees => ⟨B,?_,commits_nothing agrees unchanged⟩
  obtain ⟨p,a,found,own,accounted⟩ := agrees.present id r looked
  rw [own pw password,accounted _ _ read] at found
  simp [Book.perform,Book.check,found]

theorem reports_closed {balance : Int} (is : t = .atm i) (next : g.todo.head? = some (.closing_account id pw))
    (erased : g.change = .erased r id) (password : g.pw r = some pw) (read : g.cell r = some (balance,balance))
    (bank : g.bank = none) : g.Reports t (.closed i id balance) := by
  refine reports_command is next fun B agrees => ?_
  obtain ⟨p,a,found,own,accounted⟩ := agrees.erased r id erased
  rw [own pw password,accounted _ _ read] at found
  refine ⟨{ B with opened := B.opened.erase id, closed := B.closed ++ [(id,pw,balance)] },
    by simp [Book.perform,Book.close,found],?_,?_,?_⟩
  · intro key
    simp only [View.entry,erased]
    by_cases same : key = id
    · subst same; simp
    · simp [same,OrdMap.find_erase_other same]
  · rw [erased]
    exact ⟨pw,balance,password,read,rfl⟩
  · rw [bank]

/-- Both balances of a transfer between two accounts, in one step of the book. -/
theorem reports_transferred (balance other : Int) {amount dest : Int} {q : Ref} (is : t = .atm i)
    (next : g.todo.head? = some (.transfer_between_accounts id pw dest amount)) (apart : id ≠ dest)
    (looked : g.looked id = some (some r)) (there : g.looked dest = some (some q))
    (only : ∀ key, key ≠ id → key ≠ dest → g.looked key = none) (password : g.pw r = some pw)
    (enough : ¬ balance < amount) (read : g.cell r = some (balance - amount,balance))
    (readOther : g.cell q = some (other + amount,other)) (settled : g.change = .none) (bank : g.bank = none) :
    g.Reports t (.transferred i amount id dest (balance - amount) (other + amount)) := by
  refine reports_command is next fun B agrees => ?_
  obtain ⟨p,a,found,own,accounted⟩ := agrees.present id r looked
  obtain ⟨p',a',foundOther,_,accountedOther⟩ := agrees.present dest q there
  rw [own pw password,accounted _ _ read] at found
  rw [accountedOther _ _ readOther] at foundOther
  refine ⟨{ B with opened := (B.opened.set id (pw,balance - amount)).set dest (p',other + amount) },
    by simp [Book.perform,Book.transfer,found,foundOther,enough,apart],?_,?_,?_⟩
  · intro key
    simp only [View.entry,settled]
    have still : (B.opened.set id (pw,balance - amount)).find dest = some (p',other) := by
      rw [OrdMap.find_set_other (Ne.symm apart),foundOther]
    by_cases at_dest : key = dest
    · subst at_dest
      simp [there,readOther,foundOther,OrdMap.find_set_self still]
    · rw [OrdMap.find_set_other at_dest]
      by_cases at_src : key = id
      · subst at_src
        simp [looked,read,found,OrdMap.find_set_self found]
      · simp [only key at_src at_dest,OrdMap.find_set_other at_src]
  · rw [settled]
  · rw [bank]

/-- A charge, with the account's and the bank's balance. -/
theorem reports_commission {rate : Nat} (balance bank : Int) (is : t = .fee_collection)
    (looked : g.looked id = some (some r)) (only : ∀ key, key ≠ id → g.looked key = none)
    (read : g.cell r = some (balance - fee balance rate,balance)) (settled : g.change = .none)
    (banked : g.bank = some (bank + fee balance rate,bank)) :
    g.Reports t (.commission rate (fee balance rate) id) := by
  refine ⟨.charge rate id,is,fun B agrees => ?_⟩
  obtain ⟨p,a,found,_,accounted⟩ := agrees.present id r looked
  have accounted := accounted _ _ read
  subst accounted
  refine ⟨{ B with opened := B.opened.set id (p,a - fee a rate), bank := B.bank + fee a rate },
    by simp [Book.exec,found],commits_balance settled looked only read found ?_⟩
  rw [banked,agrees.bank _ _ banked]

end StructureOfOs.Reports
