import StructureOfOs.Effects
import StructureOfOs.MoneyRange

/-!
Who may take money from an account. Every operation that lowers the balance of the
account it is about compares the password first, but the target of a transfer is
never asked for one, and `withdrawl` refuses no negative amount: a transfer of a
negative amount takes money from its target. Nor is the credit compared with the
range of an `int`, so that an amount with no room for it takes the target's balance
out of the range. No other command does harm (`spares_unless_drains`).
-/
namespace StructureOfOs.Passwords
open StructureOfOs.Programs StructureOfOs.BankState StructureOfOs.Atm StructureOfOs.Bank StructureOfOs.AccountBook
open StructureOfOs.BankFollows StructureOfOs.SerialHistory StructureOfOs.Integers StructureOfOs.Effects StructureOfOs.Recordings
open StructureOfOs.MoneyRange (IntAmounts int_run note)

/-- The password that a command supplies. -/
def supplied : Command → String
  | .create_account _ pw _ | .deposit_to_account _ pw _ | .withdrawl_from_account _ pw _ | .balance_check _ pw
  | .closing_account _ pw | .transfer_between_accounts _ pw _ _ => pw
/-- Every account whose password is another one is still open, with that password
    and at least as much money. -/
def Spared (before after : Int → Option (String × Int)) (pw : String) : Prop :=
  ∀ id own balance, before id = some (own,balance) → own ≠ pw → ∃ left, after id = some (own,left) ∧ balance ≤ left
/-- A transfer that its source allows, to an account with another password, of an amount that
    is negative or that this account's balance has no room for. -/
def Drains (opened : Int → Option (String × Int)) : Command → Prop
  | .transfer_between_accounts src pw dest amount =>
      (∃ balance, opened src = some (pw,balance) ∧ amount ≤ balance) ∧
      ∃ own balance, opened dest = some (own,balance) ∧ own ≠ pw ∧ (amount < 0 ∨ ¬ InRange (balance + amount))
  | _ => False

variable {opened : Int → Option (String × Int)} {store : Int → Int} {B B' : Book} {i : Nat} {cmd : Command} {line : Line}
  {id src dest balance amount b : Int} {own pw : String} {events : List Event} {before after : List Line}

/-! ### On the open accounts -/

theorem credited_other {key : Int} (other : id ≠ key) : credited store opened key amount id = opened id :=
  Function.update_of_ne other ..
theorem credited_self (found : opened id = some (own,balance)) :
    credited store opened id amount id = some (own,store (balance + amount)) := by
  simp [credited,found]
/-- A command changes an account that has the password it supplies, and a transfer its target. -/
theorem performed_cases (store : Int → Int) (opened : Int → Option (String × Int)) (cmd : Command) :
    performed store opened cmd = opened ∨
    (∃ id e, opened id = none ∧ performed store opened cmd = Function.update opened id (some e)) ∨
    (∃ id b amount, opened id = some (supplied cmd,b) ∧ performed store opened cmd = credited store opened id amount) ∨
    (∃ id b, opened id = some (supplied cmd,b) ∧ performed store opened cmd = Function.update opened id none) ∨
    ∃ src pw dest amount b, cmd = .transfer_between_accounts src pw dest amount ∧ opened src = some (pw,b) ∧ amount ≤ b ∧
      performed store opened cmd = credited store (credited store opened src (-amount)) dest amount := by
  cases cmd with
  | create_account id pw balance =>
    by_cases absent : opened id = none
    · exact .inr (.inl ⟨id,_,absent,if_pos absent⟩)
    · exact .inl (if_neg absent)
  | deposit_to_account id pw amount =>
    cases found : opened id with
    | none => exact .inl (by simp [performed,found])
    | some e =>
      by_cases own : e.1 = pw
      · exact .inr (.inr (.inl ⟨id,e.2,amount,by rw [found,← own]; rfl,by simp [performed,found,own]⟩))
      · exact .inl (by simp [performed,found,own])
  | withdrawl_from_account id pw amount =>
    cases found : opened id with
    | none => exact .inl (by simp [performed,found])
    | some e =>
      by_cases own : e.1 = pw ∧ amount ≤ e.2
      · exact .inr (.inr (.inl ⟨id,e.2,-amount,by rw [found,← own.1]; rfl,by simp [performed,found,own]⟩))
      · exact .inl (by simp only [performed,found,if_neg own])
  | balance_check id pw => exact .inl rfl
  | closing_account id pw =>
    cases found : opened id with
    | none => exact .inl (by simp [performed,found])
    | some e =>
      by_cases own : e.1 = pw
      · exact .inr (.inr (.inr (.inl ⟨id,e.2,by rw [found,← own]; rfl,by simp [performed,found,own]⟩)))
      · exact .inl (by simp [performed,found,own])
  | transfer_between_accounts src pw dest amount =>
    cases found : opened src with
    | none => exact .inl (by simp [performed,found])
    | some e =>
      cases there : opened dest with
      | none => exact .inl (by simp [performed,found,there])
      | some e' =>
        by_cases own : e.1 = pw ∧ amount ≤ e.2
        · refine .inr (.inr (.inr (.inr ⟨src,pw,dest,amount,e.2,rfl,by rw [found,← own.1],own.2,?_⟩)))
          simp only [performed,found,there,if_pos own]
        · exact .inl (by simp only [performed,found,there,if_neg own])

/-- The target of a transfer has another password than the source, so it is another account. -/
theorem performed_target (store : Int → Int) (at_src : opened src = some (pw,b)) (enough : amount ≤ b)
    (at_dest : opened dest = some (own,balance)) (other : own ≠ pw) :
    performed store opened (.transfer_between_accounts src pw dest amount) dest = some (own,store (balance + amount)) := by
  have apart : dest ≠ src := by
    rintro rfl
    cases at_dest.symm.trans at_src
    exact other rfl
  simp only [performed,at_src,at_dest,enough,and_self,if_true]
  exact credited_self ((credited_other apart).trans at_dest)

/-- A command that does not supply an account's password leaves its money alone,
    unless it transfers to it what does not add to it. -/
theorem performed_keeps (store : Int → Int) (found : opened id = some (own,balance)) (other : own ≠ supplied cmd)
    (gains : ∀ src pw amount b, cmd = .transfer_between_accounts src pw id amount → opened src = some (pw,b) →
      amount ≤ b → balance ≤ store (balance + amount)) :
    ∃ left, performed store opened cmd id = some (own,left) ∧ balance ≤ left := by
  -- an account that is found with the password supplied is not this one
  have apart : ∀ {key : Int} {b : Int}, opened key = some (supplied cmd,b) → id ≠ key := by
    rintro key b there rfl
    cases found.symm.trans there
    exact other rfl
  have still : performed store opened cmd id = opened id →
      ∃ left, performed store opened cmd id = some (own,left) ∧ balance ≤ left :=
    fun same => ⟨balance,same.trans found,le_rfl⟩
  rcases performed_cases store opened cmd with same | ⟨key,e,absent,same⟩ | ⟨key,b,amount,there,same⟩ | ⟨key,b,there,same⟩ |
    ⟨src,pw,dest,amount,b,rfl,at_src,enough,same⟩
  · exact still (by rw [same])
  · refine still (same ▸ Function.update_of_ne ?_ ..)
    rintro rfl
    rw [found] at absent
    cases absent
  · exact still (same ▸ credited_other (apart there))
  · exact still (same ▸ Function.update_of_ne (apart there) ..)
  · have debited : credited store opened src (-amount) id = some (own,balance) := (credited_other (apart at_src)).trans found
    by_cases target : id = dest
    · subst target
      exact ⟨_,same ▸ credited_self debited,gains src pw amount b rfl at_src enough⟩
    · exact ⟨balance,same ▸ (credited_other target).trans debited,le_rfl⟩

/-- A command that drains nothing leaves the others' money alone, where a sum in range is stored as it is. -/
theorem harmless_spares (exact : ∀ v, InRange v → store v = v) (harmless : ¬ Drains opened cmd) :
    Spared opened (performed store opened cmd) (supplied cmd) := by
  intro id own balance found other
  refine performed_keeps store found other fun src pw amount b is at_src enough => ?_
  by_contra less
  subst is
  refine harmless ⟨⟨b,at_src,enough⟩,own,balance,found,other,?_⟩
  by_contra fits
  obtain ⟨above,range⟩ := not_or.mp fits
  rw [exact _ (Classical.not_not.mp range)] at less
  omega

/-- A command spares the accounts whose password it does not supply, in the exact sums and in what an
    `int` holds of them, exactly if it does not drain one. -/
theorem performed_spares (ints : IntAmounts cmd) (ranges : ∀ id own balance, opened id = some (own,balance) → InRange balance) :
    (Spared opened (performed (fun v => v) opened cmd) (supplied cmd) ∧ Spared opened (performed int opened cmd) (supplied cmd)) ↔
      ¬ Drains opened cmd := by
  refine ⟨fun ⟨exact,stored⟩ drains => ?_,fun harmless => ⟨harmless_spares (fun _ _ => rfl) harmless,
    harmless_spares (fun _ => int_of_inRange) harmless⟩⟩
  cases cmd with
  | transfer_between_accounts src pw dest amount =>
    obtain ⟨⟨b,at_src,enough⟩,own,balance,at_dest,other,taken⟩ := drains
    by_cases negative : amount < 0
    · obtain ⟨left,after,atLeast⟩ := exact dest own balance at_dest other
      cases (performed_target _ at_src enough at_dest other).symm.trans after
      omega
    · obtain ⟨left,after,atLeast⟩ := stored dest own balance at_dest other
      cases (performed_target _ at_src enough at_dest other).symm.trans after
      have := int_exceeded (ranges dest own balance at_dest) ints (by omega) (taken.resolve_left negative)
      omega
  | _ => exact drains

/-- Where the sums have stayed in range, the exact ones tell it alone. -/
theorem performed_spares_exact
    (ranges : ∀ id own balance, performed (fun v => v) opened cmd id = some (own,balance) → InRange balance) :
    Spared opened (performed (fun v => v) opened cmd) (supplied cmd) ↔ ¬ Drains opened cmd := by
  refine ⟨fun spared drains => ?_,harmless_spares fun _ _ => rfl⟩
  cases cmd with
  | transfer_between_accounts src pw dest amount =>
    obtain ⟨⟨b,at_src,enough⟩,own,balance,at_dest,other,taken⟩ := drains
    have target := performed_target (fun v => v) at_src enough at_dest other
    obtain ⟨left,after,atLeast⟩ := spared dest own balance at_dest other
    cases target.symm.trans after
    have := taken.resolve_right (fun exceeds => exceeds (ranges dest own _ target))
    omega
  | _ => exact drains

/-! ### On the account book -/

theorem find_credited {m : OrdMap Int (String × Int)} (found : m.find id = some (own,balance)) :
    (m.set id (own,balance + amount)).find = credited (fun v => v) m.find id amount := by
  funext key
  by_cases same : key = id
  · subst same
    rw [credited_self found,OrdMap.find_set_self found]
  · rw [credited_other same,OrdMap.find_set_other same]
/-- The account book has the effect that a command has with exact sums. -/
theorem book_performed (B : Book) (i : Nat) (cmd : Command) :
    (B.perform i cmd).1.opened.find = performed (fun v => v) B.opened.find cmd := by
  cases cmd with
  | create_account id pw balance =>
    cases found : B.opened.find id with
    | none =>
      funext key
      by_cases same : key = id
      · subst same; simp [Book.perform,Book.create,performed,found,OrdMap.find_insert_self]
      · simp [Book.perform,Book.create,performed,found,same,OrdMap.find_insert_other]
    | some e => simp [Book.perform,Book.create,performed,found]
  | deposit_to_account id pw amount =>
    cases found : B.opened.find id with
    | none => simp [Book.perform,Book.deposit,performed,found]
    | some e =>
      obtain ⟨own,balance⟩ := e
      by_cases right : own = pw
      · subst right; simp [Book.perform,Book.deposit,performed,found,find_credited found]
      · simp [Book.perform,Book.deposit,performed,found,right]
  | withdrawl_from_account id pw amount =>
    cases found : B.opened.find id with
    | none => simp [Book.perform,Book.withdraw,performed,found]
    | some e =>
      obtain ⟨own,balance⟩ := e
      by_cases right : own = pw
      · subst right
        by_cases short : balance < amount
        · simp [Book.perform,Book.withdraw,performed,found,short]
        · simp [Book.perform,Book.withdraw,performed,found,short,Int.not_lt.mp short,Int.sub_eq_add_neg,find_credited found]
      · simp [Book.perform,Book.withdraw,performed,found,right]
  | balance_check id pw =>
    cases found : B.opened.find id with
    | none => simp [Book.perform,Book.check,performed,found]
    | some e =>
      obtain ⟨own,balance⟩ := e
      by_cases right : own = pw <;> simp [Book.perform,Book.check,performed,found,right]
  | closing_account id pw =>
    cases found : B.opened.find id with
    | none => simp [Book.perform,Book.close,performed,found]
    | some e =>
      obtain ⟨own,balance⟩ := e
      by_cases right : own = pw
      · funext key
        simp [Book.perform,Book.close,performed,found,right,OrdMap.find_erase,Function.update_apply]
      · simp [Book.perform,Book.close,performed,found,right]
  | transfer_between_accounts src pw dest amount =>
    cases at_src : B.opened.find src with
    | none => simp [Book.perform,Book.transfer,performed,at_src]
    | some e =>
      obtain ⟨own,balance⟩ := e
      cases at_dest : B.opened.find dest with
      | none => simp [Book.perform,Book.transfer,performed,at_src,at_dest]
      | some e' =>
        obtain ⟨other,target⟩ := e'
        by_cases right : own = pw
        · subst right
          by_cases short : balance < amount
          · simp [Book.perform,Book.transfer,performed,at_src,at_dest,short]
          · have debited : (B.opened.set src (own,balance - amount)).find dest =
                some (other,if src = dest then balance - amount else target) := by
              by_cases same : src = dest
              · subst same
                cases at_src.symm.trans at_dest
                rw [OrdMap.find_set_self at_src,if_pos rfl]
              · rw [OrdMap.find_set_other (Ne.symm same),if_neg same,at_dest]
            simp only [Book.perform,Book.transfer,performed,at_src,at_dest,if_pos,if_neg short,Int.not_lt.mp short,and_self]
            rw [find_credited debited,Int.sub_eq_add_neg,find_credited at_src]
        · simp [Book.perform,Book.transfer,performed,at_src,at_dest,right]

theorem charge_keeps {rate : Nat} {key : Int} (step : Step B (.charge rate key) B' line) (other : id ≠ key) :
    B'.opened.find id = B.opened.find id := by
  cases step with
  | commission there => exact OrdMap.find_set_other other

/-- What an event must not do to an account with a password that it does not know. -/
def Harmless (id : Int) (own : String) : Event → Prop
  | .command _ cmd => own ≠ supplied cmd ∧ ∀ src pw amount, cmd = .transfer_between_accounts src pw id amount → 0 ≤ amount
  | .charge _ key => id ≠ key

/-- An account keeps its money through the lines of the log whose events are harmless to it. -/
theorem serial_keeps (serial : Serial events B (before ++ after)) :
    ∃ first rest A, events = first ++ rest ∧ Serial first A before ∧
      (∀ rate key, .charge rate key ∈ rest → ∃ fee, .commission rate fee key ∈ after) ∧
      ∀ id own balance, A.opened.find id = some (own,balance) → (∀ e ∈ rest, Harmless id own e) →
        ∃ left, B.opened.find id = some (own,left) ∧ balance ≤ left := by
  induction after using List.reverseRecOn generalizing events B with
  | nil => exact ⟨events,[],B,by simp,by simpa using serial,by simp,fun id own balance found _ => ⟨balance,found,le_rfl⟩⟩
  | append_singleton after line ih =>
    rw [← List.append_assoc] at serial
    obtain ⟨earlier,e,M,rfl,serial,executed⟩ := serial.last
    obtain ⟨first,rest,A,rfl,start,charges,keeps⟩ := ih serial
    refine ⟨first,rest ++ [e],A,by simp,start,fun rate key member => ?_,fun id own balance found harmless => ?_⟩
    · rcases List.mem_append.mp member with early | last
      · obtain ⟨fee,there⟩ := charges rate key early
        exact ⟨fee,List.mem_append_left _ there⟩
      · cases List.mem_singleton.mp last
        cases exec_step executed with
        | commission there => exact ⟨_,List.mem_append_right after (List.mem_singleton_self _)⟩
    · obtain ⟨middle,at_middle,below⟩ := keeps id own balance found fun e member => harmless e (by simp [member])
      have safe := harmless e (by simp)
      cases e with
      | charge rate key => exact ⟨middle,(charge_keeps (exec_step executed) safe).trans at_middle,below⟩
      | command i cmd =>
        have performs : M.perform i cmd = (B,line) := Option.some.inj executed
        obtain ⟨left,at_left,above⟩ := performed_keeps (fun v => v) at_middle safe.1 fun src pw amount b is _ _ =>
          Int.le_add_of_nonneg_right (safe.2 src pw amount is)
        rw [← book_performed M i cmd,performs] at at_left
        exact ⟨left,at_left,below.trans above⟩

/-! ### On the bank -/

/-- The open accounts with their passwords and balances. -/
def accounts (s : Shared) (id : Int) : Option (String × Int) :=
  (s.map_of_accounts.find id).map fun r => ((s.account r).password,(s.account r).balance)
/-- The ATM has run the command on the way from one state to the other. -/
def Performed (c d : Config) (i : Nat) (cmd : Command) : Prop :=
  ∃ point point' done, (c.thread (.atm i)).prog = .ret point ∧ (d.thread (.atm i)).prog = .ret point' ∧
    remaining point = done ++ remaining point' ∧ cmd ∈ done

variable {n : Nat} {files : Nat → List Command} {rand : Nat → Nat} {c d : Config} {rest : List Command}

theorem accounts_of_matches {s : Shared} (matched : Matches s B) : B.opened.find = accounts s := funext matched.1

/-- In a state that the bank reaches, the accounts are in order, or the list is closed to commands. -/
theorem tidy_or_closed (reachable : Reachable n files rand c) : (data c.shared).Tidy ∨ Closed c.shared := by
  obtain ⟨V,⟨Γ,G,L⟩,_⟩ := reachable_holds (S := anyFiles files) reachable
  by_cases settled : Γ.change = .none
  · refine .inl ⟨fun id r there => (G.entries id r there).1,fun id r there => (G.entries id r there).2.1,fun id r there => ?_⟩
    by_contra flagged
    have changing := (G.entries id r there).2.2.2 (Bool.eq_true_of_not_eq_false flagged)
    rw [settled] at changing
    cases changing
  · obtain ⟨t,same⟩ := G.changed settled
    rcases (L t).2.change with none | ⟨_,writes,_⟩
    · exact absurd (same.symm.trans none) settled
    · rw [(L t).1.phase] at writes
      exact .inr (closed_of_writing (G.locks .account_list) writes)
/-- A command that runs by itself in a state that the bank reaches leaves the accounts as said. -/
theorem accounts_performed (reachable : Reachable n files rand c) {s : Shared}
    (ran : (perform i cmd).exec (run_storing store (.atm i)) c.shared = some ((),s)) :
    accounts s = performed store (accounts c.shared) cmd := by
  rcases tidy_or_closed reachable with tidy | closed
  · exact exec_performed tidy ran
  · rw [perform_blocked cmd closed] at ran
    cases ran

/-- The history between two quiescent states: it leads from the one's accounts to
    the other's, and consists of the commands that the ATMs have run and of charges. -/
theorem history_between (reachable : Reachable n files rand c) (quiet : Quiescent c) (reached : (bank n).Reaches c d)
    (quiet' : Quiescent d) {lines : List Line} (wrote : d.shared.log = c.shared.log ++ lines) :
    ∃ first A hist B, Serial (first ++ hist) B (c.shared.log ++ lines) ∧ Serial first A c.shared.log ∧
      A.opened.find = accounts c.shared ∧ B.opened.find = accounts d.shared ∧
      (∀ rate key, .charge rate key ∈ hist → ∃ fee, .commission rate fee key ∈ lines) ∧
      (∀ i point point', (c.thread (.atm i)).prog = .ret point → (d.thread (.atm i)).prog = .ret point' →
        remaining point = commandsOf i hist ++ remaining point') ∧
      ∀ id own balance, A.opened.find id = some (own,balance) → (∀ e ∈ hist, Harmless id own e) →
        ∃ left, B.opened.find id = some (own,left) ∧ balance ≤ left := by
  obtain ⟨histC,BC,serialC,orderC,doneC,matchesC⟩ := commands_done (reachable_holds (S := anyFiles files) reachable)
  obtain ⟨histD,B,serialD,orderD,doneD,matchesD⟩ :=
    commands_done (reachable_holds (S := anyFiles files) (reachable.trans reached))
  rw [wrote] at serialD
  obtain ⟨first,hist,A,rfl,start,charges,keeps⟩ := serial_keeps serialD
  have same : A = BC := start.replay.symm.trans serialC.replay
  refine ⟨first,A,hist,B,serialD,start,same ▸ accounts_of_matches (matchesC quiet),accounts_of_matches (matchesD quiet'),
    charges,fun i point point' at_c at_d => ?_,keeps⟩
  have before := doneC i point at_c
  have after := doneD i point' at_d
  have ordered := orderD i
  rw [commandsOf_append] at after ordered
  rw [serialC.same_commands start (orderC i) ((List.prefix_append _ _).trans ordered),← after,List.append_assoc] at before
  exact List.append_cancel_left before

theorem run_exact (t : Tid) : run_storing (fun v => v) t = run t := by
  funext a s
  cases a <;> rfl
theorem run_int (t : Tid) : run_storing int t = int_run t := by
  funext a s
  cases a <;> rfl

variable {first more : List Tid} {e e' : Programs.Config Tid (Shared × MoneyRange.Record) Act Res Ctl}

theorem ran_reachable (ran : MoneyRange.Ran n files rand first e) : Reachable n files rand (forget e) := by
  have runs : ((recording (bank n) note).runs first (attach (initial files rand) (.initial files))).map forget = _ :=
    forget_runs first _
  rw [show (recording (bank n) note).runs first _ = some e from ran] at runs
  exact ⟨first,runs.symm⟩
theorem ran_reaches (ran : MoneyRange.Ran n files rand first e) (ran' : MoneyRange.Ran n files rand (first ++ more) e') :
    (bank n).Reaches (forget e) (forget e') := by
  have after : (recording (bank n) note).runs more e = some e' := by
    have both : (recording (bank n) note).runs (first ++ more) _ = some e' := ran'
    rwa [runs_append,show (recording (bank n) note).runs first _ = some e from ran] at both
  exact ⟨more,by rw [← forget_runs,after]; rfl⟩
theorem accounts_inRange {s : Shared} (ranges : ∀ r, InRange (s.account r).balance) (found : accounts s id = some (own,balance)) :
    InRange balance := by
  obtain ⟨r,_,same⟩ := Option.map_eq_some_iff.mp found
  cases same
  exact ranges r

/-- A command that an ATM runs by itself, by exact sums and by what an `int` holds of them. -/
theorem lone_command_spares (ints : ∀ i, ∀ cmd ∈ files i, IntAmounts cmd) (ran : MoneyRange.Ran n files rand first e)
    (exact : e.shared.2.exact = true) {s s' : Shared} (own : IntAmounts cmd)
    (alone : (perform i cmd).exec (run (.atm i)) e.shared.1 = some ((),s))
    (stored : (perform i cmd).exec (int_run (.atm i)) e.shared.1 = some ((),s')) :
    Spared (accounts e.shared.1) (accounts s) (supplied cmd) ∧ Spared (accounts e.shared.1) (accounts s') (supplied cmd) ↔
      ¬ Drains (accounts e.shared.1) cmd := by
  have reachable := ran_reachable ran
  rw [← run_exact] at alone
  rw [← run_int] at stored
  have after : accounts s = _ := accounts_performed reachable alone
  have after' : accounts s' = _ := accounts_performed reachable stored
  rw [after,after']
  exact performed_spares own fun id own balance => accounts_inRange (MoneyRange.balances_inRange ints ran exact).1

section
variable (ints : ∀ i, ∀ cmd ∈ files i, IntAmounts cmd) (ran : MoneyRange.Ran n files rand first e)
  (ran' : MoneyRange.Ran n files rand (first ++ more) e') (exact' : e'.shared.2.exact = true)
  (quiet : Quiescent (forget e)) (quiet' : Quiescent (forget e'))
include ran ran' quiet quiet'

include ints exact' in
/-- One command between two states with nothing under way, among the steps of other threads. -/
theorem one_command_spares (at_e : (e.thread (.atm i)).prog = .ret (.parser_file (cmd :: rest)))
    (at_e' : (e'.thread (.atm i)).prog = .ret (.parser_file rest)) (wrote : e'.shared.1.log = e.shared.1.log ++ [line]) :
    Spared (accounts e.shared.1) (accounts e'.shared.1) (supplied cmd) ↔ ¬ Drains (accounts e.shared.1) cmd := by
  obtain ⟨first,A,hist,B,serial,start,atE,atE',_,between,_⟩ :=
    history_between (ran_reachable ran) quiet (ran_reaches ran ran') quiet' wrote
  have done : [cmd] ++ rest = commandsOf i hist ++ rest := between i _ _ at_e at_e'
  -- one line, so one event, and it is the command
  obtain ⟨earlier,event,A',split,serial',executed⟩ := serial.last
  obtain ⟨rfl,rfl⟩ := List.append_inj split (start.length.trans serial'.length.symm)
  have member : cmd ∈ commandsOf i [event] := by
    rw [← List.append_cancel_right done]
    exact List.mem_cons_self ..
  cases List.mem_singleton.mp (mem_commandsOf.mp member)
  have performs : A'.perform i cmd = (B,line) := Option.some.inj executed
  have same : A = A' := start.replay.symm.trans serial'.replay
  have after : accounts e'.shared.1 = performed (fun v => v) (accounts e.shared.1) cmd := by
    have book := book_performed A' i cmd
    rw [performs,← same] at book
    exact (atE'.symm.trans book).trans (by rw [atE]; rfl)
  rw [after]
  refine performed_spares_exact fun id own balance found => ?_
  rw [← after] at found
  exact accounts_inRange (MoneyRange.balances_inRange ints ran' exact').1 found
/-- Any commands between two such states. -/
theorem commands_keep {lines : List Line} (found : accounts e.shared.1 id = some (own,balance))
    (wrote : e'.shared.1.log = e.shared.1.log ++ lines)
    (untouched : ∀ i cmd, Performed (forget e) (forget e') i cmd → own ≠ supplied cmd ∧
      ∀ src pw amount, cmd = .transfer_between_accounts src pw id amount → 0 ≤ amount)
    (uncharged : ∀ rate fee, .commission rate fee id ∉ lines) : ∃ left, accounts e'.shared.1 id = some (own,left) ∧ balance ≤ left := by
  obtain ⟨first,A,hist,B,serial,start,atE,atE',charges,between,keeps⟩ :=
    history_between (ran_reachable ran) quiet (ran_reaches ran ran') quiet' wrote
  have found : A.opened.find id = some (own,balance) := atE ▸ found
  have kept := keeps id own balance found fun event member => ?_
  · rwa [atE'] at kept
  cases event with
  | charge rate key =>
    rintro rfl
    obtain ⟨fee,there⟩ := charges rate id member
    exact uncharged rate fee there
  | command i cmd =>
    obtain ⟨point,at_e⟩ := Prog.returned_iff.mp (quiet.1 i)
    obtain ⟨point',at_e'⟩ := Prog.returned_iff.mp (quiet'.1 i)
    exact untouched i cmd ⟨point,point',_,at_e,at_e',between i point point' at_e at_e',mem_commandsOf.mpr member⟩
end

/-- In every state that the bank reaches with its sums in range, a command that an ATM runs by
    itself spares the accounts whose password it does not supply, in the exact sums and in what an
    `int` holds of them, exactly if it does not drain one. From there to another such state, both
    with no operation and no charge under way: if one command alone was run, whatever the other
    threads did, it spared them exactly if it did not drain one; and whatever was run, an account
    keeps its money if no command supplied its password, none transferred a negative amount to it
    and no fee was charged on it. -/
theorem spares_unless_drains (ints : ∀ i, ∀ cmd ∈ files i, IntAmounts cmd) (ran : MoneyRange.Ran n files rand first e)
    (exact : e.shared.2.exact = true) :
    (∀ i cmd s s', IntAmounts cmd → (perform i cmd).exec (run (.atm i)) e.shared.1 = some ((),s) →
      (perform i cmd).exec (int_run (.atm i)) e.shared.1 = some ((),s') →
      (Spared (accounts e.shared.1) (accounts s) (supplied cmd) ∧ Spared (accounts e.shared.1) (accounts s') (supplied cmd) ↔
        ¬ Drains (accounts e.shared.1) cmd)) ∧
    ∀ more e', MoneyRange.Ran n files rand (first ++ more) e' → e'.shared.2.exact = true →
      Quiescent (forget e) → Quiescent (forget e') →
      (∀ i cmd rest line, (e.thread (.atm i)).prog = .ret (.parser_file (cmd :: rest)) →
        (e'.thread (.atm i)).prog = .ret (.parser_file rest) → e'.shared.1.log = e.shared.1.log ++ [line] →
        (Spared (accounts e.shared.1) (accounts e'.shared.1) (supplied cmd) ↔ ¬ Drains (accounts e.shared.1) cmd)) ∧
      ∀ id own balance lines, accounts e.shared.1 id = some (own,balance) → e'.shared.1.log = e.shared.1.log ++ lines →
        (∀ i cmd, Performed (forget e) (forget e') i cmd → own ≠ supplied cmd ∧
          ∀ src pw amount, cmd = .transfer_between_accounts src pw id amount → 0 ≤ amount) →
        (∀ rate fee, .commission rate fee id ∉ lines) →
        ∃ left, accounts e'.shared.1 id = some (own,left) ∧ balance ≤ left := by
  refine ⟨fun i cmd s s' own alone stored => lone_command_spares ints ran exact own alone stored,
    fun more e' ran' exact' quiet quiet' => ⟨?_,?_⟩⟩
  · intro i cmd rest line at_e at_e' wrote
    exact one_command_spares ints ran ran' exact' quiet quiet' at_e at_e' wrote
  · intro id own balance lines found wrote untouched uncharged
    exact commands_keep ran ran' quiet quiet' found wrote untouched uncharged

/-! ### The draining transfer -/

/-- The bank with its record after a number of steps of the ATM that opens two accounts and then
    transfers a negative amount. -/
def draining (steps : Nat) : Option (Programs.Config Tid (Shared × MoneyRange.Record) Act Res Ctl) :=
  (recording (bank 1) note).runs (List.replicate steps (.atm 1)) (attach (initial drainingFiles fun _ => 0) (.initial drainingFiles))
theorem opened_ends : (draining 28).isSome = true := by decide
theorem drained_ends : (draining 63).isSome = true := by decide
/-- Before the transfer and after it. -/
def two_opened : Programs.Config Tid (Shared × MoneyRange.Record) Act Res Ctl := (draining 28).get opened_ends
def drained : Programs.Config Tid (Shared × MoneyRange.Record) Act Res Ctl := (draining 63).get drained_ends

theorem opened_ran : MoneyRange.Ran 1 drainingFiles (fun _ => 0) (List.replicate 28 (.atm 1)) two_opened :=
  (Option.some_get opened_ends).symm
theorem drained_ran : MoneyRange.Ran 1 drainingFiles (fun _ => 0) (List.replicate 28 (.atm 1) ++ List.replicate 35 (.atm 1)) drained := by
  rw [← List.replicate_add]
  exact (Option.some_get drained_ends).symm
theorem draining_runs {steps : Nat} {e : Programs.Config Tid (Shared × MoneyRange.Record) Act Res Ctl} (ran : draining steps = some e) :
    (bank 1).runs (List.replicate steps (.atm 1)) (initial drainingFiles fun _ => 0) = some (forget e) :=
  (forget_runs _ _).symm.trans (congrArg (Option.map forget) ran)
theorem opened_quiet : Quiescent (forget two_opened) := solo_quiet (draining_runs (Option.some_get opened_ends).symm) rfl
theorem drained_quiet : Quiescent (forget drained) := solo_quiet (draining_runs (Option.some_get drained_ends).symm) rfl

/-- Account 2 has lost money to a command that does not supply its password. -/
theorem transfer_takes_money : ¬ ∀ n files rand c d i cmd rest line, Reachable n files rand c → Quiescent c →
    (bank n).Reaches c d → Quiescent d → (c.thread (.atm i)).prog = .ret (.parser_file (cmd :: rest)) →
    (d.thread (.atm i)).prog = .ret (.parser_file rest) → d.shared.log = c.shared.log ++ [line] →
    Spared (accounts c.shared) (accounts d.shared) (supplied cmd) := by
  intro claimed
  have spared := claimed 1 drainingFiles (fun _ => 0) (forget two_opened) (forget drained) 1 _ [] _ (ran_reachable opened_ran) opened_quiet
    (ran_reaches opened_ran drained_ran) drained_quiet rfl rfl rfl
  obtain ⟨left,after,atLeast⟩ := spared 2 "b" 10 rfl (by decide)
  have lost : accounts drained.shared.1 2 = some ("b",5) := rfl
  cases lost.symm.trans after
  omega

theorem draining_ints : ∀ i, ∀ cmd ∈ drainingFiles i, IntAmounts cmd := by
  intro i
  unfold drainingFiles
  split <;> simp [IntAmounts,InRange,INT_MIN,INT_MAX]
/-- The transfer of the file. -/
def negative_transfer : Command := .transfer_between_accounts 1 "a" 2 (-5)
theorem alone_ends : ((perform 1 negative_transfer).exec (run (.atm 1)) two_opened.shared.1).isSome = true := by decide
theorem stored_ends : ((perform 1 negative_transfer).exec (int_run (.atm 1)) two_opened.shared.1).isSome = true := by decide
theorem spares_unless_drains_opened :
    (Spared (accounts two_opened.shared.1) (accounts (Option.get _ alone_ends).2) "a" ∧
        Spared (accounts two_opened.shared.1) (accounts (Option.get _ stored_ends).2) "a" ↔
      ¬ Drains (accounts two_opened.shared.1) negative_transfer) ∧
    (Spared (accounts two_opened.shared.1) (accounts drained.shared.1) "a" ↔
      ¬ Drains (accounts two_opened.shared.1) negative_transfer) :=
  have both := spares_unless_drains draining_ints opened_ran rfl
  have own : IntAmounts negative_transfer := by simp [negative_transfer,IntAmounts,InRange,INT_MIN,INT_MAX]
  ⟨both.1 1 negative_transfer _ _ own (Option.some_get alone_ends).symm (Option.some_get stored_ends).symm,
    (both.2 _ _ drained_ran rfl opened_quiet drained_quiet).1 1 negative_transfer [] _ rfl rfl rfl⟩

end StructureOfOs.Passwords
