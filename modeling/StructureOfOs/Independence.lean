import StructureOfOs.ClosedAccounts
import StructureOfOs.Passwords

/-!
ATMs that name no account id in common. A command looks only at what the account
book says of the ids it names and changes nothing else, so in any serial history
the lines of an ATM, and what the book says of its ids, are what they would be if
the ATM worked alone (`serial_alone`). Hence the schedule does not matter
(`independent_runs_agree`).
-/
namespace StructureOfOs.Independence
open StructureOfOs.Programs StructureOfOs.BankState StructureOfOs.Atm StructureOfOs.Bank StructureOfOs.AccountBook
open StructureOfOs.Views StructureOfOs.BankInvariant StructureOfOs.BankFollows StructureOfOs.SerialHistory
open StructureOfOs.ClosedAccounts StructureOfOs.Passwords

/-- The ids that a command names. -/
def Mentions : Command → Int → Prop
  | .transfer_between_accounts src _ dest _, id => id = src ∨ id = dest
  | .create_account key _ _, id | .deposit_to_account key _ _, id | .withdrawl_from_account key _ _, id
  | .balance_check key _, id | .closing_account key _, id => id = key
/-- No two ATMs name the same id. -/
def Apart (files : Nat → List Command) : Prop :=
  ∀ i j, i ≠ j → ∀ cmd ∈ files i, ∀ other ∈ files j, ∀ id, Mentions cmd id → ¬ Mentions other id

/-- No other ATM names the id. -/
def OwnedBy (files : Nat → List Command) (i : Nat) (id : Int) : Prop :=
  ∀ j, j ≠ i → ∀ cmd ∈ files j, ¬ Mentions cmd id

/-- What the book says of an id: the account open under it, and those closed. -/
def page (B : Book) (id : Int) : Option (String × Int) × List (Int × String × Int) :=
  (B.opened.find id,B.closed.filter (·.1 = id))
/-- The book and the lines of an ATM that works alone. -/
def alone (i : Nat) (commands : List Command) : Book × List Line :=
  commands.foldl (fun out cmd => ((out.1.perform i cmd).1,out.2 ++ [(out.1.perform i cmd).2])) (.empty,[])

variable {A B : Book} {i : Nat} {cmd : Command} {id : Int} {files : Nat → List Command} {hist : List Event}
  {lines : List Line}

theorem alone_snoc (commands : List Command) : alone i (commands ++ [cmd]) =
    (((alone i commands).1.perform i cmd).1,(alone i commands).2 ++ [((alone i commands).1.perform i cmd).2]) := by
  simp [alone]

/-! ### One command -/

/-- A command does not touch the ids that it does not name. -/
theorem perform_frame (unnamed : ¬ Mentions cmd id) : page (B.perform i cmd).1 id = page B id := by
  have step := perform_step (B := B) (i := i) (c := cmd)
  generalize (B.perform i cmd).1 = after at step
  generalize (B.perform i cmd).2 = line at step
  cases step with
  | created absent => exact Prod.ext (OrdMap.find_insert_other unnamed) rfl
  | deposited found => exact Prod.ext (OrdMap.find_set_other unnamed) rfl
  | withdrew found enough => exact Prod.ext (OrdMap.find_set_other unnamed) rfl
  | checked found => rfl
  | closed found =>
    refine Prod.ext (OrdMap.find_erase_other unnamed) ?_
    have other : ¬ _ = id := fun same => unnamed same.symm
    simp [page,List.filter_append,other]
  | transferred found there enough =>
    obtain ⟨notSource,notTarget⟩ := not_or.mp unnamed
    exact Prod.ext ((OrdMap.find_set_other notTarget).trans (OrdMap.find_set_other notSource)) rfl
  | error => rfl

theorem page_set {key : Int} {v : String × Int} (at_key : A.opened.find key = B.opened.find key)
    (same : page A id = page B id) :
    page { A with opened := A.opened.set key v } id = page { B with opened := B.opened.set key v } id := by
  obtain ⟨opened,closed⟩ := Prod.mk.inj same
  refine Prod.ext ?_ closed
  show (A.opened.set key v).find id = (B.opened.set key v).find id
  rw [OrdMap.find_set,OrdMap.find_set,at_key,opened]
theorem page_insert {key : Int} {v : String × Int} (at_key : A.opened.find key = B.opened.find key)
    (same : page A id = page B id) :
    page { A with opened := A.opened.insert key v } id = page { B with opened := B.opened.insert key v } id := by
  obtain ⟨opened,closed⟩ := Prod.mk.inj same
  refine Prod.ext ?_ closed
  show (A.opened.insert key v).find id = (B.opened.insert key v).find id
  rw [OrdMap.find_insert,OrdMap.find_insert,at_key,opened]
theorem page_close {key : Int} {x : Int × String × Int} (same : page A id = page B id) :
    page { A with opened := A.opened.erase key, closed := A.closed ++ [x] } id =
      page { B with opened := B.opened.erase key, closed := B.closed ++ [x] } id := by
  obtain ⟨opened,closed⟩ := Prod.mk.inj same
  simp [page,OrdMap.find_erase,List.filter_append,opened,closed]

/-- What a command answers and does depends on the ids that it names alone. -/
theorem perform_local (same : ∀ id, Mentions cmd id → page A id = page B id) :
    (A.perform i cmd).2 = (B.perform i cmd).2 ∧
      ∀ id, Mentions cmd id → page (A.perform i cmd).1 id = page (B.perform i cmd).1 id := by
  have found : ∀ key, Mentions cmd key → A.opened.find key = B.opened.find key :=
    fun key named => congrArg Prod.fst (same key named)
  cases cmd with
  | create_account key pw balance =>
    simp only [Book.perform,Book.create,found key rfl]
    split
    · exact ⟨rfl,same⟩
    · exact ⟨rfl,fun id named => page_insert (found key rfl) (same id named)⟩
  | deposit_to_account key pw amount =>
    simp only [Book.perform,Book.deposit,found key rfl]
    split
    · exact ⟨rfl,same⟩
    · split
      · exact ⟨rfl,fun id named => page_set (found key rfl) (same id named)⟩
      · exact ⟨rfl,same⟩
  | withdrawl_from_account key pw amount =>
    simp only [Book.perform,Book.withdraw,found key rfl]
    split
    · exact ⟨rfl,same⟩
    · split
      · split
        · exact ⟨rfl,same⟩
        · exact ⟨rfl,fun id named => page_set (found key rfl) (same id named)⟩
      · exact ⟨rfl,same⟩
  | balance_check key pw =>
    simp only [Book.perform,Book.check,found key rfl]
    split
    · exact ⟨rfl,same⟩
    · split <;> exact ⟨rfl,same⟩
  | closing_account key pw =>
    simp only [Book.perform,Book.close,found key rfl]
    split
    · exact ⟨rfl,same⟩
    · split
      · exact ⟨rfl,fun id named => page_close (same id named)⟩
      · exact ⟨rfl,same⟩
  | transfer_between_accounts src pw dest amount =>
    simp only [Book.perform,Book.transfer,found src (.inl rfl),found dest (.inr rfl)]
    split
    · exact ⟨rfl,same⟩
    · exact ⟨rfl,same⟩
    · split
      · split
        · exact ⟨rfl,same⟩
        · refine ⟨rfl,fun id named => ?_⟩
          have withdrawn : ∀ v key, Mentions (.transfer_between_accounts src pw dest amount) key →
              page { A with opened := A.opened.set src v } key = page { B with opened := B.opened.set src v } key :=
            fun v key named => page_set (found src (.inl rfl)) (same key named)
          exact page_set (congrArg Prod.fst (withdrawn _ dest (.inr rfl))) (withdrawn _ id named)
      · exact ⟨rfl,same⟩

/-! ### Serial histories -/

/-- In a history without charges an ATM that shares no id with the others is as
    good as alone. -/
theorem serial_alone (apart : Apart files) (serial : Serial hist B lines) (ordered : ∀ i, commandsOf i hist <+: files i)
    (uncharged : ∀ line ∈ lines, writer line ≠ none) (i : Nat) :
    linesOf i lines = (alone i (commandsOf i hist)).2 ∧
      ∀ id, OwnedBy files i id → page B id = page (alone i (commandsOf i hist)).1 id := by
  induction serial with
  | nil => exact ⟨rfl,fun id _ => rfl⟩
  | @snoc hist B B' lines e line serial executed ih =>
    have earlier : ∀ i, commandsOf i hist <+: files i := by
      intro i
      have whole := ordered i
      rw [commandsOf_append] at whole
      exact (List.prefix_append _ _).trans whole
    obtain ⟨wrote,known⟩ := ih earlier fun line member => uncharged line (List.mem_append_left _ member)
    cases e with
    | charge rate key =>
      obtain ⟨own,_,same⟩ := Option.map_eq_some_iff.mp executed
      cases same
      exact absurd rfl (uncharged _ (List.mem_append_right lines (List.mem_singleton_self _)))
    | command j cmd =>
      have member : cmd ∈ files j := (ordered j).subset (mem_commandsOf.mpr (by simp))
      have performed : B.perform j cmd = (B',line) := Option.some.inj executed
      obtain ⟨rfl,rfl⟩ : (B.perform j cmd).1 = B' ∧ (B.perform j cmd).2 = line := by simp [performed]
      by_cases mine : j = i
      · subst mine
        obtain ⟨answer,effect⟩ := perform_local (i := j) fun id named =>
          known id fun i other also there => apart j i (Ne.symm other) cmd member also there id named
        rw [commandsOf_snoc_self,alone_snoc]
        refine ⟨?_,fun id owned => ?_⟩
        · rw [linesOf_snoc_self perform_step.writer,wrote,answer]
        · by_cases touched : Mentions cmd id
          · exact effect id touched
          · rw [perform_frame touched,perform_frame touched]
            exact known id owned
      · rw [commandsOf_snoc_other mine]
        refine ⟨?_,fun id owned => ?_⟩
        · rw [linesOf_snoc_other,wrote]
          simpa [perform_step.writer] using mine
        · rw [perform_frame (owned j mine cmd member)]
          exact known id owned

/-! ### The bank -/

/-- The closed accounts that the bank has a record of, with their passwords and balances. -/
def closedAccounts (s : Shared) (id : Int) : Option (String × Int) :=
  (s.map_of_deleted_accounts.find id).map fun r => ((s.account r).password,(s.account r).balance)
/-- Every ATM has come to the end of its file. -/
def Ended (c : Config) : Prop := ∀ i, ∃ point, (c.thread (.atm i)).prog = .ret point ∧ remaining point = []
/-- No account has been charged or is being charged. -/
def Uncharged (c : Config) : Prop :=
  (∀ line ∈ c.shared.log, writer line ≠ none) ∧
    ∀ r, (c.shared.lock (.account r)).phase .fee_collection ≠ .writing

variable {S : Setting} {n : Nat} {rand rand' : Nat → Nat} {c d : Config}

theorem closedAccounts_page (holds : (BankOutline.outline S).Holds c) (quiet : Quiescent c)
    (serial : Serial hist B c.shared.log) (id : Int) : closedAccounts c.shared id = (page B id).2.head?.map (·.2) := by
  obtain ⟨Γ,V,G,none,_⟩ := settled holds quiet
  have same : B = Γ.book := serial.replay.symm.trans G.serial.replay
  rw [same,closedAccounts,deleted_find G none,page,List.head?_filter,G.closed,List.find?_map,Option.map_map]
  rfl

/-- What a complete run without charges leads to is determined by the files. -/
theorem ended_alone (apart : Apart files) (reachable : Reachable n files rand c) (ended : Ended c) (uncharged : Uncharged c) :
    ∃ B, accounts c.shared = B.opened.find ∧ (∀ id, closedAccounts c.shared id = (page B id).2.head?.map (·.2)) ∧
      ∀ i, linesOf i c.shared.log = (alone i (files i)).2 ∧
        ∀ id, OwnedBy files i id → page B id = page (alone i (files i)).1 id := by
  have holds := reachable_holds (S := anyFiles files) reachable
  have quiet : Quiescent c := by
    refine ⟨fun i => ?_,uncharged.2⟩
    obtain ⟨point,left,_⟩ := ended i
    exact Prog.returned_iff.mpr ⟨point,left⟩
  obtain ⟨hist,B,serial,ordered,done,matched⟩ := commands_done holds
  have all : ∀ i, commandsOf i hist = files i := by
    intro i
    obtain ⟨point,left,nothing⟩ := ended i
    have whole := done i point left
    rwa [nothing,List.append_nil] at whole
  refine ⟨B,(accounts_of_matches (matched quiet)).symm,closedAccounts_page holds quiet serial,fun i => ?_⟩
  have single := serial_alone apart serial ordered uncharged.1 i
  rwa [all i] at single

/-- Two complete runs of ATMs that name no id in common end with the same open and
    closed accounts and with the same lines of each ATM, whatever their schedules. -/
theorem independent_runs_agree (apart : Apart files) (first : Reachable n files rand c) (second : Reachable n files rand' d)
    (ended : Ended c) (ended' : Ended d) (uncharged : Uncharged c) (uncharged' : Uncharged d) :
    accounts c.shared = accounts d.shared ∧ closedAccounts c.shared = closedAccounts d.shared ∧
      ∀ i, linesOf i c.shared.log = linesOf i d.shared.log := by
  obtain ⟨B,opened,closed,alone_c⟩ := ended_alone apart first ended uncharged
  obtain ⟨A,opened',closed',alone_d⟩ := ended_alone apart second ended' uncharged'
  have pages : ∀ id, page B id = page A id := by
    intro id
    -- An id that nobody names may count as anybody's.
    have owner : ∃ i, OwnedBy files i id := by
      by_cases named : ∃ i, ∃ cmd ∈ files i, Mentions cmd id
      · obtain ⟨i,cmd,member,names⟩ := named
        exact ⟨i,fun j other also there => apart i j (Ne.symm other) cmd member also there id names⟩
      · exact ⟨0,fun j _ also there names => named ⟨j,also,there,names⟩⟩
    obtain ⟨i,owned⟩ := owner
    rw [(alone_c i).2 id owned,(alone_d i).2 id owned]
  refine ⟨?_,funext fun id => ?_,fun i => ?_⟩
  · rw [opened,opened']
    exact funext fun id => congrArg Prod.fst (pages id)
  · rw [closed,closed',pages id]
  · rw [(alone_c i).1,(alone_d i).1]

/-- Two ATMs open one account each, in either order. -/
def pairFiles (i : Nat) : List Command :=
  if i = 1 then [.create_account 1 "a" 10] else if i = 2 then [.create_account 2 "b" 20] else []
def pairAfter (i j : Nat) : Option Config :=
  (bank 2).runs (List.replicate 14 (.atm i) ++ List.replicate 14 (.atm j)) (initial pairFiles fun _ => 0)
theorem first_ends : (pairAfter 1 2).isSome = true := by decide
theorem second_ends : (pairAfter 2 1).isSome = true := by decide

theorem pair_apart : Apart pairFiles := by
  intro i j other cmd member cmd' member' id
  unfold pairFiles at member member'
  split_ifs at member member' <;> simp_all [Mentions]
/-- Nothing but the two ATMs has moved. -/
theorem pair_ended {i j : Nat} (ran : pairAfter i j = some c) (pair : i = 1 ∧ j = 2 ∨ i = 2 ∧ j = 1)
    (at_one : (c.thread (.atm 1)).prog = .ret (.parser_file [])) (at_two : (c.thread (.atm 2)).prog = .ret (.parser_file []))
    (log : ∀ line ∈ c.shared.log, writer line ≠ none) : Ended c ∧ Uncharged c := by
  have idle : ∀ t, t ≠ .atm 1 → t ≠ .atm 2 → c.thread t = (initial pairFiles fun _ => 0).thread t := by
    intro t notOne notTwo
    refine runs_frame ran fun member => ?_
    rcases pair with ⟨rfl,rfl⟩ | ⟨rfl,rfl⟩ <;> simp [notOne,notTwo] at member
  have ended : Ended c := by
    intro k
    by_cases one : k = 1
    · subst one; exact ⟨_,at_one,rfl⟩
    by_cases two : k = 2
    · subst two; exact ⟨_,at_two,rfl⟩
    rw [idle (.atm k) (by simpa using one) (by simpa using two)]
    exact ⟨.parser_file (pairFiles k),rfl,by simp [remaining,pairFiles,one,two]⟩
  refine ⟨ended,log,?_⟩
  refine (quiescent_of_returned (reachable_holds (S := anyFiles pairFiles) ⟨_,ran⟩) (fun k => ?_) ?_).2
  · obtain ⟨point,left,_⟩ := ended k
    exact Prog.returned_iff.mpr ⟨point,left⟩
  · rw [idle .fee_collection (by simp) (by simp)]
    rfl

theorem independent_runs_agree_pair :
    accounts ((pairAfter 1 2).get first_ends).shared = accounts ((pairAfter 2 1).get second_ends).shared ∧
      closedAccounts ((pairAfter 1 2).get first_ends).shared = closedAccounts ((pairAfter 2 1).get second_ends).shared ∧
      ∀ i, linesOf i ((pairAfter 1 2).get first_ends).shared.log = linesOf i ((pairAfter 2 1).get second_ends).shared.log := by
  have first := pair_ended (Option.some_get first_ends).symm (.inl ⟨rfl,rfl⟩) rfl rfl (by decide)
  have second := pair_ended (Option.some_get second_ends).symm (.inr ⟨rfl,rfl⟩) rfl rfl (by decide)
  exact independent_runs_agree pair_apart (reachable_get first_ends) (reachable_get second_ends) first.1 second.1
    first.2 second.2

end StructureOfOs.Independence
