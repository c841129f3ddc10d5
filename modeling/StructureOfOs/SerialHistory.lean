import StructureOfOs.BankFollows

/-!
The log of the bank is a serial history. Whatever the schedule, the lines of the
log are those of the commands and charges performed one at a time in this order on
an account book that starts empty, and whenever no operation and no charge is
under way the accounts and the bank's balance are those of the book. A status on
the screen adds up to the money that the log accounts for.
-/
namespace StructureOfOs.SerialHistory
open StructureOfOs.Programs StructureOfOs.Outlines StructureOfOs.RwLock StructureOfOs.BankState StructureOfOs.Atm
open StructureOfOs.Bank StructureOfOs.AccountBook StructureOfOs.Views StructureOfOs.BankInvariant
open StructureOfOs.BankOutline StructureOfOs.BankFollows

/-- The commands left in the file of an ATM at a point of its loop. -/
def remaining : Ctl → List Command
  | .parser_file todo => todo
  | _ => []
/-- Every ATM is between two operations, and the fee collector is in no account. -/
def Quiescent (c : Config) : Prop :=
  (∀ i, (c.thread (.atm i)).prog.returned = true) ∧
    ∀ r, (c.shared.lock (.account r)).phase .fee_collection ≠ .writing
/-- The open accounts with their passwords and balances, and the bank's balance, are the book's. -/
def Matches (s : Shared) (B : Book) : Prop :=
  (∀ id, B.opened.find id = (s.map_of_accounts.find id).map fun r => ((s.account r).password,(s.account r).balance)) ∧
    B.bank = s.balance
/-- The files without any assumption on their commands. -/
def anyFiles (files : Nat → List Command) : Setting := ⟨files,False,False,False.elim,False.elim⟩

variable {S : Setting} {n : Nat} {files : Nat → List Command} {rand : Nat → Nat} {c : Config} {i : Nat} {point : Ctl}
  {V : Tid → View} {t : Tid} {g : View}

/-- An ATM between two operations holds and knows nothing. -/
theorem atm_home (looped : Loop S (.atm i) point g) : g = .home (remaining point) := by
  cases point <;> simp only [Loop] at looped <;> simp only [remaining]
  case parser_file => exact looped.1
  case ended => exact looped
theorem returned_loop (follows : (outline S).Follows t (c.thread t).prog g (Loop S t))
    (returned : (c.thread t).prog.returned = true) : ∃ point, (c.thread t).prog = .ret point ∧ Loop S t point g := by
  obtain ⟨point,left⟩ := Prog.returned_iff.mp returned
  rw [left] at follows
  exact ⟨point,left,follows⟩

/-- Between two accounts, and between two passes, the fee collector is in no account. -/
theorem fee_quiet (looped : Loop S .fee_collection point g) : g.Quiet := by
  cases point <;> simp only [Loop] at looped
  case fee_collection | ended => subst looped; exact fun r => rfl
  case charge_accounts => obtain ⟨_,_,done,passing⟩ := looped; exact passing.quiet
theorem quiescent_of_returned (holds : (outline S).Holds c) (atms : ∀ i, (c.thread (.atm i)).prog.returned = true)
    (fee : (c.thread .fee_collection).prog.returned = true) : Quiescent c := by
  obtain ⟨V,⟨Γ,G,L⟩,follows⟩ := holds
  obtain ⟨point,_,looped⟩ := returned_loop (follows .fee_collection) fee
  refine ⟨atms,fun r => ?_⟩
  rw [← (L .fee_collection).1.phase,fee_quiet looped r]
  simp

/-- When one ATM alone has moved, its return is enough. -/
theorem solo_quiet {steps : Nat} (ran : (bank n).runs (List.replicate steps (.atm i)) (initial files rand) = some c)
    (returned : (c.thread (.atm i)).prog.returned = true) : Quiescent c := by
  have idle : ∀ t, t ≠ .atm i → (c.thread t).prog.returned = true := by
    intro t other
    rw [runs_frame ran fun member => other (List.eq_of_mem_replicate member)]
    rfl
  refine quiescent_of_returned (reachable_holds (S := anyFiles files) ⟨_,ran⟩) (fun j => ?_) (idle _ (by simp))
  by_cases same : j = i
  · subst same; exact returned
  · exact idle _ (by simpa using same)

/-- With no operation and no charge under way the log accounts for all writes. -/
theorem settled (holds : (outline S).Holds c) (quiet : Quiescent c) :
    ∃ Γ V, Global S c.shared Γ V ∧ Γ.change = .none ∧ (∀ r, (c.shared.account r).balance = Γ.accounted r) ∧
      c.shared.balance = Γ.book.bank ∧ ∀ t, Holds c.shared t (V t) ∧ Sees S c.shared Γ t (V t) := by
  obtain ⟨V,⟨Γ,G,L⟩,follows⟩ := holds
  have home : ∀ i, ∃ todo, V (.atm i) = .home todo := by
    intro i
    obtain ⟨point,_,looped⟩ := returned_loop (follows (.atm i)) (quiet.1 i)
    exact ⟨_,atm_home looped⟩
  have unlocked : ∀ r, (V .fee_collection).phase (.account r) ≠ .writing := by
    intro r writes
    rw [(L .fee_collection).1.phase] at writes
    exact quiet.2 r writes
  refine ⟨Γ,V,G,?_,fun r => ?_,?_,L⟩
  · by_contra underway
    obtain ⟨u,theirs⟩ := G.changed underway
    rcases (L u).2.change with none | ⟨⟨i,rfl⟩,_⟩
    · exact underway (theirs ▸ none)
    · obtain ⟨todo,is⟩ := home i
      rw [is] at theirs
      exact underway theirs.symm
  · by_contra differs
    obtain ⟨u,b,a,theirs,dirty⟩ := G.dirty r differs
    obtain ⟨writes,_,_,notPrinter,notMain⟩ := (L u).2.dirty r b a theirs dirty
    cases u with
    | atm i =>
      obtain ⟨todo,is⟩ := home i
      rw [is] at theirs; cases theirs
    | fee_collection => exact unlocked r writes
    | accounts_print => exact notPrinter rfl
    | main => exact notMain rfl
  · by_contra differs
    obtain ⟨u,b,a,theirs,dirty⟩ := G.bankDirty differs
    obtain ⟨reads,r,writes⟩ := (L u).2.bankDirty b a theirs dirty
    rcases ((L u).2.bank b a theirs).2.2 with ⟨rfl,_⟩ | list
    · exact unlocked r writes
    · rw [list] at reads; cases reads

theorem settled_book {Γ : Ghost} (G : Global S c.shared Γ V) (none : Γ.change = .none)
    (balances : ∀ r, (c.shared.account r).balance = Γ.accounted r) (bank : c.shared.balance = Γ.book.bank) :
    Matches c.shared Γ.book := by
  refine ⟨fun id => ?_,bank.symm⟩
  rw [G.opened id,none]
  exact Option.map_congr fun r _ => by rw [balances r]

theorem commands_done (holds : (outline S).Holds c) : ∃ hist B, Serial hist B c.shared.log ∧
    (∀ i, commandsOf i hist <+: S.files i) ∧
    (∀ i point, (c.thread (.atm i)).prog = .ret point → commandsOf i hist ++ remaining point = S.files i) ∧
    (Quiescent c → Matches c.shared B) := by
  obtain ⟨V,⟨Γ,G,L⟩,follows⟩ := holds
  refine ⟨Γ.hist,Γ.book,G.serial,fun i => ⟨_,(L (.atm i)).2.todo i rfl⟩,fun i point left => ?_,fun quiet => ?_⟩
  · have looped := follows (.atm i)
    rw [left,follows_ret] at looped
    have files := (L (.atm i)).2.todo i rfl
    rw [atm_home looped] at files
    exact files
  · obtain ⟨Γ',V',G',none,balances,bank,_⟩ := settled ⟨V,⟨Γ,G,L⟩,follows⟩ quiet
    have same : Γ'.book = Γ.book := by rw [← G'.serial.replay,G.serial.replay]
    exact same ▸ settled_book G' none balances bank

/-- The log is a serial history: its lines are those of `hist` performed on the
    empty book, it holds one line for each command an ATM has completed, in the order
    of its file, and executing the lines one after the other leads to the accounts and
    the balance of the bank whenever no operation and no charge is under way. -/
theorem log_is_serial (reachable : Reachable n files rand c) :
    ∃ hist B, Serial hist B c.shared.log ∧ c.shared.log.foldl Book.apply .empty = B ∧
      (∀ i, commandsOf i hist <+: files i ∧
        List.Forall₂ (fun cmd line => ∃ B' : Book, (B'.perform i cmd).2 = line) (commandsOf i hist)
          (linesOf i c.shared.log)) ∧
      (∀ i point, (c.thread (.atm i)).prog = .ret point → commandsOf i hist ++ remaining point = files i) ∧
      (Quiescent c → Matches c.shared B) := by
  obtain ⟨hist,B,serial,order,done,quiet⟩ := commands_done (reachable_holds (S := anyFiles files) reachable)
  exact ⟨hist,B,serial,serial.replay,fun i => ⟨order i,serial.linesOf i⟩,done,quiet⟩

/-- ATM 1 opens two accounts and transfers a negative amount between them. -/
def drainingFiles (i : Nat) : List Command :=
  if i = 1 then [.create_account 1 "a" 10,.create_account 2 "b" 10,.transfer_between_accounts 1 "a" 2 (-5)] else []
/-- The state after a number of steps of that ATM alone. -/
def drainingAfter (steps : Nat) : Option Config :=
  (bank 1).runs (List.replicate steps (.atm 1)) (initial drainingFiles fun _ => 0)
theorem draining_ends : (drainingAfter 63).isSome = true := by decide

theorem log_is_serial_draining :
    ∃ hist B, Serial hist B ((drainingAfter 63).get draining_ends).shared.log ∧
      ((drainingAfter 63).get draining_ends).shared.log.foldl Book.apply .empty = B ∧
      (∀ i, commandsOf i hist <+: drainingFiles i ∧
        List.Forall₂ (fun cmd line => ∃ B' : Book, (B'.perform i cmd).2 = line) (commandsOf i hist)
          (linesOf i ((drainingAfter 63).get draining_ends).shared.log)) ∧
      (∀ i point, (((drainingAfter 63).get draining_ends).thread (.atm i)).prog = .ret point →
        commandsOf i hist ++ remaining point = drainingFiles i) ∧
      (Quiescent ((drainingAfter 63).get draining_ends) → Matches ((drainingAfter 63).get draining_ends).shared B) :=
  log_is_serial (reachable_get draining_ends)

/-! ### The status on the screen -/

/-- Only printing changes the screen. -/
theorem run_screen {a : Act} {r : Res a} {s s' : Shared} (ran : run t a s = some (r,s')) :
    s'.screen = s.screen ∨ ∃ output, a = .print output ∧ s'.screen = s.screen ++ [output] := by
  cases a with
  | print output => cases ran; exact .inr ⟨output,rfl,rfl⟩
  | set_readers l k =>
    simp only [run,Shared.move,Option.map_eq_some_iff] at ran
    obtain ⟨x,_,same⟩ := ran; cases same; exact .inl rfl
  | lock m =>
    cases m <;> simp only [run,Shared.move,Option.map_eq_some_iff,Option.ite_none_right_eq_some] at ran
    case lock_read | lock_write => obtain ⟨x,_,same⟩ := ran; cases same; exact .inl rfl
    all_goals obtain ⟨_,same⟩ := ran; cases same; exact .inl rfl
  | unlock m =>
    cases m <;> simp only [run,Shared.move,Option.map_eq_some_iff] at ran
    case lock_read | lock_write => obtain ⟨x,_,same⟩ := ran; cases same; exact .inl rfl
    all_goals cases ran; exact .inl rfl
  | join u =>
    simp only [run,Option.ite_none_right_eq_some] at ran
    obtain ⟨_,same⟩ := ran; cases same; exact .inl rfl
  | _ => cases ran; exact .inl rfl

/-- While the list is being written by a thread that changes no map, the entries of
    the book are those of the map. -/
theorem opened_total {Γ : Ghost} {s : Shared} (G : Global S s Γ V) (none : Γ.change = .none) :
    OrdMap.total (·.2) Γ.book.opened = (s.map_of_accounts.entries.map fun e => Γ.accounted e.2).sum := by
  have same : Γ.book.opened = s.map_of_accounts.map fun r => ((s.account r).password,Γ.accounted r) := by
    refine OrdMap.ext_find fun id => ?_
    rw [G.opened id,none,OrdMap.find_map]
    rfl
  simp [same,OrdMap.total,OrdMap.map,Function.comp_def]

/-- When the printer comes to the bank's balance, the balances of the accounts that
    it has printed one after the other add up with it to the money that all lines of
    the log account for. -/
theorem status_conserves {d : Config} {b : Int} (reachable : Reachable n files rand c) (stepped : (bank n).step c t = some d)
    (printed : d.shared.screen = c.shared.screen ++ [.bank b]) :
    (balances c.shared.screen).sum + b = (c.shared.log.map net).sum := by
  obtain ⟨V,⟨Γ,G,L⟩,follows⟩ := reachable_holds (S := anyFiles files) reachable
  rcases step_cases stepped with ⟨_,_,_,_,rfl⟩ | ⟨a,next,r,s,left,ran,rfl⟩
  · simp at printed
  rcases run_screen ran with same | ⟨output,rfl,also⟩
  · simp [same] at printed
  have output_bank : output = .bank b := by simpa [also] using printed
  subst output_bank
  have mine := follows t
  rw [left,follows_act] at mine
  obtain ⟨⟨is,writes,done,rows,passed,shown,every,read⟩,_⟩ := mine
  have sees := (L t).2
  obtain ⟨held,rest,split,last⟩ := sees.pass done none passed
  have entries : c.shared.map_of_accounts.entries = done := by simpa [last rfl] using split
  obtain ⟨_,_,screen,accounted⟩ := sees.shown rows shown
  have settled : Γ.change = .none := by
    rw [change_known G L held]
    refine sees.change.resolve_right ?_
    rintro ⟨⟨i,atm⟩,_⟩
    rw [is] at atm; cases atm
  have rowsTotal : rows.map (·.2) = done.map fun e => Γ.accounted e.2 := by
    calc rows.map (·.2) = rows.map (fun x => Γ.accounted x.1) := List.map_congr_left fun x member => ((accounted x member).2).symm
      _ = (rows.map (·.1)).map Γ.accounted := by simp
      _ = done.map fun e => Γ.accounted e.2 := by rw [every]; simp
  calc (balances c.shared.screen).sum + b = OrdMap.total (·.2) Γ.book.opened + Γ.book.bank := by
        rw [screen,rowsTotal,opened_total G settled,entries,(sees.bank b b read).2.1]
    _ = (c.shared.log.map net).sum := G.serial.worth

/-- The printer has shown two accounts and comes to the bank's balance. -/
theorem printing_ends : ((bank 1).runs (List.replicate 28 (.atm 1) ++ List.replicate 44 .accounts_print)
    (initial drainingFiles fun _ => 0)).isSome = true := by decide
theorem printing_goes_on : ((bank 1).step (Option.get _ printing_ends) .accounts_print).isSome = true := by decide
theorem status_conserves_printing :
    (balances (Option.get _ printing_ends).shared.screen).sum + 0 = ((Option.get _ printing_ends).shared.log.map net).sum :=
  status_conserves (reachable_get printing_ends) (Option.some_get printing_goes_on).symm rfl

end StructureOfOs.SerialHistory
