import StructureOfOs.MoneyRange
import Mathlib.Algebra.BigOperators.Group.Finset.Piecewise
import Mathlib.Algebra.Order.BigOperators.Group.Finset

/-!
A bound on the money of the bank, from the files. What the accounts and the bank hold,
amounts below zero counted as they are above, grows only by what the commands can put
there: an opening or a deposit its amount, a withdrawal an amount below zero and a
transfer twice such an amount, for it takes from one account what it brings to the
other. A fee moves money and makes none. So files whose amounts together fit into an
`int` keep every sum in range, under every schedule (`sums_exact_iff`).
-/
namespace StructureOfOs.MoneyBounds
open StructureOfOs.Programs StructureOfOs.Outlines StructureOfOs.Recordings StructureOfOs.BankState StructureOfOs.Accounts
open StructureOfOs.Atm StructureOfOs.Bank StructureOfOs.Views StructureOfOs.BankInvariant StructureOfOs.Integers
open StructureOfOs.BankOutline StructureOfOs.BankFollows StructureOfOs.SerialHistory StructureOfOs.MoneyRange

/-! ### Two families of amounts under a bound -/

section
variable {ι κ : Type} [DecidableEq ι] [DecidableEq κ] {f f' : ι → Int} {g g' : κ → Int} {x x' most : Int}

/-- However many of the amounts are taken together, and `x` with them, they come to at most `most`. -/
def AtMost (most : Int) (f : ι → Int) (g : κ → Int) (x : Int) : Prop :=
  ∀ (S : Finset ι) (T : Finset κ), ∑ i ∈ S, f i + ∑ k ∈ T, g k + x ≤ most

/-- A sum over more indices, the one that has changed among them. -/
theorem sum_changed {i : ι} (others : ∀ j, j ≠ i → f' j = f j) (above : 0 ≤ f' i) (S : Finset ι) :
    ∑ j ∈ S, f' j ≤ ∑ j ∈ insert i S, f j - f i + f' i := by
  have member : i ∈ insert i S := Finset.mem_insert_self ..
  have rest : ∑ j ∈ (insert i S).erase i, f' j = ∑ j ∈ (insert i S).erase i, f j :=
    Finset.sum_congr rfl fun j among => others j (Finset.ne_of_mem_erase among)
  have before := Finset.add_sum_erase _ f member
  have after := Finset.add_sum_erase _ f' member
  have more : ∑ j ∈ S, f' j ≤ ∑ j ∈ insert i S, f' j := by
    refine Finset.sum_le_sum_of_subset_of_nonneg (Finset.subset_insert i S) fun j among new => ?_
    obtain rfl := (Finset.mem_insert.mp among).resolve_right new
    exact above
  omega
/-- One amount of each family changes, and together with `x` they do not grow. -/
theorem AtMost.changed {i : ι} {k : κ} (bounded : AtMost most f g x) (others : ∀ j, j ≠ i → f' j = f j)
    (others' : ∀ j, j ≠ k → g' j = g j) (above : 0 ≤ f' i) (above' : 0 ≤ g' k)
    (less : f' i + g' k + x' ≤ f i + g k + x) : AtMost most f' g' x' := by
  intro S T
  have := bounded (insert i S) (insert k T)
  have := sum_changed others above S
  have := sum_changed others' above' T
  omega
omit [DecidableEq ι] [DecidableEq κ] in
theorem AtMost.one (bounded : AtMost most f g x) (i : ι) : f i + x ≤ most := by
  simpa using bounded {i} ∅
end

/-! ### What the commands can put into the bank -/

/-- What a command can add to what the bank holds. -/
def gain : Command → Int
  | .create_account _ _ balance => |balance|
  | .deposit_to_account _ _ amount => |amount|
  | .withdrawl_from_account _ _ amount => max 0 (-amount)
  | .transfer_between_accounts _ _ _ amount => 2 * max 0 (-amount)
  | .balance_check _ _ | .closing_account _ _ => 0
/-- What it can still add when it has written so many balances: a transfer has yet to bring what
    it took. -/
def due : Nat → Command → Int
  | 0, command => gain command
  | 1, .transfer_between_accounts _ _ _ amount => |amount|
  | _, _ => 0
/-- What the commands of an ATM can still add. -/
def outstanding (h : Work) : Int :=
  match h.todo with
  | [] => 0
  | command :: rest => due h.written command + (rest.map gain).sum

variable {n : Nat} {files : Nat → List Command} {rand : Nat → Nat} {schedule : List Tid} {s s' : Shared} {R R' : Record}
  {c : Programs.Config Tid (Shared × Record) Act Res Ctl} {t : Tid} {a : Act} {r : Res a} {most : Int}
  {S : Setting} {Γ : Ghost} {V : Tid → View} {W : Tid → Work} {g : View} {h h' : Work} {command : Command} {b v x : Int} {rate : Nat}

theorem gain_nonneg (command : Command) : 0 ≤ gain command := by
  cases command with
  | create_account _ _ balance => exact abs_nonneg balance
  | deposit_to_account _ _ amount => exact abs_nonneg amount
  | withdrawl_from_account _ _ amount => exact le_max_left ..
  | transfer_between_accounts _ _ _ amount => exact Int.mul_nonneg (by decide) (le_max_left ..)
  | balance_check _ _ | closing_account _ _ => exact le_rfl
theorem gains_nonneg (todo : List Command) : 0 ≤ (todo.map gain).sum :=
  List.sum_nonneg (by simpa using fun command _ => gain_nonneg command)
theorem due_nonneg (written : Nat) (command : Command) : 0 ≤ due written command := by
  unfold due
  split
  · exact gain_nonneg command
  · exact abs_nonneg _
  · exact le_rfl
theorem outstanding_nonneg (h : Work) : 0 ≤ outstanding h := by
  unfold outstanding
  split
  · exact le_rfl
  · exact Int.add_nonneg (due_nonneg ..) (gains_nonneg _)
theorem outstanding_fresh (unwritten : h.written = 0) : outstanding h = (h.todo.map gain).sum := by
  unfold outstanding
  split
  · rename_i done; simp [done]
  · rename_i left; simp [left,unwritten,due]

/-- A balance that an ATM writes is paid for by what its command can add. -/
theorem paid {written : Nat} {compared : Bool} (adds : change written command = some (x,compared))
    (safe : compared = true → 0 ≤ b + x) : |b + x| + due (written + 1) command ≤ |b| + due written command := by
  unfold change at adds
  split at adds
  · cases adds
    simpa [due,gain] using abs_add_le b x
  · cases adds
    have := le_abs_self b
    simp only [due,gain,abs_of_nonneg (safe rfl)]
    omega
  · cases adds
    have := le_abs_self b
    simp only [due,gain,abs_of_nonneg (safe rfl)]
    rcases abs_cases (_ : Int) with ⟨same,_⟩ | ⟨same,_⟩ <;> rw [same] <;> omega
  · cases adds
    simpa [due,gain] using abs_add_le b x
  · cases adds

/-- What is left to an ATM before and after its command has written a balance. -/
theorem outstanding_wrote (h' : Work) (first : h.todo.head? = some command) (todo : h'.todo = h.todo)
    (written : h'.written = h.written + 1) :
    ∃ later, outstanding h = due h.written command + later ∧ outstanding h' = due (h.written + 1) command + later := by
  obtain ⟨rest,left⟩ := List.head?_eq_some_iff.mp first
  exact ⟨(rest.map gain).sum,by simp only [outstanding,left],by simp only [outstanding,todo,written,left]⟩
/-- The line in the log ends a command. -/
theorem outstanding_logged (todo : h'.todo = h.todo.tail) (written : h'.written = 0) : outstanding h' ≤ outstanding h := by
  rw [outstanding_fresh written,todo]
  unfold outstanding
  split
  · rename_i done; simp [done]
  · rename_i command rest left
    have := due_nonneg h.written command
    rw [left,List.tail_cons]
    omega
/-- When the account is charged, nothing is added to what the account holds and the bank has not
    owed it. -/
theorem settled (rated : rate ≤ MAX_FEE) : |b - fee b rate| + |x| ≤ |b| + |x - fee b rate| := by
  have := charged_abs (b := b) rated
  have := abs_sub_abs_le_abs_sub x (fee b rate)
  omega

/-! ### Every step -/

/-- The accounts, what the bank holds beyond what it owes, and what the commands left can add are
    together at most so much; and this much being an `int`, every sum so far is one. -/
structure Budget (most : Int) (s : Shared) (R : Record) (W : Tid → Work) : Prop where
  held : AtMost most (fun q => |(s.account q).balance|) (fun i => outstanding (W (.atm i))) |s.balance - (W .fee_collection).owed|
  exact : most ≤ INT_MAX → R.exact = true

theorem inRange_of_abs (small : |v| ≤ INT_MAX) : InRange v := by
  obtain ⟨below,above⟩ := abs_le.mp small
  unfold InRange INT_MIN INT_MAX at *
  omega
theorem AtMost.inRange {f : Ref → Int} {g : Nat → Int} (held : AtMost most (fun q => |f q|) g |x|) (small : most ≤ INT_MAX)
    (q : Ref) : InRange (f q) := by
  have least := held.one q
  have := abs_nonneg x
  exact inRange_of_abs (by omega)

/-- No balance is written. -/
theorem Budget.same (budget : Budget most s R W)
    (kept : (∀ q, (s'.account q).balance = (s.account q).balance) ∧ s'.balance = s.balance) (exact : R'.exact = R.exact)
    (less : outstanding h ≤ outstanding (W t)) (owed : h.owed = (W t).owed) :
    Budget most s' R' (Function.update W t h) := by
  have owes : (Function.update W t h .fee_collection).owed = (W .fee_collection).owed := by
    by_cases same : .fee_collection = t
    · subst same; simpa using owed
    · rw [Function.update_of_ne same]
  refine ⟨fun S T => ?_,fun small => exact.trans (budget.exact small)⟩
  have lower : ∑ i ∈ T, outstanding (Function.update W t h (.atm i)) ≤ ∑ i ∈ T, outstanding (W (.atm i)) := by
    refine Finset.sum_le_sum fun i _ => ?_
    by_cases same : .atm i = t
    · subst same; simpa using less
    · rw [Function.update_of_ne same]
  have before : ∑ q ∈ S, |(s.account q).balance| + ∑ i ∈ T, outstanding (W (.atm i)) +
      |s.balance - (W .fee_collection).owed| ≤ most := budget.held S T
  simp only [kept.1,kept.2,owes]
  omega

/-- An ATM writes a balance that its command pays for. -/
theorem Budget.paid {i : Nat} {q : Ref} (budget : Budget most s R W)
    (wrote : s'.balance = s.balance ∧ ∀ k, k ≠ q → (s'.account k).balance = (s.account k).balance)
    (pays : |(s'.account q).balance| + outstanding h ≤ |(s.account q).balance| + outstanding (W (.atm i)))
    (exact : R.exact = true → InRange (s'.account q).balance → R'.exact = true) :
    Budget most s' R' (Function.update W (.atm i) h) := by
  have held : AtMost most (fun q => |(s'.account q).balance|) (fun j => outstanding (Function.update W (.atm i) h (.atm j)))
      |s'.balance - (Function.update W (.atm i) h .fee_collection).owed| := by
    refine budget.held.changed (i := q) (k := i) ?_ ?_ (abs_nonneg _) (outstanding_nonneg _) ?_
    · intro k other
      simp [wrote.2 k other]
    · intro j other
      simp [other]
    · simpa [wrote.1] using pays
  refine ⟨held,fun small => ?_⟩
  exact exact (budget.exact small) (held.inRange small q)

/-- The fee collector charges an account with what the bank owes it. -/
theorem Budget.charged {q : Ref} (budget : Budget most s R W)
    (wrote : s'.balance = s.balance ∧ ∀ k, k ≠ q → (s'.account k).balance = (s.account k).balance)
    (charges : (s'.account q).balance = (s.account q).balance - (W .fee_collection).owed) (settled : h.owed = 0)
    (rated : rate ≤ MAX_FEE) (owed : (W .fee_collection).owed = fee (s.account q).balance rate)
    (exact : R.exact = true → InRange (s'.account q).balance → R'.exact = true) :
    Budget most s' R' (Function.update W .fee_collection h) := by
  have held : AtMost most (fun q => |(s'.account q).balance|) (fun j => outstanding (Function.update W .fee_collection h (.atm j)))
      |s'.balance - (Function.update W .fee_collection h .fee_collection).owed| := by
    refine budget.held.changed (i := q) (k := 0) ?_ (by simp) (abs_nonneg _) (outstanding_nonneg _) ?_
    · intro k other
      simp [wrote.2 k other]
    · have := MoneyBounds.settled (b := (s.account q).balance) (x := s.balance) rated
      simp only [Function.update_self,Function.update_of_ne (by simp : Tid.atm 0 ≠ .fee_collection),wrote.1,charges,owed,settled,sub_zero]
      omega
  refine ⟨held,fun small => ?_⟩
  exact exact (budget.exact small) (held.inRange small q)

/-- The fee collector gives the bank the fee before it charges the account. -/
theorem Budget.gained {q : Ref} {v : Int} (budget : Budget most s R W) (owes : (W .fee_collection).owed = 0) (rated : rate ≤ MAX_FEE)
    (kept : ∀ k, (s'.account k).balance = (s.account k).balance) (wrote : s'.balance = v)
    (sum : v = s.balance + fee (s.account q).balance rate) (owed : h.owed = v - s.balance)
    (exact : R.exact = true → InRange v → R'.exact = true) :
    Budget most s' R' (Function.update W .fee_collection h) := by
  refine ⟨?_,fun small => ?_⟩
  · refine budget.held.changed (i := q) (k := 0) (by simp [kept]) (by simp) (abs_nonneg _) (outstanding_nonneg _) ?_
    simp [kept,wrote,owed,owes]
  · have held := budget.held.one q
    have := charged_abs (b := (s.account q).balance) rated
    have := abs_nonneg ((s.account q).balance - fee (s.account q).balance rate)
    have := abs_add_le s.balance (fee (s.account q).balance rate)
    simp only [owes,sub_zero] at held
    exact exact (budget.exact small) (inRange_of_abs (by rw [sum]; omega))

/-- What a balance in range is in the record. -/
theorem exact_set_balance {q : Ref} (exact : R.exact = true) (range : InRange v) : (note t (.set_balance q v) () s R).exact = true := by
  cases t <;> simpa [note,Record.wrote,exact] using range
theorem exact_set_bank_balance (exact : R.exact = true) (range : InRange v) : (note t (.set_bank_balance v) () s R).exact = true := by
  cases t <;> simpa [note,Record.wrote,exact] using range

/-- A thread that relies on a balance finds it. -/
theorem reads (tie : MoneyRange.Inv s R V W) (sees : Sees S s Γ t (V t)) {q : Ref} (read : (W t).read = some (q,b)) :
    (s.account q).balance = b := by
  obtain ⟨a,had⟩ := tie.read t q b read
  exact (sees.cell q b a had).2.2.1
theorem set_balance_wrote {q : Ref} (ran : run t (.set_balance q v) s = some ((),s')) :
    (s'.balance = s.balance ∧ ∀ k, k ≠ q → (s'.account k).balance = (s.account k).balance) ∧ (s'.account q).balance = v := by
  cases ran
  exact ⟨⟨rfl,fun k other => by simp [other]⟩,by simp⟩

theorem budget_set_balance_atm {i : Nat} {q : Ref} (tie : MoneyRange.Inv s R V W) (sees : Sees S s Γ (.atm i) (V (.atm i)))
    (budget : Budget most s R W) (permits : (W (.atm i)).Permits (.atm i) (.set_balance q v))
    (ran : run (.atm i) (.set_balance q v) s = some ((),s')) :
    Budget most s' (note (.atm i) (.set_balance q v) () s R)
      (Function.update W (.atm i) { (W (.atm i)).drop with written := (W (.atm i)).written + 1, owed := 0 }) := by
  obtain ⟨b,x,compared,adds,read,rfl,safe⟩ := permits
  obtain ⟨command,first,changes⟩ := Option.bind_eq_some_iff.mp adds
  obtain ⟨wrote,is⟩ := set_balance_wrote ran
  refine budget.paid wrote ?_ fun exact range => exact_set_balance exact (is ▸ range)
  obtain ⟨later,before,after⟩ :=
    outstanding_wrote { (W (.atm i)).drop with written := (W (.atm i)).written + 1, owed := 0 } first rfl rfl
  have := MoneyBounds.paid changes safe
  rw [is,reads tie sees read,before,after]
  omega
theorem budget_set_balance_fee {q : Ref} (tie : MoneyRange.Inv s R V W) (sees : Sees S s Γ .fee_collection (V .fee_collection))
    (budget : Budget most s R W) (permits : (W .fee_collection).Permits .fee_collection (.set_balance q v))
    (ran : run .fee_collection (.set_balance q v) s = some ((),s')) :
    Budget most s' (note .fee_collection (.set_balance q v) () s R)
      (Function.update W .fee_collection { (W .fee_collection).drop with written := (W .fee_collection).written + 1, owed := 0 }) := by
  obtain ⟨rated,b,read,owed,rfl⟩ := permits
  obtain ⟨wrote,is⟩ := set_balance_wrote ran
  have had := reads tie sees read
  exact budget.charged wrote (by rw [is,had,owed]) rfl rated (by rw [had,owed]) fun exact range =>
    exact_set_balance exact (is ▸ range)
theorem budget_set_bank_balance (tie : MoneyRange.Inv s R V W) (sees : Sees S s Γ .fee_collection (V .fee_collection))
    (budget : Budget most s R W) (permits : (W .fee_collection).Permits .fee_collection (.set_bank_balance v))
    (ran : run .fee_collection (.set_bank_balance v) s = some ((),s')) :
    Budget most s' (note .fee_collection (.set_bank_balance v) () s R) (Function.update W .fee_collection
      { W .fee_collection with bank := none, owed := v - (W .fee_collection).bank.getD 0 }) := by
  obtain ⟨rated,owes,b,x,read,bank,rfl⟩ := permits
  obtain ⟨_,had⟩ := tie.bank _ x bank
  have is : s.balance = x := (sees.bank x _ had).1
  have had := reads tie sees read
  cases ran
  exact budget.gained (q := (W .fee_collection).stand) owes rated (fun _ => rfl) rfl (by rw [is,had]) (by simp [bank,is])
    exact_set_bank_balance
theorem budget_new_account {i : Nat} {id balance : Int} {password : String} {q : Ref} (budget : Budget most s R W)
    (permits : (W (.atm i)).Permits (.atm i) (.new_account id balance password))
    (ran : run (.atm i) (.new_account id balance password) s = some (q,s')) :
    Budget most s' (note (.atm i) (.new_account id balance password) q s R)
      (Function.update W (.atm i) { (W (.atm i)).drop with written := (W (.atm i)).written + 1 }) := by
  obtain ⟨first,unwritten,_⟩ := permits
  cases ran
  refine budget.paid (q := s.allocated) ⟨rfl,fun k other => by simp [other]⟩ ?_ fun exact _ => exact
  obtain ⟨later,before,after⟩ := outstanding_wrote { (W (.atm i)).drop with written := (W (.atm i)).written + 1 } first rfl rfl
  rw [before,after,unwritten]
  simp [due,gain]

theorem budget_step (inv : BankInvariant.Inv S s V) (tie : MoneyRange.Inv s R V W) (budget : Budget most s R W) (ok : Ok S t (V t) a)
    (permits : (W t).Permits t a) (ran : run t a s = some (r,s')) (leads : (W t).Leads a r h) :
    Budget most s' (note t a r s R) (Function.update W t h) := by
  obtain ⟨Γ,_,L⟩ := inv
  have sees := (L t).2
  have still : (∀ q v, a ≠ .set_balance q v) → (∀ v, a ≠ .set_bank_balance v) → (∀ id v pw, a ≠ .new_account id v pw) →
      outstanding h ≤ outstanding (W t) → h.owed = (W t).owed → Budget most s' (note t a r s R) (Function.update W t h) := by
    intro unwritten unbanked old less owed
    refine budget.same (money_kept ran unwritten unbanked old) ?_ less owed
    rcases note_cases t a r s R with ⟨v,rfl | ⟨q,rfl⟩,_⟩ | ⟨_,same⟩
    · exact absurd rfl (unbanked v)
    · exact absurd rfl (unwritten q v)
    · exact same
  cases a with
  | set_balance q v =>
    obtain rfl := leads
    cases t with
    | atm i => exact budget_set_balance_atm tie sees budget permits ran
    | fee_collection => exact budget_set_balance_fee tie sees budget permits ran
    | accounts_print => exact absurd rfl ok.1.1
    | main => exact absurd rfl ok.1.2
  | set_bank_balance v =>
    obtain rfl := ok.1
    obtain rfl := leads
    exact budget_set_bank_balance tie sees budget permits ran
  | new_account id balance pw =>
    obtain ⟨i,rfl⟩ := ok.1
    obtain rfl := leads
    exact budget_new_account budget permits ran
  | log line =>
    obtain rfl := leads
    exact still (by simp) (by simp) (by simp) (outstanding_logged rfl rfl) rfl
  | rand =>
    obtain rfl := leads
    exact still (by simp) (by simp) (by simp) le_rfl rfl
  | _ =>
    have same := quiet_leads (by trivial) leads
    refine still (by simp) (by simp) (by simp) (le_of_eq ?_) same.owed
    simp only [outstanding,same.todo,same.written]

/-! ### Every run -/

/-- The outline with its layer, under a bound on the money. -/
theorem budget_sound (S : Setting) (n : Nat) (most : Int) :
    ((under (outline S) layer).keeping fun s V => Budget most s.1 s.2 fun t => (V t).2).Sound (recording (bank n) note) := by
  refine ((layer_sound S n).under (bank_sound S n)).keeping ?_
  rintro ⟨s,R⟩ V t a r s' ⟨g,h⟩ ⟨inv,tie⟩ budget ⟨ok,permits⟩ ran ⟨_,leads⟩ _
  obtain ⟨⟨r',s''⟩,did,same⟩ := Option.map_eq_some_iff.mp ran
  cases same
  have moved := budget_step inv tie budget ok permits did leads
  have views : (fun u => (Function.update V t (g,h) u).2) = Function.update (fun u => (V u).2) t h := by
    funext u
    by_cases same : u = t
    · subst same; simp
    · simp [same]
  rwa [views]

/-- The amounts in the files come to at most so much, whichever ATMs are taken together. -/
def FilesAtMost (files : Nat → List Command) (most : Int) : Prop :=
  ∀ ids : Finset Nat, ∑ i ∈ ids, ((files i).map gain).sum ≤ most

theorem initial_budget (bounded : FilesAtMost files most) : Budget most (.initial rand) (.initial files) (MoneyRange.start files) := by
  refine ⟨fun refs ids => ?_,fun _ => rfl⟩
  have fresh : ∀ i, outstanding (MoneyRange.start files (.atm i)) = ((files i).map gain).sum := fun i => outstanding_fresh rfl
  have owes : (MoneyRange.start files .fee_collection).owed = 0 := rfl
  simpa only [Shared.initial,fresh,owes,abs_zero,Finset.sum_const_zero,zero_add,sub_zero,add_zero] using bounded ids

/-- In every state of every run the money is under the bound that the files give. -/
theorem budget_holds (ints : ∀ i, ∀ command ∈ files i, IntAmounts command) (bounded : FilesAtMost files most)
    (ran : Ran n files rand schedule c) : ∃ W, Budget most c.shared.1 c.shared.2 W := by
  obtain ⟨V,inv,follows⟩ := @recorded_starts files rand ints
  obtain ⟨V',⟨_,budget⟩,_⟩ := (budget_sound (anyFiles files) n most).reaches (c := attach (initial files rand) (.initial files))
    ⟨_,⟨inv,initial_budget bounded⟩,fun t => follows_keeping (follows t)⟩ ⟨schedule,ran⟩
  exact ⟨_,budget⟩

/-- No balance is further from zero than the amounts in the files come to. -/
theorem balance_le (ints : ∀ i, ∀ command ∈ files i, IntAmounts command) (bounded : FilesAtMost files most)
    (ran : Ran n files rand schedule c) (q : Ref) : |(c.shared.1.account q).balance| ≤ most := by
  obtain ⟨W,budget⟩ := budget_holds ints bounded ran
  have := budget.held.one q
  have := abs_nonneg (c.shared.1.balance - (W .fee_collection).owed)
  omega

/-- In every run, under every schedule, the sums have all been in range, and the bank with `int`
    balances has done the same, exactly when there has been room for each deposit, each credit
    of a transfer, each withdrawal of an amount below zero and each fee that the bank gains.
    There has been, whatever the schedule, when the amounts in the files together are an `int`. -/
theorem sums_exact_iff (ints : ∀ i, ∀ command ∈ files i, IntAmounts command) (ran : Ran n files rand schedule c) :
    ((c.shared.2.exact = true ∧ (int_bank n).runs schedule (initial files rand) = some (forget c)) ↔ c.shared.2.fits = true) ∧
      (FilesAtMost files INT_MAX →
        c.shared.2.exact = true ∧ (int_bank n).runs schedule (initial files rand) = some (forget c)) := by
  refine ⟨exact_iff_fits ints ran,fun bounded => ?_⟩
  obtain ⟨W,budget⟩ := budget_holds ints bounded ran
  have exact := budget.exact le_rfl
  exact ⟨exact,(runs_int ran exact).2⟩

/-- ATM 1 opens an account with 50 $ and takes an amount below zero out of it; then the account is
    charged at 3 percent. -/
def smallFiles (i : Nat) : List Command := if i = 1 then [.create_account 1 "a" 50,.withdrawl_from_account 1 "a" (-7)] else []
def smallSchedule : List Tid := List.replicate 42 (.atm 1) ++ List.replicate 22 .fee_collection
def smallRun : Option (Programs.Config Tid (Shared × Record) Act Res Ctl) :=
  (recording (bank 1) note).runs smallSchedule (attach (initial smallFiles fun _ => 2) (.initial smallFiles))
theorem small_ends : smallRun.isSome = true := by decide
theorem small_ints : ∀ i, ∀ command ∈ smallFiles i, IntAmounts command := by
  intro i
  unfold smallFiles
  split <;> simp [IntAmounts,InRange,INT_MIN,INT_MAX]

/-- The opening can add 50 $ and the withdrawal seven. -/
theorem small_bounded : FilesAtMost smallFiles INT_MAX := by
  have gains : ∀ i, ((smallFiles i).map gain).sum = if i = 1 then 57 else 0 := by
    intro i
    unfold smallFiles
    split <;> rfl
  intro ids
  simp only [gains,Finset.sum_ite_eq']
  split <;> decide

theorem sums_exact_iff_small :
    (((smallRun.get small_ends).shared.2.exact = true ∧
      (int_bank 1).runs smallSchedule (initial smallFiles fun _ => 2) = some (forget (smallRun.get small_ends))) ↔
      (smallRun.get small_ends).shared.2.fits = true) ∧
    (smallRun.get small_ends).shared.2.exact = true ∧
      (int_bank 1).runs smallSchedule (initial smallFiles fun _ => 2) = some (forget (smallRun.get small_ends)) :=
  have both := sums_exact_iff small_ints (Option.some_get small_ends).symm
  ⟨both.1,both.2 small_bounded⟩

/-- ATM 1 opens an account with one $ and deposits the greatest amount there is into it. -/
def greatFiles (i : Nat) : List Command := if i = 1 then [.create_account 1 "a" 1,.deposit_to_account 1 "a" INT_MAX] else []
def greatSchedule : List Tid := List.replicate 29 (.atm 1)
def greatRun : Option (Programs.Config Tid (Shared × Record) Act Res Ctl) :=
  (recording (bank 1) note).runs greatSchedule (attach (initial greatFiles fun _ => 0) (.initial greatFiles))
theorem great_deposit_exceeds : ¬ ∀ n files rand schedule c, (∀ i, ∀ command ∈ files i, IntAmounts command) →
    Ran n files rand schedule c →
    c.shared.2.exact = true ∧ (int_bank n).runs schedule (initial files rand) = some (forget c) := by
  intro always
  have exceeds : greatRun.map (·.shared.2.exact) = some false := by decide
  obtain ⟨c,ran,inexact⟩ := Option.map_eq_some_iff.mp exceeds
  have ints : ∀ i, ∀ command ∈ greatFiles i, IntAmounts command := by
    intro i
    unfold greatFiles
    split <;> simp [IntAmounts,InRange,INT_MIN,INT_MAX]
  exact absurd ((always 1 greatFiles (fun _ => 0) greatSchedule c ints ran).1) (by simp [inexact])

end StructureOfOs.MoneyBounds
