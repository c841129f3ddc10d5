import StructureOfOs.CommandLines
import StructureOfOs.Endings
import StructureOfOs.Recordings
import StructureOfOs.SerialHistory

/-!
The sums of the bank and the range of an `int`. The balances of the model are exact
integers; beside it stands the bank whose balances are what a 32-bit `int` holds of
them. Only a withdrawal compares before it subtracts, which is enough for it unless
the amount is negative, and a fee takes an account no further from zero. No addition
is guarded: a sum stays in range when there is room for it, and the record of the
bank tells whether there has been room so far.
-/
namespace StructureOfOs.MoneyRange
open StructureOfOs.Programs StructureOfOs.Outlines StructureOfOs.Recordings StructureOfOs.RwLock StructureOfOs.BankState
open StructureOfOs.Accounts StructureOfOs.Atm StructureOfOs.Bank StructureOfOs.Views StructureOfOs.BankInvariant StructureOfOs.Integers
open StructureOfOs.BankOutline StructureOfOs.BankFollows StructureOfOs.SerialHistory StructureOfOs.CommandLines
open StructureOfOs.Debts StructureOfOs.Endings

/-- There is room for `x` between a balance and the end of the range, as one would compare before
    the addition. -/
def Room (balance x : Int) : Prop := if 0 ≤ x then balance ≤ INT_MAX - x else INT_MIN - x ≤ balance
instance (balance x : Int) : Decidable (Room balance x) :=
  inferInstanceAs (Decidable (if 0 ≤ x then balance ≤ INT_MAX - x else INT_MIN - x ≤ balance))

/-- The amounts of a command are `int`s. -/
def IntAmounts : Command → Prop
  | .create_account _ _ balance => InRange balance
  | .deposit_to_account _ _ amount | .withdrawl_from_account _ _ amount
  | .transfer_between_accounts _ _ _ amount => InRange amount
  | .balance_check _ _ | .closing_account _ _ => True

/-! ### The bank with `int` balances -/

/-- The operations where a balance is what an `int` holds of the sum. -/
def int_run (t : Tid) : (a : Act) → Shared → Option (Res a × Shared)
  | .set_balance r balance, s => run t (.set_balance r (int balance)) s
  | .set_bank_balance balance, s => run t (.set_bank_balance (int balance)) s
  | a, s => run t a s
def int_bank (n : Nat) : Machine Tid Shared Act Res Ctl := ⟨int_run,rounds n⟩

/-! ### The record -/

/-- What an ATM adds to a balance next in a command, and whether it has compared the balance
    with the amount, when so many balances have been written: a transfer writes the source's first. -/
def change : Nat → Command → Option (Int × Bool)
  | 0, .deposit_to_account _ _ amount => some (amount,false)
  | 0, .withdrawl_from_account _ _ amount | 0, .transfer_between_accounts _ _ _ amount => some (-amount,true)
  | 1, .transfer_between_accounts _ _ _ amount => some (amount,false)
  | _, _ => none
/-- There is room for a change of a balance: after the comparison only an amount below zero needs it. -/
def Fits (balance : Int) : Option (Int × Bool) → Prop
  | some (x,compared) => (compared = true → 0 < x) → Room balance x
  | none => True
instance (balance : Int) : (x : Option (Int × Bool)) → Decidable (Fits balance x)
  | some (x,compared) => inferInstanceAs (Decidable ((compared = true → 0 < x) → Room balance x))
  | none => .isTrue trivial

/-- The commands each ATM has not finished and how many balances it has written in the first; the
    rate of the fee collector's pass and the account it stands at; whether there has been room for
    every sum that was not safe without, and whether every sum so far is in range. -/
structure Record where
  todo : Nat → List Command
  written : Nat → Nat
  rate : Nat
  stand : Ref
  fits : Bool
  exact : Bool

namespace Record
def initial (files : Nat → List Command) : Record := ⟨files,fun _ => 0,0,0,true,true⟩
/-- What an ATM will add to the balance it writes next. -/
def adds (R : Record) (i : Nat) : Option (Int × Bool) := (R.todo i).head?.bind (change (R.written i))
/-- A balance becomes `v`. -/
def wrote (R : Record) (v : Int) : Record := { R with exact := R.exact && decide (InRange v) }
end Record

/-- The record of the bank. -/
def note : Note Tid Shared Record Act Res
  | .atm i, .set_balance r v, _, s, R =>
    { R.wrote v with
      fits := R.fits && decide (Fits (s.account r).balance (R.adds i))
      written := Function.update R.written i (R.written i + 1) }
  | .atm i, .new_account _ _ _, _, _, R => { R with written := Function.update R.written i (R.written i + 1) }
  | .atm i, .log _, _, _, R =>
    { R with todo := Function.update R.todo i (R.todo i).tail, written := Function.update R.written i 0 }
  | .fee_collection, .rand, x, _, R => { R with rate := x % MAX_FEE + 1 }
  | .fee_collection, .lock (.lock_write (.account r)), _, _, R => { R with stand := r }
  | _, .set_balance _ v, _, _, R => R.wrote v
  | _, .set_bank_balance v, _, s, R =>
    { R.wrote v with fits := R.fits && decide (Room s.balance (fee (s.account R.stand).balance R.rate)) }
  | _, _, _, _, R => R

/-- The runs of the bank with its record. -/
def Ran (n : Nat) (files : Nat → List Command) (rand : Nat → Nat) (schedule : List Tid)
    (c : Programs.Config Tid (Shared × Record) Act Res Ctl) : Prop :=
  (recording (bank n) note).runs schedule (attach (initial files rand) (.initial files)) = some c

/-- Every run of the bank has a record. -/
theorem ran_of_runs {n : Nat} {files : Nat → List Command} {rand : Nat → Nat} {schedule : List Tid} {c : Bank.Config}
    (ran : (bank n).runs schedule (initial files rand) = some c) : ∃ R, Ran n files rand schedule (attach c R) := by
  have recorded : ((recording (bank n) note).runs schedule (attach (initial files rand) (.initial files))).map forget = some c :=
    (forget_runs schedule _).trans ran
  obtain ⟨d,leads,rfl⟩ := Option.map_eq_some_iff.mp recorded
  exact ⟨d.shared.2,leads⟩

/-! ### The arithmetic -/

variable {v x b : Int} {rate : Nat}

/-- The comparison before an addition tells whether the sum is in range. -/
theorem room_iff (range : InRange b) : Room b x ↔ InRange (b + x) := by
  unfold InRange Room INT_MIN INT_MAX at *
  split <;> omega
/-- Where the balance has been compared with the amount, only an amount below zero needs room. -/
theorem fits_iff {compared : Bool} (range : InRange b) (safe : compared = true → 0 ≤ b + x) :
    Fits b (some (x,compared)) ↔ InRange (b + x) := by
  by_cases needs : compared = true → 0 < x
  · exact (imp_iff_right needs).trans (room_iff range)
  · obtain ⟨rfl,below⟩ := Classical.not_imp.mp needs
    have above := safe rfl
    refine iff_of_true (fun need => absurd (need rfl) below) ?_
    unfold InRange INT_MIN INT_MAX at *
    omega

theorem round_neg (x : Rat) : Bank.round (-x) = -Bank.round x := by
  unfold Bank.round
  rcases lt_trichotomy x 0 with below | rfl | above
  · rw [if_pos (by linarith),if_neg (by linarith),neg_neg]
  · norm_num
  · rw [if_neg (by linarith),if_pos above.le,neg_neg]
theorem fee_neg : fee (-b) rate = -fee b rate := by
  rw [fee,fee,← round_neg]
  push_cast
  ring_nf
/-- A fee takes a balance no further from zero. -/
theorem charged_abs (rated : rate ≤ MAX_FEE) : |b - fee b rate| + |fee b rate| = |b| := by
  rcases Int.le_total 0 b with above | below
  · have nonneg := @fee_nonneg b rate above
    have := fee_le above rated
    rw [abs_of_nonneg above,abs_of_nonneg nonneg,abs_of_nonneg (by omega)]
    omega
  · have nonneg := @fee_nonneg (-b) rate (by omega)
    have := @fee_le (-b) rate (by omega) rated
    rw [fee_neg] at *
    rw [abs_of_nonpos below,abs_of_nonpos (by omega : fee b rate ≤ 0),abs_of_nonpos (by omega)]
    omega
theorem charged_inRange (range : InRange b) (rated : rate ≤ MAX_FEE) : InRange (b - fee b rate) := by
  have same := charged_abs (b := b) rated
  unfold InRange INT_MIN INT_MAX at *
  grind

/-! ### The amounts in the files -/

theorem clamped_inRange {p : Prop} [Decidable p] (n : Int) (empty above below read : Streams.Stream) :
    InRange (if p then ((0 : Int),empty) else if INT_MAX < n then (INT_MAX,above) else
      if n < INT_MIN then (INT_MIN,below) else (n,read)).1 := by
  unfold InRange INT_MIN INT_MAX
  split
  · omega
  · split
    · omega
    · split
      · omega
      · dsimp only
        omega
theorem read_int_inRange (text : Streams.Text) : InRange (read_int text).1 := clamped_inRange _ _ _ _ _
theorem extract_inRange {target : Int} (range : InRange target) (s : Streams.Stream) :
    InRange (Streams.extract read_int target s).1 := by
  unfold Streams.extract
  split
  · exact range
  · split
    · exact range
    · exact read_int_inRange _
/-- What a line is read into are `int`s, and so is what it leaves. -/
theorem parse_line_ints {fields : Fields} (range : InRange fields.amount) (line : Streams.Text) :
    (∀ command, (parse_line fields line).1 = some command → IntAmounts command) ∧
      InRange (parse_line fields line).2.amount := by
  unfold parse_line switch
  dsimp only
  split
  · exact ⟨by rintro _ ⟨⟩; exact extract_inRange range _,extract_inRange range _⟩
  · exact ⟨by rintro _ ⟨⟩; exact extract_inRange range _,extract_inRange range _⟩
  · exact ⟨by rintro _ ⟨⟩; exact extract_inRange range _,extract_inRange range _⟩
  · exact ⟨by rintro _ ⟨⟩; trivial,range⟩
  · exact ⟨by rintro _ ⟨⟩; trivial,range⟩
  · exact ⟨by rintro _ ⟨⟩; exact extract_inRange range _,extract_inRange range _⟩
  · exact ⟨by rintro _ ⟨⟩,range⟩
theorem performed_ints {fields : Fields} (range : InRange fields.amount) (lines : List Streams.Text) :
    ∀ command, some command ∈ performed fields lines → IntAmounts command := by
  induction lines generalizing fields with
  | nil => simp [performed]
  | cons line rest ih =>
    intro command member
    cases line with
    | nil => exact ih range command (by simpa [performed] using member)
    | cons c text =>
      obtain ⟨own,after⟩ := parse_line_ints range (c :: text)
      rcases List.mem_cons.mp member with same | later
      · exact own command same.symm
      · exact ih after command later
/-- The commands that a file is read as have `int` amounts, whatever the variables held before. -/
theorem commands_ints {fields : Fields} (range : InRange fields.amount) (file : Streams.Text) :
    ∀ command ∈ commands fields file, IntAmounts command := by
  intro command member
  obtain ⟨_,performed,rfl⟩ := List.mem_filterMap.mp member
  exact performed_ints range _ command performed

/-! ### The two banks -/

variable {n : Nat} {files : Nat → List Command} {rand : Nat → Nat} {schedule : List Tid} {s s' : Shared} {R : Record}
  {c d : Programs.Config Tid (Shared × Record) Act Res Ctl} {t : Tid} {a : Act} {r : Res a}

/-- Every balance that is written has been checked. -/
theorem note_cases (t : Tid) (a : Act) (r : Res a) (s : Shared) (R : Record) :
    (∃ v, (a = .set_bank_balance v ∨ ∃ q, a = .set_balance q v) ∧
      (note t a r s R).exact = (R.exact && decide (InRange v))) ∨
    ((∀ v, a ≠ .set_bank_balance v ∧ ∀ q, a ≠ .set_balance q v) ∧ (note t a r s R).exact = R.exact) := by
  cases a with
  | set_balance q v => exact .inl ⟨v,.inr ⟨q,rfl⟩,by cases t <;> rfl⟩
  | set_bank_balance v => exact .inl ⟨v,.inl rfl,by cases t <;> rfl⟩
  | lock m =>
    refine .inr ⟨by simp,?_⟩
    cases t with
    | fee_collection =>
      cases m with
      | lock_write l => cases l <;> rfl
      | _ => rfl
    | _ => rfl
  | _ => exact .inr ⟨by simp,by cases t <;> rfl⟩

/-- A step that keeps the sums in range is a step of the bank with `int` balances. -/
theorem step_int (stepped : (recording (bank n) note).step c t = some d) (exact : d.shared.2.exact = true) :
    c.shared.2.exact = true ∧ (int_bank n).step (forget c) t = some (forget d) := by
  rcases step_cases stepped with ⟨point,p,left,started,rfl⟩ | ⟨a,next,r,out,left,ran,rfl⟩
  · refine ⟨exact,?_⟩
    have started : rounds n t point = some p := started
    simp [Machine.step,forget,left,int_bank,started]
  · obtain ⟨⟨r,s⟩,did,same⟩ := Option.map_eq_some_iff.mp ran
    cases same
    have did : run t a c.shared.1 = some (r,s) := did
    have exact : (note t a r c.shared.1 c.shared.2).exact = true := exact
    have ran' : c.shared.2.exact = true ∧ int_run t a c.shared.1 = some (r,s) := by
      rcases note_cases t a r c.shared.1 c.shared.2 with ⟨v,own,checked⟩ | ⟨other,same⟩
      · obtain ⟨before,range⟩ := Bool.and_eq_true_iff.mp (checked.symm.trans exact)
        have holds := int_of_inRange (of_decide_eq_true range)
        refine ⟨before,?_⟩
        rcases own with rfl | ⟨q,rfl⟩
        · rw [int_run,holds]; exact did
        · rw [int_run,holds]; exact did
      · refine ⟨same.symm.trans exact,?_⟩
        cases a with
        | set_balance q v => exact absurd rfl ((other v).2 q)
        | set_bank_balance v => exact absurd rfl (other v).1
        | _ => exact did
    refine ⟨ran'.1,?_⟩
    simp [Machine.step,forget,left,int_bank,ran'.2]

/-- As long as the sums are in range, the two banks do the same. -/
theorem runs_int (ran : (recording (bank n) note).runs schedule c = some d) (exact : d.shared.2.exact = true) :
    c.shared.2.exact = true ∧ (int_bank n).runs schedule (forget c) = some (forget d) := by
  induction schedule generalizing c with
  | nil => cases ran; exact ⟨exact,rfl⟩
  | cons t rest ih =>
    obtain ⟨middle,stepped,later⟩ := Option.bind_eq_some_iff.mp ran
    obtain ⟨before,later⟩ := ih later
    obtain ⟨first,stepped⟩ := step_int stepped before
    refine ⟨first,?_⟩
    rw [Machine.runs,stepped]
    exact later

/-! ### The views -/

/-- Where a thread is in its commands or in its pass, and the balances it has just read. The bank
    has `owed` the account at which the fee collector stands, until this is charged. -/
structure Work where
  todo : List Command
  written : Nat
  rate : Nat
  stand : Ref
  owed : Int
  read : Option (Ref × Int)
  bank : Option Int

namespace Work
/-- What was read is no longer relied on. -/
def drop (h : Work) : Work := { h with read := none, bank := none }
@[simp] theorem drop_read (h : Work) : h.drop.read = none := rfl
@[simp] theorem drop_bank (h : Work) : h.drop.bank = none := rfl

def Permits (h : Work) : Tid → Act → Prop
  | .atm _, .set_balance r v => ∃ b x compared, h.todo.head?.bind (change h.written) = some (x,compared) ∧
      h.read = some (r,b) ∧ v = b + x ∧ (compared = true → 0 ≤ b + x)
  | .atm _, .new_account id balance pw => h.todo.head? = some (.create_account id pw balance) ∧ h.written = 0 ∧ InRange balance
  | .fee_collection, .set_bank_balance v =>
    h.rate ≤ MAX_FEE ∧ h.owed = 0 ∧ ∃ b x, h.read = some (h.stand,b) ∧ h.bank = some x ∧ v = x + fee b h.rate
  | .fee_collection, .set_balance r v =>
    h.rate ≤ MAX_FEE ∧ ∃ b, h.read = some (r,b) ∧ h.owed = fee b h.rate ∧ v = b - fee b h.rate
  | _, _ => True
def Leads (h : Work) : (a : Act) → Res a → Work → Prop
  | .rand, x, h' => h' = { h.drop with rate := x % MAX_FEE + 1 }
  | .lock (.lock_write (.account r)), _, h' => h' = { h.drop with stand := r }
  | .balance r, v, h' => (∀ b, h.read = some (r,b) → v = b) ∧ h' = { h with read := some (r,v) }
  | .bank_balance, v, h' => h' = { h with bank := some v }
  | .set_bank_balance v, _, h' => h' = { h with bank := none, owed := v - h.bank.getD 0 }
  | .set_balance _ _, _, h' => h' = { h.drop with written := h.written + 1, owed := 0 }
  | .new_account _ _ _, _, h' => h' = { h.drop with written := h.written + 1 }
  | .log _, _, h' => h' = { h.drop with todo := h.todo.tail, written := 0 }
  | _, _, h' => h' = h.drop
/-- The views at the points where the loops of the ATMs and of the fee collector come round. -/
def Loop (h : Work) : Tid → Ctl → Prop
  | .atm _, .parser_file todo => h.todo = todo ∧ h.written = 0 ∧ ∀ c ∈ todo, IntAmounts c
  | .fee_collection, .charge_accounts rate _ => h.rate = rate ∧ rate ≤ MAX_FEE ∧ h.owed = 0
  | .fee_collection, .fee_collection => h.owed = 0
  | .atm _, .ended | .fee_collection, .ended => True
  | .atm _, _ | .fee_collection, _ => False
  | _, _ => True
end Work

/-- The record beside the state and the views. -/
structure Inv (s : Shared) (R : Record) (V : Tid → View) (W : Tid → Work) : Prop where
  commands : ∀ i, R.todo i = (W (.atm i)).todo ∧ R.written i = (W (.atm i)).written
  pass : R.rate = (W .fee_collection).rate ∧ R.stand = (W .fee_collection).stand
  read : ∀ t r b, (W t).read = some (r,b) → ∃ a, (V t).cell r = some (b,a)
  bank : ∀ t x, (W t).bank = some x → ∃ a, (V t).bank = some (x,a)
  exact : R.exact = R.fits
  range : R.exact = true → (∀ r, InRange (s.account r).balance) ∧ InRange s.balance

/-- The record's layer over the outline of the bank. -/
def layer : Layer Tid Shared Record Act Res Ctl View Work where
  Inv := Inv
  Ok t h a := h.Permits t a
  Next _ h a r h' := h.Leads a r h'
  Loop t point h := h.Loop t point

variable {h h' : Work} {α β : Type} {i written : Nat} {todo rest : List Command} {command : Command} {q : Ref}
  {amount account_id : Int} {password : String} {line : Line}

/-! ### The code of an ATM -/

/-- The thread has these commands to do, and has written so many balances in the first. -/
def At (todo : List Command) (written : Nat) (h : Work) : Prop := h.todo = todo ∧ h.written = written

theorem follows_one {a : Act} {Q : Res a → Work → Prop} (permits : h.Permits t a) (next : ∀ x h', h.Leads a x h' → Q x h') :
    layer.outline.Follows t (.call a) h Q :=
  (follows_call a Q).mpr ⟨permits,next⟩

/-- An operation that no view stands in the way of, and that leaves the commands and the rate alone. -/
def Quiet : Act → Prop
  | .set_balance _ _ | .set_bank_balance _ | .new_account _ _ _ | .log _ | .rand => False
  | _ => True
/-- The thread is where it was in its commands, and its pass has the same rate and owes the same. -/
structure Same (h h' : Work) : Prop where
  todo : h'.todo = h.todo
  written : h'.written = h.written
  rate : h'.rate = h.rate
  owed : h'.owed = h.owed
/-- A program that may run from everywhere and leaves the commands and the rate alone. -/
def Keeps (p : Code α) : Prop := ∀ t h, layer.outline.Follows t p h fun _ h' => Same h h'

theorem quiet_permits (quiet : Quiet a) : h.Permits t a := by
  cases a <;> cases t <;> trivial
theorem quiet_leads (quiet : Quiet a) (leads : h.Leads a r h') : Same h h' := by
  cases a with
  | set_balance _ _ | set_bank_balance _ | new_account _ _ _ | log _ | rand => cases quiet
  | balance q => obtain ⟨_,rfl⟩ := leads; exact ⟨rfl,rfl,rfl,rfl⟩
  | lock m =>
    cases m with
    | lock_write l => cases l <;> (obtain rfl := leads; exact ⟨rfl,rfl,rfl,rfl⟩)
    | _ => obtain rfl := leads; exact ⟨rfl,rfl,rfl,rfl⟩
  | _ => obtain rfl := leads; exact ⟨rfl,rfl,rfl,rfl⟩

instance : Allows Still Quiet where
  may a kind := by
    cases a with
    | set_balance _ _ | set_bank_balance _ | new_account _ _ _ | log _ | rand => exact kind
    | _ => trivial

theorem Same.trans {h'' : Work} (first : Same h h') (second : Same h' h'') : Same h h'' :=
  ⟨second.todo.trans first.todo,second.written.trans first.written,second.rate.trans first.rate,second.owed.trans first.owed⟩
theorem keeps_call (quiet : Quiet a) : Keeps (.call a) :=
  fun _ _ => follows_one (quiet_permits quiet) fun _ _ leads => quiet_leads quiet leads
theorem keeps_lock {m : Mutex} : Keeps (pthread_mutex_lock m) := keeps_call trivial
theorem keeps_bind {p : Code α} {f : α → Code β} (first : Keeps p) (rest : ∀ value, Keeps (f value)) : Keeps (p >>= f) := by
  intro t h
  refine follows_seq (first t h) fun value h' here => ?_
  exact follows_mono (fun _ h'' after => here.trans after) (rest value t h')
/-- The pieces of the operations that only lock and look. -/
theorem keeps_within {k : Nat} {p : Code α} (within : Within Quiet k p) : Keeps p := by
  induction p generalizing k with
  | ret value => exact fun _ _ => ⟨rfl,rfl,rfl,rfl⟩
  | act a next ih =>
    cases k with
    | zero => exact within.elim
    | succ k =>
      intro t h
      refine ⟨quiet_permits within.1,fun r h' leads => ?_⟩
      exact follows_mono (fun _ h'' after => (quiet_leads within.1 leads).trans after) (ih r (within.2 r) t h')

/-- A program that leaves the commands alone, at the end of a command or before the rest. -/
theorem follows_at {p : Code α} (keeps : Keeps p) (here : At todo written h) :
    layer.outline.Follows t p h fun _ h' => At todo written h' :=
  follows_mono (fun _ _ same => ⟨same.todo.trans here.1,same.written.trans here.2⟩) (keeps t h)
theorem follows_at_then {p : Code α} {f : α → Code β} {Q : β → Work → Prop} (keeps : Keeps p) (here : At todo written h)
    (next : ∀ value h', At todo written h' → layer.outline.Follows t (f value) h' Q) : layer.outline.Follows t (p >>= f) h Q :=
  follows_seq (follows_at keeps here) next
/-- The line in the log ends a command. -/
theorem follows_log {p : Code Unit} (here : At todo written h) (keeps : Keeps p) :
    layer.outline.Follows t (do .call (Act.log line); p) h fun _ h' => At todo.tail 0 h' := by
  refine follows_then (follows_one (by cases t <;> trivial) ?_)
  rintro _ _ rfl
  exact follows_at keeps ⟨congrArg List.tail here.1,rfl⟩
theorem follows_log_print {p : Code Unit} (here : At todo written h) (keeps : Keeps p) :
    layer.outline.Follows t (do log_print line; p) h fun _ h' => At todo.tail 0 h' := by
  refine follows_seq (Q := fun _ h' => At todo.tail 0 h') ?_ fun _ h ended => follows_at keeps ended
  exact follows_at_then (keeps_call trivial) here fun _ h here => follows_log here (keeps_call trivial)
/-- A line with a balance that is read under the log's mutex. -/
theorem follows_log_balance {line : Int → Line} {p : Code Unit} (here : At todo written h) (keeps : Keeps p) :
    layer.outline.Follows t (do
      pthread_mutex_lock .log_print_lock
      let balance ← balance_of q
      .call (Act.log (line balance))
      pthread_mutex_unlock .log_print_lock
      p) h fun _ h' => At todo.tail 0 h' := by
  refine follows_at_then (keeps_call trivial) here fun _ h here => ?_
  refine follows_at_then (keeps_call trivial) here fun _ h here => ?_
  exact follows_log here (keeps_bind (keeps_call trivial) fun _ => keeps)

theorem follows_deposit (here : At (command :: rest) written h) (adds : change written command = some (amount,false)) :
    layer.outline.Follows (.atm i) (deposit q amount) h fun _ h' => At (command :: rest) (written + 1) h' := by
  obtain ⟨todo,halfway⟩ := here
  refine follows_then (follows_one trivial ?_)
  rintro (b : Int) _ ⟨_,rfl⟩
  refine follows_one ⟨b,amount,false,?_,rfl,rfl,by simp⟩ ?_
  · simp [todo,halfway,adds]
  · rintro _ _ rfl
    exact ⟨todo,congrArg (· + 1) halfway⟩
/-- The balance read after the comparison is the one compared. -/
theorem follows_withdrawl (here : At (command :: rest) written h) (adds : change written command = some (-amount,true)) :
    layer.outline.Follows (.atm i) (withdrawl q amount) h fun done h' =>
      At (command :: rest) (if done then written + 1 else written) h' := by
  obtain ⟨todo,halfway⟩ := here
  refine follows_then (follows_one trivial ?_)
  rintro (b : Int) _ ⟨_,rfl⟩
  by_cases lower : b < amount
  · rw [if_pos lower]
    exact ⟨todo,by simp [halfway]⟩
  · rw [if_neg lower]
    refine follows_then (follows_one trivial ?_)
    rintro (b' : Int) _ ⟨same,rfl⟩
    obtain rfl := same b rfl
    refine follows_then (follows_one ⟨b',-amount,true,?_,rfl,by omega,fun _ => by omega⟩ ?_)
    · simp [todo,halfway,adds]
    · rintro _ _ rfl
      exact ⟨todo,congrArg (· + 1) halfway⟩

/-- The way of an ATM that does not write to the list up to the account that it looks for. -/
theorem follows_look_up {p : Option Ref → Code Unit} {Q : Unit → Work → Prop} (here : At todo written h)
    (next : ∀ it h', At todo written h' → layer.outline.Follows t (p it) h' Q) :
    layer.outline.Follows t (do
      wait_for_writer
      lock_account_list_for_read
      let it ← find account_id
      p it) h Q := by
  refine follows_at_then (keeps_within within_wait_for_writer) here fun _ h here => ?_
  refine follows_at_then (keeps_within within_lock_for_read) here fun _ h here => ?_
  exact follows_at_then (keeps_call trivial) here next
/-- An operation on an account that is there: it goes on only where the password is right. -/
theorem follows_own_account {lock leave own : Code Unit} {gone wrong : Line} (locks : Keeps lock) (leaves : Keeps leave)
    (here : At todo 0 h)
    (next : ∀ h', At todo 0 h' → layer.outline.Follows t own h' fun _ h' => At todo.tail 0 h') :
    layer.outline.Follows t (do
      lock
      if ← deleted q then
        log_print gone
        leave
      else if ← vallid_password q password then own
      else
        log_print wrong
        leave) h fun _ h' => At todo.tail 0 h' := by
  refine follows_at_then locks here fun _ h here => ?_
  refine follows_at_then (keeps_call trivial) here fun (gone : Bool) h here => ?_
  cases gone with
  | true => exact follows_log_print here leaves
  | false =>
    refine follows_at_then (keeps_within within_vallid_password) here fun right h here => ?_
    cases right with
    | false => exact follows_log_print here leaves
    | true => exact next h here

theorem follows_create_account {balance : Int} (ints : InRange balance)
    (here : At (.create_account account_id password balance :: rest) 0 h) :
    layer.outline.Follows (.atm i) (create_account i account_id password balance) h fun _ h' => At rest 0 h' := by
  refine follows_at_then (keeps_call trivial) here fun _ h here => ?_
  refine follows_at_then (keeps_call trivial) here fun _ h here => ?_
  refine follows_at_then (keeps_call trivial) here fun it h here => ?_
  refine follows_at_then (keeps_within (within_does_not_exsit it)) here fun free h here => ?_
  cases free with
  | false => exact follows_log_print here (keeps_within (within_finish_writing (k := 0)))
  | true =>
    obtain ⟨todo,unwritten⟩ := here
    refine follows_then (follows_one ⟨by rw [todo]; rfl,unwritten,ints⟩ ?_)
    rintro (q : Ref) _ rfl
    have here : At (.create_account account_id password balance :: rest) 1 { h.drop with written := h.written + 1 } :=
      ⟨todo,congrArg (· + 1) unwritten⟩
    refine follows_at_then (keeps_call trivial) here fun _ h here => ?_
    refine follows_at_then (keeps_call trivial) here fun _ h here => ?_
    exact follows_log_print here (keeps_within (within_leave_list (k := 0)))

theorem follows_deposit_to_account (here : At (.deposit_to_account account_id password amount :: rest) 0 h) :
    layer.outline.Follows (.atm i) (deposit_to_account i account_id password amount) h fun _ h' => At rest 0 h' := by
  refine follows_look_up here fun it h here => ?_
  cases it with
  | none => exact follows_log_print here (keeps_within (within_unlock_from_read (k := 0)))
  | some q =>
    refine follows_own_account keeps_lock (keeps_within (within_leave_write (k := 0))) here fun h here => ?_
    exact follows_seq (follows_deposit here rfl) fun _ _ here => follows_log_balance here (keeps_within (within_leave_write (k := 0)))

theorem follows_withdrawl_from_account (here : At (.withdrawl_from_account account_id password amount :: rest) 0 h) :
    layer.outline.Follows (.atm i) (withdrawl_from_account i account_id password amount) h fun _ h' => At rest 0 h' := by
  refine follows_look_up here fun it h here => ?_
  cases it with
  | none => exact follows_log_print here (keeps_within (within_unlock_from_read (k := 0)))
  | some q =>
    refine follows_own_account keeps_lock (keeps_within (within_leave_write (k := 0))) here fun h here => ?_
    refine follows_seq (follows_withdrawl here rfl) fun done h here => ?_
    cases done with
    | false => exact follows_log_print here (keeps_within (within_leave_write (k := 0)))
    | true => exact follows_log_balance here (keeps_within (within_leave_write (k := 0)))

theorem follows_closing_account (here : At todo 0 h) :
    layer.outline.Follows (.atm i) (closing_account i account_id password) h fun _ h' => At todo.tail 0 h' := by
  refine follows_at_then (keeps_call trivial) here fun _ h here => ?_
  refine follows_at_then (keeps_call trivial) here fun _ h here => ?_
  refine follows_at_then (keeps_call trivial) here fun it h here => ?_
  cases it with
  | none => exact follows_log_print here (keeps_within (within_finish_writing (k := 0)))
  | some q =>
    refine follows_own_account keeps_lock (keeps_within (within_leave_list (k := 0))) here fun h here => ?_
    refine follows_at_then (keeps_call trivial) here fun _ h here => ?_
    refine follows_at_then (keeps_call trivial) here fun _ h here => ?_
    refine follows_at_then (keeps_call trivial) here fun _ h here => ?_
    refine follows_at_then (keeps_call trivial) here fun _ h here => ?_
    exact follows_log_balance here (keeps_within (within_leave_list (k := 0)))

theorem follows_balance_check (here : At todo 0 h) :
    layer.outline.Follows (.atm i) (balance_check i account_id password) h fun _ h' => At todo.tail 0 h' := by
  refine follows_look_up here fun it h here => ?_
  cases it with
  | none => exact follows_log_print here (keeps_within (within_unlock_from_read (k := 0)))
  | some q =>
    refine follows_own_account (keeps_within within_lock_for_read) (keeps_within (within_leave_read (k := 0))) here fun h here => ?_
    exact follows_log_balance here (keeps_within (within_leave_read (k := 0)))

theorem follows_transfer_between_accounts {src dest : Int}
    (here : At (.transfer_between_accounts src password dest amount :: rest) 0 h) :
    layer.outline.Follows (.atm i) (transfer_between_accounts i src password dest amount) h fun _ h' => At rest 0 h' := by
  refine follows_at_then (keeps_within within_wait_for_writer) here fun _ h here => ?_
  refine follows_at_then (keeps_within within_lock_for_read) here fun _ h here => ?_
  refine follows_at_then (keeps_call trivial) here fun _ h here => ?_
  refine follows_at_then (keeps_call trivial) here fun it_src h here => ?_
  refine follows_at_then (keeps_call trivial) here fun it_dest h here => ?_
  cases it_src with
  | none => exact follows_log_print here (keeps_within (within_leave_transfer (k := 0)))
  | some src =>
    cases it_dest with
    | none => exact follows_log_print here (keeps_within (within_leave_transfer (k := 0)))
    | some dest =>
      refine follows_at_then (keeps_call trivial) here fun _ h here => ?_
      refine follows_at_then (keeps_call trivial) here fun _ h here => ?_
      refine follows_at_then (keeps_within within_either_deleted) here fun gone h here => ?_
      cases gone with
      | true =>
        refine follows_at_then (keeps_call trivial) here fun (gone : Bool) h here => ?_
        cases gone <;> exact follows_log_print here (keeps_within (within_finish_transfer (k := 0)))
      | false =>
        refine follows_at_then (keeps_within within_vallid_password) here fun own h here => ?_
        cases own with
        | false => exact follows_log_print here (keeps_within (within_finish_transfer (k := 0)))
        | true =>
          refine follows_seq (follows_withdrawl here rfl) fun done h here => ?_
          cases done with
          | false => exact follows_log_print here (keeps_within (within_finish_transfer (k := 0)))
          | true =>
            -- the credit adds as a deposit does
            refine follows_seq (p := deposit dest amount) (follows_deposit here rfl) fun _ h here => ?_
            refine follows_at_then (keeps_call trivial) here fun _ h here => ?_
            refine follows_at_then (keeps_call trivial) here fun _ h here => ?_
            refine follows_at_then (keeps_call trivial) here fun _ h here => ?_
            exact follows_log here (keeps_bind (keeps_call trivial) fun _ => keeps_within (within_finish_transfer (k := 0)))

theorem follows_perform (ints : IntAmounts command) (here : At (command :: rest) 0 h) :
    layer.outline.Follows (.atm i) (perform i command) h fun _ h' => At rest 0 h' := by
  cases command with
  | create_account account_id password balance => exact follows_create_account ints here
  | deposit_to_account account_id password amount => exact follows_deposit_to_account here
  | withdrawl_from_account account_id password amount => exact follows_withdrawl_from_account here
  | balance_check account_id password => exact follows_balance_check here
  | closing_account account_id password => exact follows_closing_account here
  | transfer_between_accounts src password dest amount => exact follows_transfer_between_accounts here

/-! ### The rounds -/

/-- The printer and `main` have nothing to do with the sums. -/
theorem follows_others {p : Code α} {Q : α → Work → Prop} (permitted : ∀ h a, Work.Permits h t a)
    (rest : ∀ value h', Q value h') : layer.outline.Follows t p h Q := by
  induction p generalizing h with
  | ret value => exact rest value h
  | act a next ih => exact ⟨permitted h a,fun r h' _ => ih r⟩

theorem follows_parser_file (looped : h.Loop (.atm i) (.parser_file todo)) :
    layer.outline.Follows (.atm i) (parser_file i todo) h fun point h' => h'.Loop (.atm i) point := by
  obtain ⟨todo',half,ints⟩ := looped
  cases todo with
  | nil => exact follows_at_then (keeps_call trivial) ⟨todo',half⟩ fun _ _ _ => trivial
  | cons c rest =>
    refine follows_seq (follows_perform (ints c (List.mem_cons_self ..)) ⟨todo',half⟩) fun _ h here => ?_
    exact ⟨here.1,here.2,fun c member => ints c (List.mem_cons_of_mem _ member)⟩

theorem follows_fee_collection (settled : h.owed = 0) :
    layer.outline.Follows .fee_collection fee_collection h fun point h' => h'.Loop .fee_collection point := by
  refine follows_then (follows_one trivial ?_)
  rintro (flag : Bool) _ rfl
  cases flag with
  | false =>
    refine follows_then (follows_one trivial ?_)
    rintro _ _ rfl
    trivial
  | true =>
    rw [if_pos rfl]
    refine follows_then (follows_one trivial ?_)
    rintro (rand : Nat) _ rfl
    refine follows_seq (keeps_within within_lock_for_read .fee_collection _) ?_
    rintro _ h' same
    refine follows_then (follows_one trivial ?_)
    rintro it _ rfl
    exact ⟨same.rate,Nat.mod_lt rand (by decide),same.owed.trans settled⟩

theorem follows_charge_accounts {it : Option (Int × Ref)} (looped : h.Loop .fee_collection (.charge_accounts rate it)) :
    layer.outline.Follows .fee_collection (charge_accounts rate it) h fun point h' => h'.Loop .fee_collection point := by
  obtain ⟨rfl,rated,settled⟩ := looped
  cases it with
  | none =>
    refine follows_seq (keeps_within (within_unlock_from_read (k := 0)) .fee_collection _) ?_
    rintro _ _ same
    exact same.owed.trans settled
  | some e =>
    obtain ⟨key,q⟩ := e
    refine follows_then (follows_one trivial ?_)
    rintro _ _ rfl
    refine follows_then (follows_one trivial ?_)
    rintro (b : Int) _ ⟨_,rfl⟩
    refine follows_then (follows_one trivial ?_)
    rintro (bank : Int) _ rfl
    refine follows_then (follows_one ⟨rated,settled,b,bank,rfl,rfl,rfl⟩ ?_)
    rintro _ _ rfl
    refine follows_then (follows_one trivial ?_)
    rintro (b' : Int) _ ⟨same,rfl⟩
    obtain rfl := same b rfl
    refine follows_then (follows_one ⟨rated,b',rfl,add_sub_cancel_left bank _,rfl⟩ ?_)
    rintro _ _ rfl
    refine follows_then (follows_one trivial ?_)
    rintro _ _ rfl
    refine follows_then (follows_one trivial ?_)
    rintro (id : Int) _ rfl
    refine follows_then (follows_one trivial ?_)
    rintro _ _ rfl
    refine follows_then (follows_one trivial ?_)
    rintro _ _ rfl
    refine follows_then (follows_one trivial ?_)
    rintro _ _ rfl
    refine follows_then (follows_one trivial ?_)
    rintro it _ rfl
    exact ⟨rfl,rated,rfl⟩

theorem round_follows {point : Ctl} {p : Code Ctl} (looped : layer.Loop t point h) (started : rounds n t point = some p) :
    layer.outline.Follows t p h (layer.Loop t) := by
  cases t with
  | accounts_print => exact follows_others (fun _ _ => trivial) fun _ _ => trivial
  | main => exact follows_others (fun _ _ => trivial) fun _ _ => trivial
  | atm i =>
    cases point <;> simp only [layer,Work.Loop,rounds,Option.some.injEq,reduceCtorEq] at looped started
    subst started
    exact follows_parser_file looped
  | fee_collection =>
    cases point <;> simp only [layer,Work.Loop,rounds,Option.some.injEq,reduceCtorEq] at looped started <;> subst started
    case fee_collection => exact follows_fee_collection looped
    case charge_accounts => exact follows_charge_accounts looped

/-! ### The record beside the bank -/

variable {S : Setting} {Γ : Ghost} {R' : Record} {V : Tid → View} {W : Tid → Work} {g : View}

theorem money_kept (ran : run t a s = some (r,s')) (unwritten : ∀ q v, a ≠ .set_balance q v)
    (unbanked : ∀ v, a ≠ .set_bank_balance v) (old : ∀ id v pw, a ≠ .new_account id v pw) :
    (∀ q, (s'.account q).balance = (s.account q).balance) ∧ s'.balance = s.balance := by
  rcases run_money ran with ⟨q,v,is⟩ | ⟨v,is⟩ | ⟨id,v,pw,is⟩ | ⟨kept,_⟩
  · exact absurd is (unwritten q v)
  · exact absurd is (unbanked v)
  · exact absurd is (old id v pw)
  · exact kept

/-- A thread's step keeps the ties when it keeps its own. -/
theorem Inv.step (tie : Inv s R V W)
    (mine : ∀ i, t = .atm i → R'.todo i = h.todo ∧ R'.written i = h.written)
    (others : ∀ i, t ≠ .atm i → R'.todo i = R.todo i ∧ R'.written i = R.written i)
    (charging : t = .fee_collection → R'.rate = h.rate ∧ R'.stand = h.stand)
    (standing : t ≠ .fee_collection → R'.rate = R.rate ∧ R'.stand = R.stand)
    (read : ∀ q b, h.read = some (q,b) → ∃ a, g.cell q = some (b,a)) (bank : ∀ x, h.bank = some x → ∃ a, g.bank = some (x,a))
    (exact : R'.exact = R'.fits) (range : R'.exact = true → (∀ q, InRange (s'.account q).balance) ∧ InRange s'.balance) :
    Inv s' R' (Function.update V t g) (Function.update W t h) where
  commands i := by
    by_cases same : t = .atm i
    · subst same
      simpa using mine i rfl
    · obtain ⟨todo,half⟩ := others i same
      simpa [Ne.symm same,todo,half] using tie.commands i
  pass := by
    by_cases same : t = .fee_collection
    · subst same
      simpa using charging rfl
    · obtain ⟨rate,stand⟩ := standing same
      simpa [Ne.symm same,rate,stand] using tie.pass
  read u q b known := by
    by_cases same : u = t
    · subst same
      simpa using read q b (by simpa using known)
    · simpa [same] using tie.read u q b (by simpa [same] using known)
  bank u x known := by
    by_cases same : u = t
    · subst same
      simpa using bank x (by simpa using known)
    · simpa [same] using tie.bank u x (by simpa [same] using known)
  exact := exact
  range := range

theorem Inv.range_kept (tie : Inv s R V W)
    (kept : (∀ q, (s'.account q).balance = (s.account q).balance) ∧ s'.balance = s.balance) (exact : R.exact = true) :
    (∀ q, InRange (s'.account q).balance) ∧ InRange s'.balance := by
  obtain ⟨accounts,bank⟩ := tie.range exact
  exact ⟨fun q => (kept.1 q).symm ▸ accounts q,kept.2.symm ▸ bank⟩
/-- A step that the record does not see, when the balances stay as they are. -/
theorem Inv.unseen (tie : Inv s R V W) (commands : h.todo = (W t).todo ∧ h.written = (W t).written)
    (pass : t = .fee_collection → h.rate = (W t).rate ∧ h.stand = (W t).stand)
    (read : ∀ q b, h.read = some (q,b) → ∃ a, g.cell q = some (b,a)) (bank : ∀ x, h.bank = some x → ∃ a, g.bank = some (x,a))
    (kept : (∀ q, (s'.account q).balance = (s.account q).balance) ∧ s'.balance = s.balance) :
    Inv s' R (Function.update V t g) (Function.update W t h) := by
  refine tie.step ?_ (fun _ _ => ⟨rfl,rfl⟩) ?_ (fun _ => ⟨rfl,rfl⟩) read bank tie.exact (tie.range_kept kept)
  · rintro i rfl
    rw [commands.1,commands.2]
    exact tie.commands i
  · rintro rfl
    rw [(pass rfl).1,(pass rfl).2]
    exact tie.pass
theorem Inv.drop (tie : Inv s R V W) (kept : (∀ q, (s'.account q).balance = (s.account q).balance) ∧ s'.balance = s.balance) :
    Inv s' R (Function.update V t g) (Function.update W t (W t).drop) :=
  tie.unseen ⟨rfl,rfl⟩ (fun _ => ⟨rfl,rfl⟩) (by simp) (by simp) kept

/-- The flags agree after a balance has been written, where the room and the range do. -/
theorem flags_agree {flag flag' : Bool} {p q : Prop} [Decidable p] [Decidable q] (same : flag = flag') (agree : flag = true → (p ↔ q)) :
    (flag && decide q) = (flag' && decide p) := by
  subst same
  cases flag with
  | false => rfl
  | true => simp [agree rfl]

/-- The beginning of a pass, and of a charge: the fee collector's record is its view's. -/
theorem act_rand {rand : Nat} (tie : Inv s R V W) (ran : run t .rand s = some (rand,s')) :
    Inv s' (note t .rand rand s R) (Function.update V t g) (Function.update W t { (W t).drop with rate := rand % MAX_FEE + 1 }) := by
  have kept := money_kept ran (by simp) (by simp) (by simp)
  by_cases fee : t = .fee_collection
  · subst fee
    exact tie.step (by simp) (fun _ _ => ⟨rfl,rfl⟩) (fun _ => ⟨rfl,tie.pass.2⟩) (by simp) (by simp) (by simp)
      tie.exact (tie.range_kept kept)
  · have unseen : note t .rand rand s R = R := by cases t <;> first | rfl | exact absurd rfl fee
    rw [unseen]
    exact tie.unseen ⟨rfl,rfl⟩ (fun own => absurd own fee) (by simp) (by simp) kept
theorem act_lock_write (tie : Inv s R V W) (ran : run t (.lock (.lock_write (.account q))) s = some ((),s')) :
    Inv s' (note t (.lock (.lock_write (.account q))) () s R) (Function.update V t g)
      (Function.update W t { (W t).drop with stand := q }) := by
  have kept := money_kept ran (by simp) (by simp) (by simp)
  by_cases fee : t = .fee_collection
  · subst fee
    exact tie.step (by simp) (fun _ _ => ⟨rfl,rfl⟩) (fun _ => ⟨tie.pass.1,rfl⟩) (by simp) (by simp) (by simp)
      tie.exact (tie.range_kept kept)
  · have unseen : note t (.lock (.lock_write (.account q))) () s R = R := by cases t <;> first | rfl | exact absurd rfl fee
    rw [unseen]
    exact tie.unseen ⟨rfl,rfl⟩ (fun own => absurd own fee) (by simp) (by simp) kept

theorem act_log (tie : Inv s R V W) (ran : run t (.log line) s = some ((),s')) :
    Inv s' (note t (.log line) () s R) (Function.update V t g)
      (Function.update W t { (W t).drop with todo := (W t).todo.tail, written := 0 }) := by
  cases ran
  cases t with
  | atm i =>
    refine tie.step ?_ ?_ (by simp) (fun _ => ⟨rfl,rfl⟩) (by simp) (by simp) tie.exact tie.range
    · rintro _ ⟨⟩
      simp [note,(tie.commands i).1]
    · intro j other
      have other : j ≠ i := fun same => other (congrArg Tid.atm same.symm)
      simp [note,other]
  | _ =>
    refine tie.step (by simp) (fun _ _ => ⟨rfl,rfl⟩) ?_ (fun _ => ⟨rfl,rfl⟩) (by simp) (by simp) tie.exact tie.range
    intro own
    cases own <;> exact tie.pass

theorem act_new_account {id balance : Int} {ref : Ref} (tie : Inv s R V W) (range : InRange balance)
    (ran : run (.atm i) (.new_account id balance password) s = some (ref,s')) :
    Inv s' (note (.atm i) (.new_account id balance password) ref s R) (Function.update V (.atm i) g)
      (Function.update W (.atm i) { (W (.atm i)).drop with written := (W (.atm i)).written + 1 }) := by
  cases ran
  refine tie.step ?_ ?_ (by simp) (fun _ => ⟨rfl,rfl⟩) (by simp) (by simp) tie.exact fun exact => ?_
  · rintro _ ⟨⟩
    exact ⟨(tie.commands i).1,by simp [note,(tie.commands i).2]⟩
  · intro j other
    have other : j ≠ i := fun same => other (congrArg Tid.atm same.symm)
    simp [note,other]
  · obtain ⟨accounts,bank⟩ := tie.range exact
    refine ⟨fun q => ?_,bank⟩
    by_cases new : q = s.allocated
    · subst new; simpa using range
    · simpa [new] using accounts q
/-- An account's balance is written: the sum is in range where there is room for it. -/
theorem range_written {v : Int} (tie : Inv s R V W) (ran : run t (.set_balance q v) s = some ((),s'))
    (exact : (R.exact && decide (InRange v)) = true) : (∀ k, InRange (s'.account k).balance) ∧ InRange s'.balance := by
  obtain ⟨before,range⟩ := Bool.and_eq_true_iff.mp exact
  obtain ⟨accounts,bank⟩ := tie.range before
  cases ran
  refine ⟨fun k => ?_,bank⟩
  by_cases same : k = q
  · subst same; simpa using of_decide_eq_true range
  · simpa [same] using accounts k

theorem act_set_balance_atm {v : Int} (tie : Inv s R V W) (sees : Sees S s Γ (.atm i) (V (.atm i)))
    (permits : (W (.atm i)).Permits (.atm i) (.set_balance q v)) (ran : run (.atm i) (.set_balance q v) s = some ((),s')) :
    Inv s' (note (.atm i) (.set_balance q v) () s R) (Function.update V (.atm i) g)
      (Function.update W (.atm i) { (W (.atm i)).drop with written := (W (.atm i)).written + 1, owed := 0 }) := by
  obtain ⟨b,x,compared,adds,read,rfl,safe⟩ := permits
  obtain ⟨a,had⟩ := tie.read _ q b read
  have is : (s.account q).balance = b := (sees.cell q b a had).2.2.1
  have adds' : R.adds i = some (x,compared) := by
    rw [Record.adds,(tie.commands i).1,(tie.commands i).2]
    exact adds
  refine tie.step ?_ ?_ (by simp) (fun _ => ⟨rfl,rfl⟩) (by simp) (by simp) ?_ (range_written tie ran)
  · rintro _ ⟨⟩
    exact ⟨(tie.commands i).1,by simp [note,(tie.commands i).2]⟩
  · intro j other
    have other : j ≠ i := fun same => other (congrArg Tid.atm same.symm)
    simp [note,Record.wrote,other]
  · refine flags_agree tie.exact fun exact => ?_
    rw [adds',is]
    exact fits_iff (is ▸ (tie.range exact).1 q) safe

theorem act_set_balance_fee {v : Int} (tie : Inv s R V W) (sees : Sees S s Γ .fee_collection (V .fee_collection))
    (permits : (W .fee_collection).Permits .fee_collection (.set_balance q v))
    (ran : run .fee_collection (.set_balance q v) s = some ((),s')) :
    Inv s' (note .fee_collection (.set_balance q v) () s R) (Function.update V .fee_collection g)
      (Function.update W .fee_collection { (W .fee_collection).drop with written := (W .fee_collection).written + 1, owed := 0 }) := by
  obtain ⟨rated,b,read,_,rfl⟩ := permits
  obtain ⟨a,had⟩ := tie.read _ q b read
  have is : (s.account q).balance = b := (sees.cell q b a had).2.2.1
  refine tie.step (by simp) (fun _ _ => ⟨rfl,rfl⟩) (fun _ => tie.pass) (by simp) (by simp) (by simp) ?_
    (range_written tie ran)
  show (R.exact && decide _) = R.fits
  rw [← tie.exact]
  cases exact : R.exact with
  | false => rfl
  | true => simpa using charged_inRange (is ▸ (tie.range exact).1 q) rated

theorem act_set_bank_balance {v : Int} (tie : Inv s R V W) (sees : Sees S s Γ .fee_collection (V .fee_collection))
    (permits : (W .fee_collection).Permits .fee_collection (.set_bank_balance v))
    (ran : run .fee_collection (.set_bank_balance v) s = some ((),s')) (kept : g.cell = (V .fee_collection).cell) :
    Inv s' (note .fee_collection (.set_bank_balance v) () s R) (Function.update V .fee_collection g)
      (Function.update W .fee_collection { W .fee_collection with bank := none, owed := v - (W .fee_collection).bank.getD 0 }) := by
  obtain ⟨_,_,b,x,read,bank,rfl⟩ := permits
  obtain ⟨a,had⟩ := tie.read _ _ b read
  obtain ⟨a',had'⟩ := tie.bank _ x bank
  have charged : (s.account R.stand).balance = b := by rw [tie.pass.2]; exact (sees.cell _ b a had).2.2.1
  have is : s.balance = x := (sees.bank x a' had').1
  refine tie.step (by simp) (fun _ _ => ⟨rfl,rfl⟩) (fun _ => tie.pass) (by simp) ?_ (by simp) ?_ ?_
  · rw [kept]
    exact tie.read _
  · refine flags_agree tie.exact fun exact => ?_
    rw [charged,is,tie.pass.1]
    exact room_iff (is ▸ (tie.range exact).2)
  · intro exact
    obtain ⟨before,range⟩ := Bool.and_eq_true_iff.mp exact
    cases ran
    exact ⟨(tie.range before).1,of_decide_eq_true range⟩

theorem act_balance {b : Int} (tie : Inv s R V W) (sees : Sees S s Γ t (V t)) (ran : run t (.balance q) s = some (b,s'))
    (reached : Views.Next S (V t) (.balance q) b g) :
    ∃ h, (W t).Leads (.balance q) b h ∧ Inv s' (note t (.balance q) b s R) (Function.update V t g) (Function.update W t h) := by
  have kept := money_kept ran (by simp) (by simp) (by simp)
  have unseen : note t (.balance q) b s R = R := by cases t <;> rfl
  cases ran
  rw [unseen]
  obtain ⟨_,cell⟩ := reached
  refine ⟨_,⟨fun b known => ?_,rfl⟩,tie.unseen ⟨rfl,rfl⟩ (fun _ => ⟨rfl,rfl⟩) ?_ ?_ kept⟩
  · obtain ⟨a,had⟩ := tie.read t q b known
    exact (sees.cell q b a had).2.2.1
  · rintro _ _ ⟨⟩
    rcases cell with ⟨a,had,rfl⟩ | ⟨_,rfl⟩
    · exact ⟨a,had⟩
    · exact ⟨_,Function.update_self ..⟩
  · rcases cell with ⟨_,_,rfl⟩ | ⟨_,rfl⟩ <;> exact tie.bank t
theorem act_bank_balance {b : Int} (tie : Inv s R V W) (ran : run t .bank_balance s = some (b,s'))
    (reached : Views.Next S (V t) .bank_balance b g) :
    Inv s' (note t .bank_balance b s R) (Function.update V t g) (Function.update W t { W t with bank := some b }) := by
  have kept := money_kept ran (by simp) (by simp) (by simp)
  have unseen : note t .bank_balance b s R = R := by cases t <;> rfl
  rw [unseen]
  obtain ⟨_,bank⟩ := reached
  refine tie.unseen ⟨rfl,rfl⟩ (fun _ => ⟨rfl,rfl⟩) ?_ ?_ kept
  · rcases bank with ⟨_,_,rfl⟩ | ⟨_,rfl⟩ <;> exact tie.read t
  · rintro _ ⟨⟩
    rcases bank with ⟨a,had,rfl⟩ | ⟨_,rfl⟩
    · exact ⟨a,had⟩
    · exact ⟨b,rfl⟩

theorem layer_sound (S : Setting) (n : Nat) : layer.Sound (outline S) (bank n) note where
  act := by
    rintro s R V W t a x s' g ⟨Γ,G,L⟩ tie ok permits ran reached _
    have sees := (L t).2
    have tie : Inv s R V W := tie
    have ran : run t a s = some (x,s') := ran
    have drop : note t a x s R = R → (∀ q v, a ≠ .set_balance q v) → (∀ v, a ≠ .set_bank_balance v) →
        (∀ id v pw, a ≠ .new_account id v pw) →
        Inv s' (note t a x s R) (Function.update V t g) (Function.update W t (W t).drop) := by
      intro unseen unwritten unbanked old
      rw [unseen]
      exact tie.drop (money_kept ran unwritten unbanked old)
    cases a with
    | rand => exact ⟨_,rfl,act_rand tie ran⟩
    | log line => exact ⟨_,rfl,act_log tie ran⟩
    | new_account id balance pw =>
      obtain ⟨i,rfl⟩ := ok.1
      exact ⟨_,rfl,act_new_account tie permits.2.2 ran⟩
    | set_balance q v =>
      cases t with
      | atm i => exact ⟨_,rfl,act_set_balance_atm tie sees permits ran⟩
      | fee_collection => exact ⟨_,rfl,act_set_balance_fee tie sees permits ran⟩
      | accounts_print => exact absurd rfl ok.1.1
      | main => exact absurd rfl ok.1.2
    | set_bank_balance v =>
      obtain rfl := ok.1
      obtain ⟨_,_,_,rfl⟩ := reached
      exact ⟨_,rfl,act_set_bank_balance tie sees permits ran rfl⟩
    | balance q => exact act_balance tie sees ran reached
    | bank_balance => exact ⟨_,rfl,act_bank_balance tie ran reached⟩
    | lock m =>
      cases m with
      | lock_write l =>
        cases l with
        | account q => exact ⟨_,rfl,act_lock_write tie ran⟩
        | account_list => exact ⟨_,rfl,drop (by cases t <;> rfl) (by simp) (by simp) (by simp)⟩
      | _ => exact ⟨_,rfl,drop (by cases t <;> rfl) (by simp) (by simp) (by simp)⟩
    | _ => exact ⟨_,rfl,drop (by cases t <;> rfl) (by simp) (by simp) (by simp)⟩
  round := round_follows

/-! ### Every run -/

/-- Where the threads are before they start. -/
def start (files : Nat → List Command) : Tid → Work
  | .atm i => ⟨files i,0,0,0,0,none,none⟩
  | _ => ⟨[],0,0,0,0,none,none⟩

theorem initial_tie (V : Tid → View) : Inv (.initial rand) (.initial files) V (start files) where
  commands _ := ⟨rfl,rfl⟩
  pass := ⟨rfl,rfl⟩
  read t q b known := by cases t <;> cases known
  bank t x known := by cases t <;> cases known
  exact := rfl
  range _ := by simp [Shared.initial,InRange,INT_MIN,INT_MAX]

/-- Where the bank starts, with views that the outline and its layer hold for. -/
theorem recorded_starts (ints : ∀ i, ∀ command ∈ files i, IntAmounts command) : ∃ V : Tid → View,
    (under (outline (anyFiles files)) layer).Inv (.initial rand,.initial files) (fun t => (V t,start files t)) ∧
      ∀ t, (under (outline (anyFiles files)) layer).Follows t ((initial files rand).thread t).prog (V t,start files t)
        ((under (outline (anyFiles files)) layer).Loop t) := by
  obtain ⟨V,inv,follows⟩ := initial_holds (anyFiles files) rand
  refine ⟨V,⟨inv,initial_tie V⟩,fun t => follows_under (follows t) ?_⟩
  cases t with
  | atm i => exact ⟨rfl,rfl,ints i⟩
  | fee_collection => rfl
  | _ => trivial
/-- The outline and its layer hold in every state of the bank with its record. -/
theorem recorded_holds (ints : ∀ i, ∀ command ∈ files i, IntAmounts command) (ran : Ran n files rand schedule c) :
    (under (outline (anyFiles files)) layer).Holds c := by
  obtain ⟨V,inv,follows⟩ := recorded_starts ints
  exact ((layer_sound _ n).under (bank_sound _ n)).reaches ⟨_,inv,follows⟩ ⟨schedule,ran⟩

/-- As long as the sums are in range, so are all balances. -/
theorem balances_inRange (ints : ∀ i, ∀ command ∈ files i, IntAmounts command) (ran : Ran n files rand schedule c)
    (exact : c.shared.2.exact = true) : (∀ q, InRange (c.shared.1.account q).balance) ∧ InRange c.shared.1.balance := by
  obtain ⟨_,⟨_,tie⟩,_⟩ := recorded_holds ints ran
  exact tie.range exact

/-- In every run, under every schedule, the sums have all been in range, and the bank with `int`
    balances has done the same, exactly when there has been room for each deposit, each credit
    of a transfer, each withdrawal of an amount below zero and each fee that the bank gains. -/
theorem exact_iff_fits (ints : ∀ i, ∀ command ∈ files i, IntAmounts command) (ran : Ran n files rand schedule c) :
    (c.shared.2.exact = true ∧ (int_bank n).runs schedule (initial files rand) = some (forget c)) ↔ c.shared.2.fits = true := by
  obtain ⟨_,⟨_,tie⟩,_⟩ := recorded_holds ints ran
  have agree : c.shared.2.exact = c.shared.2.fits := tie.exact
  rw [← agree]
  exact ⟨fun both => both.1,fun exact => ⟨exact,(runs_int ran exact).2⟩⟩

end StructureOfOs.MoneyRange
