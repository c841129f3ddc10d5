import StructureOfOs.Atm
import StructureOfOs.Integers

/-!
The lines of an ATM's file. The variables that a line is read into live as long as the whole
file, and no extraction is checked: a line that lacks a field is executed with what the lines
before it have left there, its operation included.
-/
namespace StructureOfOs.CommandLines
open StructureOfOs.Streams StructureOfOs.Integers StructureOfOs.Atm

/-- The variables of `parser_file` that a line is read into. -/
structure Fields where
  action : UInt8
  account_id : Int
  account_password : Text
  amount : Int
  target_account_id : Int
deriving DecidableEq, Repr
def read_int : Text → Int × Stream := Streams.read_int INT_MIN INT_MAX

/-- `switch(action)`: the operation performed, and the variables after it. -/
def switch (v : Fields) (full_line : Stream) : Option Command × Fields :=
  match Char.ofNat v.action.toNat with
  | 'O' =>
    let (amount,_) := extract read_int v.amount full_line
    (some (.create_account v.account_id (string v.account_password) amount),{ v with amount })
  | 'D' =>
    let (amount,_) := extract read_int v.amount full_line
    (some (.deposit_to_account v.account_id (string v.account_password) amount),{ v with amount })
  | 'W' =>
    let (amount,_) := extract read_int v.amount full_line
    (some (.withdrawl_from_account v.account_id (string v.account_password) amount),{ v with amount })
  | 'B' => (some (.balance_check v.account_id (string v.account_password)),v)
  | 'Q' => (some (.closing_account v.account_id (string v.account_password)),v)
  | 'T' =>
    let (target_account_id,full_line) := extract read_int v.target_account_id full_line
    let (amount,_) := extract read_int v.amount full_line
    (some (.transfer_between_accounts v.account_id (string v.account_password) target_account_id amount),
      { v with target_account_id, amount })
  | _ => (none,v)
/-- The body of `parser_file`'s loop for a line that is not empty. -/
def parse_line (v : Fields) (line : Text) : Option Command × Fields :=
  let (action,full_line) := extract read_char v.action (opened line)
  let (account_id,full_line) := extract read_int v.account_id full_line
  let (account_password,full_line) := extract read_word v.account_password full_line
  switch { v with action, account_id, account_password } full_line
/-- What `parser_file` performs for each line. -/
def performed (v : Fields) : List Text → List (Option Command)
  | [] => []
  | [] :: lines => none :: performed v lines
  | line :: lines => (parse_line v line).1 :: performed (parse_line v line).2 lines
/-- What the ATM of a file performs, in order. The variables have no initial values of their own. -/
def commands (v : Fields) (file : Text) : List Command := (performed v (getlines file)).filterMap id

/-! ### What a line says by itself -/

/-- A field at the head of a stream, if it can be extracted. -/
def field {α : Type} (read : Text → α × Stream) (default_ : α) (s : Stream) : Option (α × Stream) :=
  let (value,s') := extract read default_ s
  if s'.fail then none else some (value,s')
/-- The operation of a letter with the fields that follow the password. -/
def own_operation (action : UInt8) (account_id : Int) (account_password : Text) (s : Stream) : Option Command :=
  match Char.ofNat action.toNat with
  | 'O' => (field read_int 0 s).map fun (amount,_) => .create_account account_id (string account_password) amount
  | 'D' => (field read_int 0 s).map fun (amount,_) => .deposit_to_account account_id (string account_password) amount
  | 'W' => (field read_int 0 s).map fun (amount,_) => .withdrawl_from_account account_id (string account_password) amount
  | 'B' => some (.balance_check account_id (string account_password))
  | 'Q' => some (.closing_account account_id (string account_password))
  | 'T' => do
    let (target_account_id,s) ← field read_int 0 s
    let (amount,_) ← field read_int 0 s
    some (.transfer_between_accounts account_id (string account_password) target_account_id amount)
  | _ => none
/-- The line's own operation, if it contains all fields of one. -/
def own (line : Text) : Option Command := do
  let (action,s) ← field read_char 0 (opened line)
  let (account_id,s) ← field read_int 0 s
  let (account_password,s) ← field read_word [] s
  own_operation action account_id account_password s

/-- A letter that stands for an operation. -/
def IsOperation (letter : UInt8) : Prop := Char.ofNat letter.toNat ∈ ['O','D','W','B','Q','T']
instance (letter : UInt8) : Decidable (IsOperation letter) := inferInstanceAs (Decidable (_ ∈ _))
/-- The letter a line leaves in `action`, with the one that was there. -/
def letter (before : UInt8) (line : Text) : UInt8 := (line.dropWhile isspace).head?.getD before
/-- Every line contains all fields of its operation, or is empty, or the last line up to it that is
    not blank begins with no operation's letter. -/
def Complete : UInt8 → List Text → Prop
  | _,[] => True
  | before,line :: lines =>
    (line = [] ∨ (own line).isSome = true ∨ ¬ IsOperation (letter before line)) ∧ Complete (letter before line) lines

variable {v : Fields} {line : Text} {lines : List Text} {command : Command}

theorem field_some {α : Type} {read : Text → α × Stream} {default_ value : α} {s s' : Stream}
    (found : field read default_ s = some (value,s')) (target : α) : extract read target s = (value,s') := by
  cases extracted : extract read default_ s with
  | mk value' t =>
    rw [field,extracted] at found
    dsimp only at found
    split at found
    · cases found
    · rename_i good
      cases found
      exact extract_good extracted (by simpa using good) target

theorem switch_own {s : Stream} (complete : own_operation v.action v.account_id v.account_password s = some command) :
    (switch v s).1 = some command := by
  unfold own_operation at complete
  unfold switch
  split at complete
  · obtain ⟨⟨amount,s'⟩,found,rfl⟩ := Option.map_eq_some_iff.mp complete
    simp [*,field_some found]
  · obtain ⟨⟨amount,s'⟩,found,rfl⟩ := Option.map_eq_some_iff.mp complete
    simp [*,field_some found]
  · obtain ⟨⟨amount,s'⟩,found,rfl⟩ := Option.map_eq_some_iff.mp complete
    simp [*,field_some found]
  · cases complete
    simp [*]
  · cases complete
    simp [*]
  · obtain ⟨⟨target,s'⟩,found,rest⟩ := Option.bind_eq_some_iff.mp complete
    obtain ⟨⟨amount,s''⟩,found',same⟩ := Option.bind_eq_some_iff.mp rest
    cases same
    simp [*,field_some found,field_some found']
  · cases complete
theorem switch_action (v : Fields) (s : Stream) : (switch v s).2.action = v.action := by
  unfold switch
  split <;> rfl
theorem switch_some_iff (v : Fields) (s : Stream) : (switch v s).1.isSome = true ↔ IsOperation v.action := by
  unfold switch IsOperation
  split
  · simp [*]
  · simp [*]
  · simp [*]
  · simp [*]
  · simp [*]
  · simp [*]
  · rename_i o d w b q t
    simpa using ⟨o,d,w,b,q,t⟩

/-- A line that contains all its fields is executed as it says. -/
theorem parse_own (v : Fields) (complete : own line = some command) : (parse_line v line).1 = some command := by
  obtain ⟨⟨action,s⟩,found,rest⟩ := Option.bind_eq_some_iff.mp complete
  obtain ⟨⟨account_id,s'⟩,found',rest'⟩ := Option.bind_eq_some_iff.mp rest
  obtain ⟨⟨account_password,s''⟩,found'',rest''⟩ := Option.bind_eq_some_iff.mp rest'
  rw [parse_line,field_some found]
  dsimp only at found' ⊢
  rw [field_some found']
  dsimp only at found'' ⊢
  rw [field_some found'']
  exact switch_own rest''
theorem parse_action (v : Fields) (line : Text) : (parse_line v line).2.action = letter v.action line := by
  rw [letter,← extract_char_opened]
  exact switch_action _ _
theorem parse_some_iff (v : Fields) (line : Text) :
    (parse_line v line).1.isSome = true ↔ IsOperation (letter v.action line) := by
  rw [letter,← extract_char_opened]
  exact switch_some_iff _ _

/-- A line is executed as it says, or not at all, unless it lacks a field. -/
theorem parse_stands_iff (v : Fields) (line : Text) :
    (parse_line v line).1 = own line ↔ (own line).isSome = true ∨ ¬ IsOperation (letter v.action line) := by
  cases complete : own line with
  | some command => exact iff_of_true (parse_own v complete) (.inl rfl)
  | none => simp [← parse_some_iff]
theorem performed_own_iff (v : Fields) (lines : List Text) : performed v lines = lines.map own ↔ Complete v.action lines := by
  induction lines generalizing v with
  | nil => simp [performed,Complete]
  | cons line lines ih =>
    cases line with
    | nil =>
      have blank : own [] = none := rfl
      have kept : letter v.action [] = v.action := rfl
      simp [performed,Complete,blank,kept,ih]
    | cons c line =>
      have first := parse_stands_iff v (c :: line)
      have later := ih (parse_line v (c :: line)).2
      rw [parse_action] at later
      simp only [performed,Complete,List.map_cons,List.cons.injEq,first,later,reduceCtorEq,false_or]

/-- A complete line begins with a letter of its own. -/
theorem letter_own (complete : (own line).isSome = true) (before after : UInt8) : letter before line = letter after line := by
  obtain ⟨command,same⟩ := Option.isSome_iff_exists.mp complete
  obtain ⟨⟨action,s⟩,found,_⟩ := Option.bind_eq_some_iff.mp same
  rw [letter,letter,← extract_char_opened,← extract_char_opened,field_some found,field_some found]
theorem complete_before (complete : (own line).isSome = true) (before after : UInt8) :
    Complete before (line :: lines) ↔ Complete after (line :: lines) := by
  rw [Complete,Complete,letter_own complete before after]

/-- Every line of the file is executed by its own text alone: as it says if it contains all fields
    of an operation, and not at all if it does not. -/
def StandAlone (v : Fields) (file : Text) : Prop := performed v (getlines file) = (getlines file).map own

theorem commands_own {file : Text} (alone : StandAlone v file) : commands v file = (getlines file).filterMap own := by
  rw [commands,alone,List.filterMap_map]
  rfl

/-- If the first line of a file is complete, its lines stand alone exactly when none of them lacks
    a field of the operation that it is executed as. -/
theorem stand_alone_iff (v : Fields) (file first : Text) (rest : List Text) (lines : getlines file = first :: rest)
    (complete : (own first).isSome = true) : StandAlone v file ↔ Complete 0 (getlines file) := by
  rw [StandAlone,performed_own_iff,lines]
  exact complete_before complete v.action 0

/-- "O 1 p 9", then "D 1 p". -/
def short_deposit : Text := [79,32,49,32,112,32,57,10,68,32,49,32,112]
theorem deposit_repeats_amount : ¬ ∀ v file first rest, getlines file = first :: rest → (own first).isSome = true →
    StandAlone v file := by
  intro claimed
  have stands := claimed ⟨0,0,[],0,0⟩ short_deposit _ _ rfl (by decide)
  obtain ⟨_,lacks,_⟩ := (performed_own_iff ⟨0,0,[],0,0⟩ (getlines short_deposit)).mp stands
  revert lacks
  decide

/-- "T 1 p 2 -3", an empty line, "B 1 p" and a comment. -/
def some_lines : List Text := [[84,32,49,32,112,32,50,32,45,51],[],[66,32,49,32,112],[35,35]]
def several : Text := [84,32,49,32,112,32,50,32,45,51,10,10,66,32,49,32,112,10,35,35]
theorem stand_alone_iff_balance : StandAlone ⟨68,7,[113],5,6⟩ several := by
  have lines : getlines several = some_lines := by decide
  refine (stand_alone_iff ⟨68,7,[113],5,6⟩ several _ _ lines (by decide)).mpr ?_
  rw [lines]
  exact ⟨.inr (.inl (by decide)),.inl rfl,.inr (.inl (by decide)),.inr (.inr (by decide)),trivial⟩

end StructureOfOs.CommandLines
