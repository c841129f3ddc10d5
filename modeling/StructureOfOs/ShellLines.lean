import StructureOfOs.CStrings

/-!
A line of the shell: `BgCmd` and `ExeCmd` up to the command that they run. Both cut the line in
place, and index the character before the end of a string that may be empty. What a command
has in its array is what the pointers point at after the last cut.
-/
namespace StructureOfOs.ShellLines
open StructureOfOs.Streams (Text bytes string)
open StructureOfOs.CStrings

def MAX_LINE_SIZE : Nat := 80
def MAX_ARG : Nat := 20
/-- `" \t\n"` -/
def delimiters (c : UInt8) : Bool := c == 32 || c == 9 || c == 10
/-- `'&'` -/
def ampersand : UInt8 := 38
def newline : UInt8 := 10

def is_built_in_cmd (command : Text) : Bool :=
  command ∈ ["showpid","pwd","cd","jobs","kill","fg","bg","quit","diff"].map bytes

/-- What `ExeExternal` is called with; `cmdString` is not used there. -/
structure External where
  args : List (Option Text)
  in_bg : Bool
  full_command : Text
deriving DecidableEq, Repr
/-- What a line runs. -/
inductive Parsed
  | nothing
  | built_in (args : List (Option Text))
  | external (e : External)
deriving DecidableEq, Repr

/-- `ExeCmd` up to the chain of commands, and the line as it is then. -/
def ExeCmd (lineSize : Text) (in_bg : Bool) : Parsed × Text :=
  match strtok delimiters lineSize 0 with
  | none => (.nothing,lineSize)
  | some t =>
    let (args,mem) := strtoks delimiters (MAX_ARG - 1) t.mem t.saved
    let args := pointed mem (some t.first :: args)
    if is_built_in_cmd (cstr (mem.drop t.first)) then (.built_in args,mem) else (.external ⟨args,in_bg,cstr mem⟩,mem)

/-- What `BgCmd` leaves: its copy of the line, the line, and what it has run when it returns 0. -/
structure Bg where
  full_command : Text
  lineSize : Text
  run : Option Parsed
deriving DecidableEq, Repr
/-- `none` when the line is indexed before its first element. -/
def BgCmd (lineSize : Text) : Option Bg := do
  let full_command ← cut_last lineSize
  let lineSize ← cut_last lineSize
  if strlen lineSize = 0 then none
  else if lineSize.getD (strlen lineSize - 1) 0 = ampersand then
    let lineSize := lineSize.set (strlen lineSize - 1) 0
    let temp_lineSize := cstr lineSize ++ [0]
    match strtok delimiters temp_lineSize 0 with
    | none => return ⟨cstr full_command,lineSize,some .nothing⟩
    | some t =>
      let (args,mem) := strtoks delimiters (MAX_ARG - 1) t.mem t.saved
      if is_built_in_cmd (cstr (mem.drop t.first)) then return ⟨cstr full_command,lineSize,none⟩
      else return ⟨cstr full_command,lineSize,some (.external ⟨pointed mem (some t.first :: args),true,cstr full_command⟩)⟩
  else
    return ⟨cstr full_command,lineSize,none⟩

/-- A line that has been read: the command without its newline, what it runs, and the line left over. -/
structure Taken where
  command : Text
  parsed : Parsed
  lineSize : Text
deriving DecidableEq, Repr
/-- What `main` does with a line. -/
def take_line (lineSize : Text) : Option Taken := do
  let bg ← BgCmd lineSize
  match bg.run with
  | some parsed => return ⟨bg.full_command,parsed,bg.lineSize⟩
  | none =>
    let (parsed,lineSize) := ExeCmd bg.lineSize false
    return ⟨bg.full_command,parsed,lineSize.set 0 0⟩

/-! ### What a line says -/

/-- An array that begins with these words and is filled up with NULLs, if there is room. -/
def padded (ws : List Text) : List (Option Text) := (ws.map some ++ List.replicate MAX_ARG none).take MAX_ARG
/-- The command of some words. -/
def command_of (ws : List Text) (in_bg : Bool) (full_command : Text) : Parsed :=
  match ws with
  | [] => .nothing
  | w :: _ => if is_built_in_cmd w then .built_in (padded ws) else .external ⟨padded ws,in_bg,full_command⟩
/-- The words of a line, without a final `&`. -/
def tokens (line : Text) : List Text := words delimiters (if line.getLast? = some ampersand then line.dropLast else line)
/-- What a line runs. Only in the background is the whole line handed on. -/
def parsed (line : Text) : Parsed :=
  if line.getLast? = some ampersand then command_of (tokens line) true line
  else command_of (tokens line) false (through_first delimiters line)

/-- A line that fits the buffer, without its newline. -/
structure Line where
  text : Text
  some_ : text ≠ []
  solid : 0 ∉ text
  single : newline ∉ text
  short : text.length + 1 < MAX_LINE_SIZE
/-- The line, as `fgets` leaves it in the buffer, runs a command that is not built in. -/
def Execs (line : Line) (e : External) : Prop :=
  ∃ behind t, take_line (line.text ++ newline :: 0 :: behind) = some t ∧ t.parsed = .external e

variable {lineSize s : Text}

/-- The two loops over the words, in `ExeCmd` and in `BgCmd`. -/
theorem cut_words (zero : 0 ∉ s) (behind : Text) :
    (words delimiters s = [] ∧ strtok delimiters (s ++ 0 :: behind) 0 = none) ∨
    ∃ w ws t args mem, words delimiters s = w :: ws ∧ strtok delimiters (s ++ 0 :: behind) 0 = some t ∧
      strtoks delimiters (MAX_ARG - 1) t.mem t.saved = (args,mem) ∧ pointed mem (some t.first :: args) = padded (w :: ws) ∧
      cstr (mem.drop t.first) = w ∧ cstr mem = through_first delimiters s := by
  obtain ⟨s',mem,found⟩ := @strtoks_spec delimiters s MAX_ARG zero [] behind
  have first := @strtoks_first delimiters s (MAX_ARG - 1) zero behind
  rw [List.nil_append,List.nil_append,List.length_nil] at mem found
  cases start : strtok delimiters (s ++ 0 :: behind) 0 with
  | none =>
    rw [strtoks_none start] at found
    cases all : words delimiters s with
    | nil => exact .inl ⟨rfl,rfl⟩
    | cons w ws =>
      rw [all] at found
      simp [pointed,MAX_ARG,List.replicate_succ] at found
  | some t =>
    have split : strtoks delimiters MAX_ARG (s ++ 0 :: behind) 0 =
        (some t.first :: (strtoks delimiters (MAX_ARG - 1) t.mem t.saved).1,(strtoks delimiters (MAX_ARG - 1) t.mem t.saved).2) := by
      rw [MAX_ARG,strtoks,start]
    rw [Nat.sub_add_cancel (by decide),split] at first
    rw [split] at mem found
    dsimp only at mem first found
    rw [← mem] at found
    cases all : words delimiters s with
    | nil =>
      rw [all] at found
      simp [pointed,MAX_ARG,List.replicate_succ] at found
    | cons w ws =>
      rw [all] at found
      have named : some (cstr ((strtoks delimiters (MAX_ARG - 1) t.mem t.saved).2.drop t.first)) = some w := by
        have heads := congrArg List.head? found
        simpa [pointed,MAX_ARG] using heads
      exact .inr ⟨w,ws,t,_,_,rfl,rfl,rfl,found,Option.some.inj named,first⟩

theorem ExeCmd_spec (holds : Holds lineSize s) (in_bg : Bool) :
    (ExeCmd lineSize in_bg).1 = command_of (words delimiters s) in_bg (through_first delimiters s) := by
  obtain ⟨zero,behind,rfl⟩ := holds
  rcases cut_words zero behind with ⟨none_,start⟩ | ⟨w,ws,t,args,mem,all,start,later,found,named,first⟩
  · rw [ExeCmd,start,none_]
    rfl
  · rw [ExeCmd,start,all]
    simp only [later,named,found,first,command_of]
    split <;> rfl

/-- The last character of a string. -/
theorem last_char (holds : Holds lineSize s) (some_ : s ≠ []) :
    strlen lineSize ≠ 0 ∧ lineSize.getD (strlen lineSize - 1) 0 = s.getLast some_ := by
  have length : strlen lineSize = s.length := by rw [strlen,holds.cstr]
  obtain ⟨zero,behind,rfl⟩ := holds
  obtain ⟨init,c,rfl⟩ : ∃ init c, s = init ++ [c] := ⟨_,_,(List.dropLast_append_getLast some_).symm⟩
  rw [length]
  simp

/-- What `BgCmd` does with a line that is not empty. -/
theorem BgCmd_spec {c : UInt8} (holds : Holds lineSize (s ++ [c])) (some_ : s ≠ []) : ∃ bg, BgCmd lineSize = some bg ∧ bg.full_command = s ∧
    ((s.getLast? = some ampersand ∧ Holds bg.lineSize s.dropLast ∧
        (bg.run = some (parsed s) ∨ bg.run = none ∧ ∃ args, parsed s = .built_in args)) ∨
      s.getLast? ≠ some ampersand ∧ Holds bg.lineSize s ∧ bg.run = none) := by
  obtain ⟨mem,cut,left⟩ := holds.cut_last (by simp)
  rw [List.dropLast_concat] at left
  obtain ⟨positive,last⟩ := last_char left some_
  rw [BgCmd,cut]
  simp only [Option.bind_eq_bind,Option.bind_some,if_neg positive,last]
  have end_ : s.getLast? = some (s.getLast some_) := List.getLast?_eq_some_getLast some_
  by_cases amp : s.getLast some_ = ampersand
  · rw [if_pos amp]
    have final : s.getLast? = some ampersand := by rw [end_,amp]
    obtain ⟨mem',cut',left'⟩ := left.cut_last some_
    rw [cut_last,if_neg positive] at cut'
    cases cut'
    have zero : 0 ∉ s.dropLast := fun among => left.1 (List.dropLast_subset s among)
    have whole : parsed s = command_of (words delimiters s.dropLast) true s := by rw [parsed,tokens,if_pos final,if_pos final]
    rw [left'.cstr]
    rcases cut_words zero [] with ⟨none_,start⟩ | ⟨w,ws,t,args,mem',all,start,later,found,named,_⟩
    · rw [start]
      refine ⟨_,rfl,left.cstr,.inl ⟨final,left',.inl ?_⟩⟩
      rw [whole,none_]
      rfl
    · rw [start]
      simp only [later,named,found,left.cstr]
      by_cases built_in : is_built_in_cmd w = true
      · rw [if_pos built_in]
        refine ⟨_,rfl,rfl,.inl ⟨final,left',.inr ⟨rfl,padded (w :: ws),?_⟩⟩⟩
        rw [whole,all,command_of]
        simp only [if_pos built_in]
      · rw [if_neg built_in]
        refine ⟨_,rfl,rfl,.inl ⟨final,left',.inl ?_⟩⟩
        rw [whole,all,command_of]
        simp only [if_neg built_in]
  · rw [if_neg amp]
    refine ⟨_,rfl,left.cstr,.inr ⟨?_,left,rfl⟩⟩
    rw [end_]
    simpa using amp
/-- A line that is empty but for its newline is indexed before its first element. -/
theorem BgCmd_empty {c : UInt8} (holds : Holds lineSize [c]) : BgCmd lineSize = none := by
  obtain ⟨mem,cut,left⟩ := holds.cut_last (by simp)
  have length : strlen mem = 0 := by rw [strlen,left.cstr]; rfl
  rw [BgCmd,cut]
  simp only [Option.bind_eq_bind,Option.bind_some,length,if_true]
example : take_line (bytes "\n" ++ [0]) = none := by decide
/-- `main` runs what the line says, complete and without its last character. -/
theorem take_line_spec {c : UInt8} (holds : Holds lineSize (s ++ [c])) (some_ : s ≠ []) :
    ∃ left, take_line lineSize = some ⟨s,parsed s,left⟩ := by
  obtain ⟨bg,ran,full,⟨amp,left,did | ⟨not_,args,built_in⟩⟩ | ⟨other,left,not_⟩⟩ := BgCmd_spec holds some_
  · rw [take_line,ran]
    simp only [Option.bind_eq_bind,Option.bind_some,did,full]
    exact ⟨_,rfl⟩
  · have same : command_of (words delimiters s.dropLast) false (through_first delimiters s.dropLast) = parsed s := by
      have whole : parsed s = command_of (words delimiters s.dropLast) true s := by rw [parsed,tokens,if_pos amp,if_pos amp]
      rw [whole] at built_in ⊢
      unfold command_of at built_in ⊢
      split at built_in
      · cases built_in
      · split at built_in
        · rename_i is
          simp only [if_pos is]
        · cases built_in
    rw [take_line,ran]
    simp only [Option.bind_eq_bind,Option.bind_some,not_,full,ExeCmd_spec left,same]
    exact ⟨_,rfl⟩
  · have whole : parsed s = command_of (words delimiters s) false (through_first delimiters s) := by
      rw [parsed,tokens,if_neg other,if_neg other]
    rw [take_line,ran]
    simp only [Option.bind_eq_bind,Option.bind_some,not_,full,ExeCmd_spec left,← whole]
    exact ⟨_,rfl⟩
example : (take_line (bytes "ls -l &\n" ++ [0])).map Taken.parsed =
    some (.external ⟨some (bytes "ls") :: some (bytes "-l") :: List.replicate 18 none,true,bytes "ls -l &"⟩) := by decide
example : (take_line (bytes "ls -l\n" ++ [0])).map Taken.parsed =
    some (.external ⟨some (bytes "ls") :: some (bytes "-l") :: List.replicate 18 none,false,bytes "ls"⟩) := by decide
theorem execs_iff {line : Line} {e : External} : Execs line e ↔ parsed line.text = .external e := by
  have taken : ∀ behind, ∃ left, take_line (line.text ++ newline :: 0 :: behind) = some ⟨line.text,parsed line.text,left⟩ := by
    intro behind
    refine take_line_spec (c := newline) ⟨?_,behind,by simp⟩ line.some_
    simpa [newline] using line.solid
  constructor
  · rintro ⟨behind,t,ran,runs⟩
    obtain ⟨left,same⟩ := taken behind
    rw [same] at ran
    cases ran
    exact runs
  · intro runs
    obtain ⟨left,same⟩ := taken []
    exact ⟨[],_,same,runs⟩
/-- A command that is not built in. -/
theorem command_of_external {ws : List Text} {in_bg : Bool} {full_command : Text} {e : External}
    (runs : command_of ws in_bg full_command = .external e) : ws ≠ [] ∧ e = ⟨padded ws,in_bg,full_command⟩ := by
  unfold command_of at runs
  split at runs
  · cases runs
  · split at runs
    · cases runs
    · cases runs
      exact ⟨by simp,rfl⟩
/-- The array of a command is that of its words, in the background and in the foreground. -/
theorem external_args {e : External} (runs : parsed s = .external e) : e.args = padded (tokens s) := by
  unfold parsed at runs
  split at runs
  · rw [(command_of_external runs).2]
  · rw [(command_of_external runs).2]

end StructureOfOs.ShellLines
