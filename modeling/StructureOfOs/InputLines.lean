import StructureOfOs.ShellLines

/-!
How the shell reads its lines. `fgets` takes a part of a line that is too long, and at the end of
the input it leaves the line as it was; the last character goes in any case.
-/
namespace StructureOfOs.InputLines
open StructureOfOs.Streams (Text bytes string getlines)
open StructureOfOs.CStrings StructureOfOs.ShellLines

/-- At most so many characters, up to a newline, and what is left of the input. -/
def fgets_chars : Nat → Text → Text × Text
  | 0,input => ([],input)
  | _,[] => ([],[])
  | n + 1,c :: input => if c = newline then ([c],input) else (c :: (fgets_chars n input).1,(fgets_chars n input).2)
/-- `fgets(lineSize, MAX_LINE_SIZE, stdin)` -/
def fgets (lineSize input : Text) : Text × Text :=
  if input = [] then (lineSize,[])
  else
    let read := fgets_chars (MAX_LINE_SIZE - 1) input
    (read.1 ++ 0 :: lineSize.drop (read.1.length + 1),read.2)

variable {input rest text lineSize : Text} {n : Nat}

/-! ### Lines -/

/-- `fgets` takes a whole line, or only characters of one line. -/
theorem fgets_cases (n : Nat) (input : Text) :
    (∃ text rest, input = text ++ newline :: rest ∧ newline ∉ text ∧ text.length < n ∧ fgets_chars n input = (text ++ [newline],rest)) ∨
      (fgets_chars n input).1 <+: input.takeWhile (· ≠ newline) := by
  induction n generalizing input with
  | zero => exact .inr (by simp [fgets_chars])
  | succ n ih =>
    cases input with
    | nil => exact .inr (by simp [fgets_chars])
    | cons c input =>
      by_cases same : c = newline
      · subst same
        exact .inl ⟨[],input,rfl,by simp,by simp,by simp [fgets_chars]⟩
      · rcases ih input with ⟨text,rest,rfl,single,short,took⟩ | part
        · refine .inl ⟨c :: text,rest,rfl,?_,by simpa using short,by simp [fgets_chars,same,took]⟩
          simpa [Ne.symm same] using single
        · exact .inr (by simpa [fgets_chars,same] using part)
/-- A line is read with its newline only where it stands. -/
theorem fgets_chars_ended (ended : (fgets_chars n input).1 = text ++ [newline]) :
    ∃ rest, input = text ++ newline :: rest ∧ newline ∉ text ∧ text.length < n := by
  rcases fgets_cases n input with ⟨text',rest,split,single,short,took⟩ | part
  · obtain rfl : text' = text := by
      rw [took] at ended
      exact List.append_cancel_right ended
    exact ⟨rest,split,single,short⟩
  · have among : newline ∈ input.takeWhile (· ≠ newline) := part.subset (by rw [ended]; simp)
    have other := List.mem_takeWhile_imp among
    simp at other
theorem fgets_chars_line (single : newline ∉ text) (short : text.length < n) (rest : Text) :
    fgets_chars n (text ++ newline :: rest) = (text ++ [newline],rest) := by
  induction text generalizing n with
  | nil =>
    cases n with
    | zero => cases short
    | succ n => simp [fgets_chars]
  | cons c text ih =>
    cases n with
    | zero => cases short
    | succ n =>
      have other : c ≠ newline := fun same => single (by simp [same])
      have later := ih (fun among => single (List.mem_cons_of_mem _ among)) (by simpa using short)
      simp [fgets_chars,other,later]

/-- What is run is the string less its last character, and something is left of it. -/
theorem take_line_some {t : Taken} (ended : 0 ∈ lineSize) (taken : take_line lineSize = some t) :
    t.command ≠ [] ∧ ∃ c, cstr lineSize = t.command ++ [c] := by
  have holds : Holds lineSize (cstr lineSize) := holds_of_ended ended
  by_cases empty : cstr lineSize = []
  · rw [empty] at holds
    have failed : take_line lineSize = none := by rw [take_line,BgCmd,cut_last_empty holds]; rfl
    rw [failed] at taken
    cases taken
  · obtain ⟨s,c,split⟩ : ∃ s c, cstr lineSize = s ++ [c] := ⟨_,_,(List.dropLast_append_getLast empty).symm⟩
    rw [split] at holds
    by_cases alone : s = []
    · subst alone
      have failed : take_line lineSize = none := by rw [take_line,BgCmd_empty holds]; rfl
      rw [failed] at taken
      cases taken
    · obtain ⟨left,same⟩ := take_line_spec holds alone
      rw [same] at taken
      cases taken
      exact ⟨alone,c,split⟩

end StructureOfOs.InputLines
