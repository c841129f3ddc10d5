import StructureOfOs.Streams
import Mathlib.Data.List.GetD
import Mathlib.Data.List.TakeWhile

/-!
C strings in memory, and `strtok`, which cuts the string it reads: where a token ends it writes
a NUL. A row of calls (`strtoks`) finds the words of the string, each as a pointer into the
memory that the later calls go on to change behind it (`strtoks_spec`).
-/
namespace StructureOfOs.CStrings
open StructureOfOs.Streams (Text)

/-- The string that starts at the head of some memory, and its length. -/
def cstr (mem : Text) : Text := mem.takeWhile (· ≠ 0)
def strlen (mem : Text) : Nat := (cstr mem).length
/-- `s[strlen(s) - 1] = '\0'`; the empty string has no such character. -/
def cut_last (mem : Text) : Option Text := if strlen mem = 0 then none else some (mem.set (strlen mem - 1) 0)
/-- The memory holds the string. -/
def Holds (mem s : Text) : Prop := 0 ∉ s ∧ ∃ behind, mem = s ++ 0 :: behind

section
variable (delimiter : UInt8 → Bool)

/-- Where a token starts, the memory with the token cut off in it, and where the search goes on. -/
structure Token where
  first : Nat
  mem : Text
  saved : Nat
/-- `strtok` from a position on. -/
def strtok (mem : Text) (start : Nat) : Option Token :=
  let blanks := (cstr (mem.drop start)).takeWhile delimiter
  let token := ((cstr (mem.drop start)).dropWhile delimiter).takeWhile fun c => !delimiter c
  let first := start + blanks.length
  let last := first + token.length
  if token = [] then none
  else if mem.getD last 0 = 0 then some ⟨first,mem,last⟩
  else some ⟨first,mem.set last 0,last + 1⟩
/-- So many calls, the first one from a position on and the others `strtok(NULL)`. -/
def strtoks : Nat → Text → Nat → List (Option Nat) × Text
  | 0,mem,_ => ([],mem)
  | n + 1,mem,saved =>
    match strtok delimiter mem saved with
    | none => (none :: (strtoks n mem saved).1,(strtoks n mem saved).2)
    | some t => (some t.first :: (strtoks n t.mem t.saved).1,(strtoks n t.mem t.saved).2)
/-- The strings that pointers into some memory point at. -/
def pointed (mem : Text) (pointers : List (Option Nat)) : List (Option Text) :=
  pointers.map fun p => p.map fun i => cstr (mem.drop i)

/-- A text up to the end of its first word. -/
def through_first (text : Text) : Text := text.takeWhile delimiter ++ (text.dropWhile delimiter).takeWhile fun c => !delimiter c
/-- What lies between the delimiters. -/
def words : Text → List Text
  | [] => []
  | [c] => if delimiter c then [] else [[c]]
  | c :: d :: text =>
    if delimiter c then words (d :: text)
    else if delimiter d then [c] :: words (d :: text)
    else (words (d :: text)).modifyHead (c :: ·)

/-- A text is blank, or begins with a word after blanks and goes on behind it. -/
inductive Scan : Text → Prop
  | blank {s : Text} (blanks : ∀ c ∈ s, delimiter c = true) : Scan s
  | last (blanks token : Text) (before : ∀ c ∈ blanks, delimiter c = true) (solid : ∀ c ∈ token, delimiter c = false)
      (some_ : token ≠ []) : Scan (blanks ++ token)
  | more (blanks token rest : Text) (d : UInt8) (before : ∀ c ∈ blanks, delimiter c = true)
      (solid : ∀ c ∈ token, delimiter c = false) (some_ : token ≠ []) (ends : delimiter d = true) :
      Scan (blanks ++ token ++ d :: rest)
end

variable {delimiter : UInt8 → Bool} {mem s front behind token blanks rest : Text} {d : UInt8}

/-! ### Strings in memory -/

theorem cstr_append (solid : 0 ∉ s) (behind : Text) : cstr (s ++ 0 :: behind) = s := by
  have all : ∀ c ∈ s, decide (c ≠ 0) = true := by
    intro c among
    have other : c ≠ 0 := fun zero => solid (zero ▸ among)
    simpa using other
  rw [cstr,List.takeWhile_append_of_pos all]
  simp
theorem Holds.cstr (holds : Holds mem s) : cstr mem = s := by
  obtain ⟨solid,behind,rfl⟩ := holds
  exact cstr_append solid behind
/-- Memory with a NUL in it holds a string. -/
theorem holds_of_ended (ended : 0 ∈ mem) : Holds mem (cstr mem) := by
  refine ⟨fun among => by simpa using List.mem_takeWhile_imp among,?_⟩
  have split := List.takeWhile_append_dropWhile (p := (· ≠ (0 : UInt8))) (l := mem)
  cases left : mem.dropWhile (· ≠ 0) with
  | nil => exact absurd (List.dropWhile_eq_nil_iff.mp left 0 ended) (by simp)
  | cons c behind =>
    have head := List.head?_dropWhile_not (· ≠ (0 : UInt8)) mem
    rw [left] at head
    have zero : c = 0 := by simpa using head
    rw [left,zero] at split
    exact ⟨behind,split.symm⟩
/-- A string loses its last character; the memory has one NUL more. -/
theorem Holds.cut_last (holds : Holds mem s) (some_ : s ≠ []) : ∃ mem', cut_last mem = some mem' ∧ Holds mem' s.dropLast := by
  have length : strlen mem = s.length := by rw [strlen,holds.cstr]
  obtain ⟨solid,behind,rfl⟩ := holds
  obtain ⟨init,c,rfl⟩ : ∃ init c, s = init ++ [c] := ⟨_,_,(List.dropLast_append_getLast some_).symm⟩
  have cut : CStrings.cut_last (init ++ [c] ++ 0 :: behind) = some (init ++ 0 :: 0 :: behind) := by
    rw [CStrings.cut_last,length]
    simp
  refine ⟨_,cut,?_,0 :: behind,?_⟩
  · simpa using fun zero => solid (by simp [zero])
  · simp
theorem cut_last_empty (holds : Holds mem []) : cut_last mem = none := by
  rw [cut_last,if_pos (by simp [strlen,holds.cstr])]

/-! ### Words -/

theorem words_blanks (blank : ∀ c ∈ blanks, delimiter c = true) (s : Text) : words delimiter (blanks ++ s) = words delimiter s := by
  induction blanks with
  | nil => rfl
  | cons c blanks ih =>
    have rest := ih fun c among => blank c (List.mem_cons_of_mem _ among)
    rw [List.cons_append,← rest]
    cases blanks ++ s with
    | nil => simp [words,blank c]
    | cons d text => simp [words,blank c]
theorem words_blank (blank : ∀ c ∈ s, delimiter c = true) : words delimiter s = [] := by
  simpa [words] using words_blanks blank []
theorem words_last (solid : ∀ c ∈ token, delimiter c = false) (some_ : token ≠ []) : words delimiter token = [token] := by
  induction token with
  | nil => exact absurd rfl some_
  | cons c token ih =>
    cases token with
    | nil => simp [words,solid c]
    | cons d token =>
      have rest := ih (fun c among => solid c (List.mem_cons_of_mem _ among)) (by simp)
      simp [words,solid c,solid d,rest]
theorem words_more (solid : ∀ c ∈ token, delimiter c = false) (some_ : token ≠ []) (ends : delimiter d = true) (rest : Text) :
    words delimiter (token ++ d :: rest) = token :: words delimiter rest := by
  have beyond : words delimiter ([d] ++ rest) = words delimiter rest := words_blanks (by simpa using ends) rest
  rw [List.singleton_append] at beyond
  induction token with
  | nil => exact absurd rfl some_
  | cons c token ih =>
    cases token with
    | nil => simp [words,solid c,ends,beyond]
    | cons e token =>
      have later := ih (fun c among => solid c (List.mem_cons_of_mem _ among)) (by simp)
      rw [List.cons_append] at later
      simp [words,solid c,solid e,later]

theorem scan (delimiter : UInt8 → Bool) (s : Text) : Scan delimiter s := by
  induction s with
  | nil => exact .blank (by simp)
  | cons c s ih =>
    cases sort : delimiter c with
    | true =>
      cases ih with
      | blank blanks => exact .blank (by simpa [sort] using blanks)
      | last blanks token before solid some_ => exact .last (c :: blanks) token (by simpa [sort] using before) solid some_
      | more blanks token rest d before solid some_ ends =>
        exact .more (c :: blanks) token rest d (by simpa [sort] using before) solid some_ ends
    | false =>
      have alone : ∀ x ∈ [c], delimiter x = false := by simpa using sort
      cases ih with
      | blank blanks =>
        cases s with
        | nil => exact .last [] [c] (by simp) alone (by simp)
        | cons d s => exact .more [] [c] s d (by simp) alone (by simp) (blanks d (by simp))
      | last blanks token before solid some_ =>
        cases blanks with
        | nil => exact .last [] (c :: token) (by simp) (by simpa [sort] using solid) (by simp)
        | cons d blanks => exact .more [] [c] (blanks ++ token) d (by simp) alone (by simp) (before d (by simp))
      | more blanks token rest d before solid some_ ends =>
        cases blanks with
        | nil => exact .more [] (c :: token) rest d (by simp) (by simpa [sort] using solid) (by simp) ends
        | cons e blanks =>
          have split : Scan delimiter ([] ++ [c] ++ e :: (blanks ++ token ++ d :: rest)) :=
            .more [] [c] _ e (by simp) alone (by simp) (before e (by simp))
          exact split

/-! ### strtok -/

/-- The string from a position on. -/
theorem cstr_drop (front : Text) (solid : 0 ∉ s) (behind : Text) : cstr ((front ++ (s ++ 0 :: behind)).drop front.length) = s := by
  rw [List.drop_left]
  exact cstr_append solid behind
/-- The parts of a string that `strtok` tells apart. -/
theorem parts (rest : Text) (before : ∀ c ∈ blanks, delimiter c = true) (solid : ∀ c ∈ token, delimiter c = false)
    (some_ : token ≠ []) (stops : ∀ d ∈ rest.head?, delimiter d = true) : (blanks ++ token ++ rest).takeWhile delimiter = blanks ∧
      (((blanks ++ token ++ rest).dropWhile delimiter).takeWhile fun c => !delimiter c) = token := by
  obtain ⟨c,later,rfl⟩ := List.exists_cons_of_ne_nil some_
  have inside : ∀ x ∈ c :: later, (!delimiter x) = true := by simpa using solid
  have beyond : (rest.takeWhile fun x => !delimiter x) = [] := by
    cases rest with
    | nil => rfl
    | cons d rest => simp [stops d rfl]
  rw [List.append_assoc,List.takeWhile_append_of_pos before,List.dropWhile_append_of_pos before]
  constructor
  · simp [solid c]
  · rw [List.cons_append,List.dropWhile_cons_of_neg (by simp [solid c]),← List.cons_append,List.takeWhile_append_of_pos inside,
      beyond,List.append_nil]

theorem strtok_blank (zero : 0 ∉ s) (blank : ∀ c ∈ s, delimiter c = true) (front behind : Text) :
    strtok delimiter (front ++ (s ++ 0 :: behind)) front.length = none := by
  have none_left : s.dropWhile delimiter = [] := List.dropWhile_eq_nil_iff.mpr blank
  rw [strtok,cstr_drop front zero behind,none_left]
  rfl
/-- The last word ends where the string does. -/
theorem strtok_last (zero : 0 ∉ blanks ++ token) (before : ∀ c ∈ blanks, delimiter c = true) (solid : ∀ c ∈ token, delimiter c = false)
    (some_ : token ≠ []) (front behind : Text) : strtok delimiter (front ++ (blanks ++ token ++ 0 :: behind)) front.length =
      some ⟨front.length + blanks.length,front ++ (blanks ++ token ++ 0 :: behind),front.length + blanks.length + token.length⟩ := by
  obtain ⟨first,second⟩ := parts [] before solid some_ (by simp)
  rw [List.append_nil] at first second
  have ends : (front ++ (blanks ++ token ++ 0 :: behind)).getD (front.length + blanks.length + token.length) 0 = 0 := by
    have here : front ++ (blanks ++ token ++ 0 :: behind) = (front ++ blanks ++ token) ++ 0 :: behind := by simp
    rw [here,List.getD_append_right _ _ _ _ (by simp; omega)]
    simp [Nat.add_assoc]
  rw [strtok,cstr_drop front zero behind,first,second]
  simp only [if_neg some_,ends,if_true]
/-- Behind any other word a delimiter is overwritten. -/
theorem strtok_more (zero : 0 ∉ blanks ++ token ++ d :: rest) (before : ∀ c ∈ blanks, delimiter c = true)
    (solid : ∀ c ∈ token, delimiter c = false) (some_ : token ≠ []) (ends : delimiter d = true) (front behind : Text) :
    strtok delimiter (front ++ (blanks ++ token ++ d :: rest ++ 0 :: behind)) front.length =
      some ⟨front.length + blanks.length,front ++ (blanks ++ token ++ 0 :: rest ++ 0 :: behind),
        front.length + blanks.length + token.length + 1⟩ := by
  obtain ⟨first,second⟩ := parts (d :: rest) before solid some_ (by simpa using ends)
  have here : front ++ (blanks ++ token ++ d :: rest ++ 0 :: behind) = (front ++ blanks ++ token) ++ d :: (rest ++ 0 :: behind) := by simp
  have length : front.length + blanks.length + token.length = (front ++ blanks ++ token).length := by simp [Nat.add_assoc]
  have solid' : (front ++ (blanks ++ token ++ d :: rest ++ 0 :: behind)).getD (front.length + blanks.length + token.length) 0 ≠ 0 := by
    rw [here,length,List.getD_append_right _ _ _ _ (by simp)]
    simpa using fun same => zero (by simp [same])
  have written : (front ++ (blanks ++ token ++ d :: rest ++ 0 :: behind)).set (front.length + blanks.length + token.length) 0 =
      front ++ (blanks ++ token ++ 0 :: rest ++ 0 :: behind) := by
    rw [here,length,List.set_append_right _ _ (by simp)]
    simp
  rw [strtok,cstr_drop front zero behind,first,second]
  simp only [if_neg some_,if_neg solid',written]

/-- Once nothing is found nothing changes. -/
theorem strtoks_none {start : Nat} (none_left : strtok delimiter mem start = none) (n : Nat) :
    strtoks delimiter n mem start = (List.replicate n none,mem) := by
  induction n with
  | zero => rfl
  | succ n ih =>
    rw [strtoks,none_left]
    simp only [ih,List.replicate_succ]
/-- The calls find the words of the string, one after the other, and then nothing. They write
    only within the string. -/
theorem strtoks_spec (n : Nat) (zero : 0 ∉ s) (front behind : Text) : ∃ s',
    (strtoks delimiter n (front ++ (s ++ 0 :: behind)) front.length).2 = front ++ (s' ++ 0 :: behind) ∧
      pointed (front ++ (s' ++ 0 :: behind)) (strtoks delimiter n (front ++ (s ++ 0 :: behind)) front.length).1 =
        ((words delimiter s).map some ++ List.replicate n none).take n := by
  induction n generalizing front s with
  | zero => exact ⟨s,rfl,by simp [strtoks,pointed]⟩
  | succ n ih =>
    cases scan delimiter s with
    | blank blank =>
      refine ⟨s,?_⟩
      rw [strtoks_none (strtok_blank zero blank front behind),words_blank blank]
      simp [pointed]
    | last blanks token before solid some_ =>
      have token_solid : 0 ∉ token := fun among => zero (by simp [among])
      have split : front ++ (blanks ++ token ++ 0 :: behind) = (front ++ (blanks ++ token)) ++ ([] ++ 0 :: behind) := by simp
      have length : front.length + blanks.length + token.length = (front ++ (blanks ++ token)).length := by simp [Nat.add_assoc]
      have beyond : strtok delimiter (front ++ (blanks ++ token ++ 0 :: behind)) (front.length + blanks.length + token.length) = none := by
        rw [split,length]
        exact strtok_blank (by simp) (by simp) _ behind
      refine ⟨blanks ++ token,?_⟩
      rw [strtoks,strtok_last zero before solid some_]
      simp only [strtoks_none beyond,words_blanks before,words_last solid some_]
      simp [pointed,cstr_append token_solid]
    | more blanks token rest d before solid some_ ends =>
      have token_solid : 0 ∉ token := fun among => zero (by simp [among])
      have rest_solid : 0 ∉ rest := fun among => zero (by simp [among])
      have split : front ++ (blanks ++ token ++ 0 :: rest ++ 0 :: behind) =
          (front ++ (blanks ++ token ++ [0])) ++ (rest ++ 0 :: behind) := by
        simp
      have length : front.length + blanks.length + token.length + 1 = (front ++ (blanks ++ token ++ [0])).length := by
        simp [Nat.add_assoc]
      obtain ⟨s',mem,found⟩ := ih rest_solid (front ++ (blanks ++ token ++ [0]))
      have joined : (front ++ (blanks ++ token ++ [0])) ++ (s' ++ 0 :: behind) = front ++ (blanks ++ token ++ 0 :: s' ++ 0 :: behind) := by
        simp
      have more : ((words delimiter rest).map some ++ List.replicate (n + 1) none).take n =
          ((words delimiter rest).map some ++ List.replicate n none).take n := by
        rw [List.replicate_succ',← List.append_assoc,List.take_append_of_le_length (by simp)]
      refine ⟨blanks ++ token ++ 0 :: s',?_⟩
      rw [strtoks,strtok_more zero before solid some_ ends,List.append_assoc blanks token (d :: rest),words_blanks before,
        words_more solid some_ ends]
      simp only [split,length]
      rw [joined] at mem found
      refine ⟨mem,?_⟩
      rw [List.map_cons,List.cons_append,List.take_succ_cons,more,← found]
      simp [pointed,cstr_append token_solid]
/-- What is left of the string itself: the first call has cut it behind its first word. -/
theorem strtoks_first (n : Nat) (zero : 0 ∉ s) (behind : Text) :
    cstr (strtoks delimiter (n + 1) (s ++ 0 :: behind) 0).2 = through_first delimiter s := by
  cases scan delimiter s with
  | blank blank =>
    have none_found : strtok delimiter (s ++ 0 :: behind) 0 = none := strtok_blank zero blank [] behind
    have all : s.takeWhile delimiter = s := List.takeWhile_eq_self_iff.mpr blank
    have none_left : s.dropWhile delimiter = [] := List.dropWhile_eq_nil_iff.mpr blank
    rw [strtoks_none none_found,cstr_append zero,through_first,all,none_left]
    simp
  | last blanks token before solid some_ =>
    have found := strtok_last zero before solid some_ [] behind
    have split : blanks ++ token ++ 0 :: behind = (blanks ++ token) ++ ([] ++ 0 :: behind) := by simp
    have length : blanks.length + token.length = (blanks ++ token).length := by simp
    have beyond : strtok delimiter (blanks ++ token ++ 0 :: behind) (blanks.length + token.length) = none := by
      rw [split,length]
      exact strtok_blank (by simp) (by simp) _ behind
    obtain ⟨first,second⟩ := parts [] before solid some_ (by simp)
    rw [List.append_nil] at first second
    simp only [List.nil_append,List.length_nil,Nat.zero_add] at found
    rw [strtoks,found]
    simp only [strtoks_none beyond]
    rw [cstr_append zero,through_first,first,second]
  | more blanks token rest d before solid some_ ends =>
    have rest_solid : 0 ∉ rest := fun among => zero (by simp [among])
    have front_solid : 0 ∉ blanks ++ token := fun among => zero (List.mem_append_left _ among)
    have found := strtok_more zero before solid some_ ends [] behind
    have split : blanks ++ token ++ 0 :: rest ++ 0 :: behind = (blanks ++ token ++ [0]) ++ (rest ++ 0 :: behind) := by simp
    have length : blanks.length + token.length + 1 = (blanks ++ token ++ [0]).length := by simp [Nat.add_assoc]
    obtain ⟨first,second⟩ := parts (d :: rest) before solid some_ (by simpa using ends)
    obtain ⟨s',mem,_⟩ := strtoks_spec n rest_solid (blanks ++ token ++ [0]) behind
    simp only [List.nil_append,List.length_nil,Nat.zero_add] at found
    rw [strtoks,found]
    simp only [split,length]
    rw [mem,List.append_assoc _ [0],List.singleton_append,cstr_append front_solid,through_first,first,second]

end StructureOfOs.CStrings
