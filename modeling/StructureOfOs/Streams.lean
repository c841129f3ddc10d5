import StructureOfOs.Loops
import Mathlib.Data.List.Basic

/-!
Input streams as formatted extraction reads them. An extraction skips whitespace, and fails
without touching its target if the stream has failed or has nothing left. Iterators over the
characters of a stream extract too, so they pass over whitespace (`chars`), and `equal` compares
what two of them give: it takes the first one to be as long as the second (`equal_spec`).
-/
namespace StructureOfOs.Streams
open StructureOfOs.Loops

abbrev Text := List UInt8
def bytes (name : String) : Text := name.toList.map fun c => .ofNat c.toNat
/-- The string of these bytes. -/
def string (text : Text) : String := String.ofList (text.map fun c => Char.ofNat c.toNat)

/-- What is left of a stream, and its flags. -/
structure Stream where
  rest : Text
  eof : Bool
  fail : Bool
deriving DecidableEq, Repr
def opened (text : Text) : Stream := ⟨text,false,false⟩

/-- Blank, and the five control characters from tab to carriage return. -/
def isspace (c : UInt8) : Bool := c == 32 || (9 ≤ c && c ≤ 13)
/-- An extraction: what `read` makes of the text after the whitespace, unless there is none. -/
def extract {α : Type} (read : Text → α × Stream) (target : α) (s : Stream) : α × Stream :=
  if s.eof || s.fail then (target,{ s with fail := true })
  else
    match s.rest.dropWhile isspace with
    | [] => (target,⟨[],true,true⟩)
    | c :: rest => read (c :: rest)
def read_char : Text → UInt8 × Stream
  | [] => (0,⟨[],true,true⟩)
  | c :: rest => (c,opened rest)

def isdigit (c : UInt8) : Bool := 48 ≤ c && c ≤ 57
/-- Up to the next whitespace. -/
def read_word (text : Text) : Text × Stream :=
  let rest := text.dropWhile fun c => !isspace c
  (text.takeWhile fun c => !isspace c,⟨rest,rest.isEmpty,false⟩)
/-- A decimal number between `low` and `high`: 0 and a failure if there is no digit, the bound and
    a failure if it lies beyond one. -/
def read_int (low high : Int) (text : Text) : Int × Stream :=
  let (sign,text) : Int × Text :=
    match text with
    | 45 :: rest => (-1,rest)
    | 43 :: rest => (1,rest)
    | _ => (1,text)
  let digits := text.takeWhile isdigit
  let rest := text.dropWhile isdigit
  let n := sign * digits.foldl (fun n c => 10 * n + (c.toNat - 48 : Nat)) 0
  if digits = [] then (0,⟨rest,rest.isEmpty,true⟩)
  else if high < n then (high,⟨rest,rest.isEmpty,true⟩)
  else if n < low then (low,⟨rest,rest.isEmpty,true⟩)
  else (n,⟨rest,rest.isEmpty,false⟩)
/-- The lines of a text; the last one need not be ended. -/
def getlines : Text → List Text
  | [] => []
  | 10 :: rest => [] :: getlines rest
  | c :: rest =>
    match getlines rest with
    | [] => [[c]]
    | line :: lines => (c :: line) :: lines

/-- An extraction that succeeds does not look at its target. -/
theorem extract_good {α : Type} {read : Text → α × Stream} {s s' : Stream} {target value : α}
    (extracted : extract read target s = (value,s')) (good : s'.fail = false) (other : α) :
    extract read other s = (value,s') := by
  unfold extract at extracted ⊢
  split at extracted
  · cases extracted
    cases good
  · rename_i sound
    rw [if_neg sound]
    split at extracted
    · cases extracted
      cases good
    · exact extracted
/-- An extraction from a text gives its first character that is no whitespace, or the target. -/
theorem extract_char_opened (target : UInt8) (text : Text) :
    (extract read_char target (opened text)).1 = (text.dropWhile isspace).head?.getD target := by
  simp only [extract,opened,Bool.or_self,Bool.false_eq_true,if_false]
  cases text.dropWhile isspace with
  | nil => rfl
  | cons c rest => rfl

/-! ### Iterators -/

/-- Past the last character, or on one that has been extracted from the stream. -/
inductive Iterator
  | end_
  | on (value : UInt8) (stream : Stream)
deriving DecidableEq, Repr
def istream_iterator (s : Stream) : Iterator :=
  let (value,s') := extract read_char 0 s
  if s'.fail then .end_ else .on value s'
/-- An iterator without a value is dereferenced or incremented. -/
inductive Misuse
  | exhausted
deriving DecidableEq, Repr

def Iterator.left : Iterator → Nat
  | .end_ => 0
  | .on _ stream => stream.rest.length + 1
/-- A pass of `equal`. Iterators of different streams are equal when both are past the end. -/
def equal_body (last : Iterator) : Iterator × Iterator → (Iterator × Iterator) ⊕ Except Misuse Bool
  | (first1,first2) =>
    match last,first1,first2 with
    | .end_,.end_,_ => .inr (.ok true)
    | _,.on value1 stream1,.on value2 stream2 =>
      if value1 = value2 then .inl (istream_iterator stream1,istream_iterator stream2) else .inr (.ok false)
    | _,_,_ => .inr (.error .exhausted)

theorem extract_char_shorter {s s' : Stream} {target c : UInt8} (extracted : extract read_char target s = (c,s'))
    (good : s'.fail = false) : s'.rest.length < s.rest.length := by
  unfold extract at extracted
  split at extracted
  · cases extracted
    cases good
  · split at extracted
    · cases extracted
      cases good
    · rename_i c' rest left
      cases extracted
      have shorter : (s.rest.dropWhile isspace).length ≤ s.rest.length := (List.dropWhile_sublist _).length_le
      rw [left] at shorter
      exact Nat.lt_of_succ_le shorter
theorem iterator_left (s : Stream) : (istream_iterator s).left ≤ s.rest.length := by
  unfold istream_iterator
  cases extracted : extract read_char 0 s with
  | mk c s' =>
    dsimp only
    split
    · exact Nat.zero_le _
    · rename_i good
      exact extract_char_shorter extracted (by simpa using good)

/-- `equal` of the characters from the first iterator to the last with those from the second on. -/
def equal_loop (last : Iterator) : Loop (Iterator × Iterator) (Except Misuse Bool) where
  body := equal_body last
  size at_ := at_.1.left
  shrinks := by
    rintro ⟨first1,first2⟩ at' next
    dsimp only [equal_body] at next
    split at next
    · cases next
    · rename_i value1 stream1 value2 stream2
      split at next
      · cases next
        exact Nat.lt_succ_of_le (iterator_left stream1)
      · cases next
    · cases next
def equal (first1 last first2 : Iterator) : Except Misuse Bool := (equal_loop last).run (first1,first2)

/-! ### What the iterators give -/

/-- The text without its whitespace. -/
def chars (text : Text) : Text := text.filter fun c => !isspace c
/-- The characters from an iterator on. -/
def Iterator.chars : Iterator → Text
  | .end_ => []
  | .on value stream => value :: Streams.chars stream.rest
/-- Nothing has gone wrong with the iterator's stream. -/
def Iterator.Good : Iterator → Prop
  | .end_ => True
  | .on _ stream => stream = opened stream.rest

theorem chars_dropWhile (text : Text) : chars (text.dropWhile isspace) = chars text := by
  induction text with
  | nil => rfl
  | cons c text ih =>
    cases blank : isspace c with
    | true => simpa [List.dropWhile_cons,chars,blank] using ih
    | false => simp [blank]
theorem iterator_cases (text : Text) : (chars text = [] ∧ istream_iterator (opened text) = .end_) ∨
    ∃ c rest, chars text = c :: chars rest ∧ istream_iterator (opened text) = .on c (opened rest) := by
  have same := chars_dropWhile text
  cases left : text.dropWhile isspace with
  | nil =>
    rw [left] at same
    exact .inl ⟨same.symm,by simp [istream_iterator,extract,opened,left]⟩
  | cons c rest =>
    have solid : isspace c = false := by
      have head := List.head?_dropWhile_not isspace text
      rw [left] at head
      simpa using head
    refine .inr ⟨c,rest,?_,by simp [istream_iterator,extract,opened,left,read_char]⟩
    rw [← same,left]
    simp [chars,solid]
theorem iterator_chars (text : Text) : (istream_iterator (opened text)).chars = chars text := by
  rcases iterator_cases text with ⟨none,last⟩ | ⟨c,rest,some_,on⟩
  · rw [last,none]; rfl
  · rw [on,some_]; rfl
theorem iterator_good (text : Text) : (istream_iterator (opened text)).Good := by
  rcases iterator_cases text with ⟨_,last⟩ | ⟨_,_,_,on⟩
  · rw [last]; trivial
  · rw [on]; rfl

/-- Up to the end of the first: it is a beginning of the second, or goes on where that one
    ends, or differs from it before. -/
theorem equal_spec {first1 first2 : Iterator} (good1 : first1.Good) (good2 : first2.Good) :
    equal first1 .end_ first2 =
      if first1.chars <+: first2.chars then .ok true
      else if first2.chars <+: first1.chars then .error .exhausted
      else .ok false := by
  induction left : first1.chars generalizing first1 first2 with
  | nil =>
    cases first1 with
    | on value1 stream1 => cases left
    | end_ =>
      rw [if_pos List.nil_prefix]
      exact run_end (L := equal_loop .end_) rfl
  | cons c later ih =>
    cases first1 with
    | end_ => cases left
    | on value1 stream1 =>
      cases left
      cases first2 with
      | end_ =>
        rw [if_neg (by simp [Iterator.chars]),if_pos (by simp [Iterator.chars])]
        exact run_end (L := equal_loop .end_) rfl
      | on value2 stream2 =>
        by_cases same : c = value2
        · subst same
          have next : (equal_loop .end_).body (.on c stream1,.on c stream2) =
              .inl (istream_iterator stream1,istream_iterator stream2) := by
            simp [equal_loop,equal_body]
          rw [equal,run_next next]
          rw [show stream1 = opened stream1.rest from good1,show stream2 = opened stream2.rest from good2]
          rw [← equal,ih (iterator_good _) (iterator_good _) (iterator_chars _),iterator_chars]
          simp [Iterator.chars,opened]
        · rw [if_neg (by simp [Iterator.chars,same]),if_neg (by simp [Iterator.chars,Ne.symm same])]
          exact run_end (L := equal_loop .end_) (by simp [equal_loop,equal_body,same])

end StructureOfOs.Streams
