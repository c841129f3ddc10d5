import StructureOfOs.Streams
import Mathlib.Algebra.Group.Int.Defs
import Mathlib.Algebra.Group.Nat.Defs

/-!
The integers of C. An `int` holds what is left of a number modulo 2 to the 32, which is the
number itself where it is in range, and `atoi` goes by way of a `long`, whose bounds stand
for what lies beyond them. A `double` that holds an integer is printed with six significant
digits, so that from a million on it is rounded.
-/
namespace StructureOfOs.Integers
open StructureOfOs.Streams (Text isspace isdigit)

def INT_MIN : Int := -2147483648
def INT_MAX : Int := 2147483647
def LONG_MIN : Int := -2 ^ 63
def LONG_MAX : Int := 2 ^ 63 - 1

/-- An `int` can hold the number. -/
def InRange (v : Int) : Prop := INT_MIN ≤ v ∧ v ≤ INT_MAX
instance (v : Int) : Decidable (InRange v) := inferInstanceAs (Decidable (_ ∧ _))
/-- What a 32-bit `int` holds of a number. -/
def int (v : Int) : Int := v.bmod (2 ^ 32)

/-- The decimal digits that a text starts with. -/
def decimal (text : Text) : Int := (text.takeWhile isdigit).foldl (fun n c => 10 * n + (c.toNat - 48 : Nat)) 0
/-- The integer that a text starts with, 0 if it starts with none. -/
def number (text : Text) : Int :=
  match text.dropWhile isspace with
  | 45 :: rest => -decimal rest
  | 43 :: rest => decimal rest
  | rest => decimal rest
/-- A number beyond `long` is replaced by the bound. -/
def strtol (text : Text) : Int := max LONG_MIN (min LONG_MAX (number text))
def atoi (text : Text) : Int := int (strtol text)

/-! ### A double on a stream -/

/-- The quotient, rounded to the nearest integer and to the even one of two. -/
def rounded (n q : Nat) : Nat :=
  let below := n / q
  let twice := 2 * (n % q)
  if twice < q ∨ twice = q ∧ below % 2 = 0 then below else below + 1
/-- The digits without the zeros at their end. -/
def significant (digits : List Char) : List Char := (digits.reverse.dropWhile (· = '0')).reverse
/-- Six digits and the exponent, which has two digits at least. -/
def scientific (digits : List Char) (exponent : Nat) : String :=
  let fraction := significant digits.tail
  let point := if fraction = [] then [] else '.' :: fraction
  String.ofList (digits.take 1 ++ point) ++ "e+" ++ (if exponent < 10 then "0" else "") ++ toString exponent
/-- `operator<<` for a `double` that holds this integer. -/
def double (v : Int) : String :=
  let n := v.natAbs
  let sign := if v < 0 then "-" else ""
  if n < 1000000 then sign ++ toString n
  else
    let exponent := (Nat.toDigits 10 n).length - 1
    let digits := rounded n (10 ^ (exponent - 5))
    if digits = 1000000 then sign ++ scientific ['1'] (exponent + 1)
    else sign ++ scientific (Nat.toDigits 10 digits) exponent

variable {v : Int} {text : Text}

theorem int_inRange (v : Int) : InRange (int v) := by
  have low := Int.le_bmod (x := v) (m := 2 ^ 32) (by decide)
  have high := Int.bmod_lt (x := v) (m := 2 ^ 32) (by decide)
  unfold InRange int INT_MIN INT_MAX
  omega
theorem int_of_inRange (range : InRange v) : int v = v := by
  obtain ⟨low,high⟩ := range
  unfold INT_MIN at low
  unfold INT_MAX at high
  exact Int.bmod_eq_of_le_mul_two (by omega) (by omega)
/-- A sum that is too great for an `int` comes out below what has been added to. -/
theorem int_exceeded {b x : Int} (range : InRange b) (range' : InRange x) (above : 0 ≤ x) (exceeds : ¬ InRange (b + x)) :
    int (b + x) < b := by
  unfold InRange INT_MIN INT_MAX at *
  rw [int,Int.bmod_def]
  split <;> omega
theorem atoi_inRange (text : Text) : InRange (atoi text) := int_inRange _
/-- `atoi` gives the number exactly when an `int` can hold it. -/
theorem atoi_of_inRange (range : InRange (number text)) : atoi text = number text := by
  obtain ⟨low,high⟩ := range
  unfold INT_MIN at low
  unfold INT_MAX at high
  have within : strtol text = number text := by
    unfold strtol LONG_MIN LONG_MAX
    omega
  rw [atoi,within]
  exact int_of_inRange ⟨low,high⟩

/-- A number that is no `int` is cut down to another one. -/
example : atoi (Streams.bytes "4294967297") = 1 := by decide
example : double 1234565 = "1.23456e+06" := by decide

end StructureOfOs.Integers
