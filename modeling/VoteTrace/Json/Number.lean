import VoteTrace.Json.Value
import VoteTrace.Text.Numeral

namespace VoteTrace.Json.Number

open VoteTrace.Text.Numeral

structure Spelling where
  negative : Bool
  whole : List Char
  fraction : List Char
  exponent : Option Int

def spanDigits (cs : List Char) : List Char × List Char :=
  (cs.takeWhile Char.isDigit, cs.dropWhile Char.isDigit)

def exponent? : List Char → Option (Option Int)
  | [] => some none
  | e :: rest =>
    if e = 'e' ∨ e = 'E' then
      match rest with
      | '-' :: digits => (digits? digits).map fun n => some (-(n : Int))
      | digits => (numeral? digits).map fun n => some (n : Int)
    else none

/-- The fraction in front of a text and what follows it; a text without a point has the empty
fraction. -/
def fraction? : List Char → Option (List Char × List Char)
  | '.' :: rest =>
    let split := spanDigits rest
    if split.1.isEmpty then none else some split
  | cs => some ([], cs)

/-- An integer part is zero or begins with another digit. -/
def isWhole : List Char → Bool
  | [] => false
  | ['0'] => true
  | c :: _ => c != '0'

def unsigned? (negative : Bool) (cs : List Char) : Option Spelling := do
  let split := spanDigits cs
  guard (isWhole split.1)
  let (fraction, rest) ← fraction? split.2
  let exponent ← exponent? rest
  return ⟨negative, split.1, fraction, exponent⟩

def spelling? : List Char → Option Spelling
  | '-' :: rest => unsigned? true rest
  | cs => unsigned? false cs

def signed (negative : Bool) (x : Float) : Float :=
  if negative then -x else x

/-- The digits that a word can hold, read on from `n`, as their value, and those behind them. -/
def spanWord (n : Nat) : List Char → Nat × List Char
  | [] => (n, [])
  | c :: rest =>
    let next := 10 * n + digitsValue [c]
    if next < UInt64.size then spanWord next rest else (n, c :: rest)

/-- A word, and the power of ten that it is taken times. -/
structure Scientific where
  significand : Nat
  exponent : Int

namespace Scientific

/-- The greatest power of ten that is a float. -/
def largestPower : Nat := 308

def tenTo (n : Nat) : Float := Float.ofScientific 1 false n

/-- The word is rounded to a float first, and that times the power once more. Where the power is
too small for one division there are two. -/
def toFloat (s : Scientific) : Float :=
  let x := Float.ofNat s.significand
  if 0 ≤ s.exponent then x * tenTo s.exponent.natAbs
  else if s.exponent.natAbs ≤ largestPower then x / tenTo s.exponent.natAbs
  else x / tenTo largestPower / tenTo (s.exponent.natAbs - largestPower)

def value (negative : Bool) (s : Scientific) : Value :=
  if s.significand = 0 then .real (signed negative 0)
  else if s.toFloat.isFinite then .real (signed negative s.toFloat)
  else .huge

end Scientific

namespace Spelling

def isPlain (s : Spelling) : Bool :=
  !s.negative && s.fraction.isEmpty && s.exponent.isNone

/-- Digits are left out once a word cannot hold the next. Those of the whole part count for the
power all the same. -/
def scientific (s : Spelling) : Scientific :=
  let whole := spanWord 0 s.whole
  let all := spanWord whole.1 s.fraction
  { significand := all.1
    exponent := s.exponent.getD 0 + whole.2.length - (s.fraction.length - all.2.length) }

def value (s : Spelling) : Value :=
  if s.isPlain && digitsValue s.whole < UInt64.size then .nat (digitsValue s.whole)
  else s.scientific.value s.negative

end Spelling

def value? (cs : List Char) : Option Value :=
  (spelling? cs).map Spelling.value

/-- Rounded once the last digits would be 15. -/
example : ((value? "10.161778077438015".toList).bind Value.toFloat?).map Float.toBits =
    some (10.161778077438017 : Float).toBits := by decide +kernel

end VoteTrace.Json.Number
