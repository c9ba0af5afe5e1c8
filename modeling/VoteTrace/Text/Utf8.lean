/-!
Octets read as UTF-8.

Where they are not UTF-8, every octet that starts no character is an error of its own, and so
is the longest beginning of a character that breaks off.
-/

namespace VoteTrace.Text.Utf8

/-- A character whose first octets have been read: how many are missing, the value so far,
and the range of the next one. -/
structure Started where
  missing : Nat
  value : Nat
  low : Nat
  high : Nat

inductive Lead where
  | whole (c : Char)
  | opens (started : Started)
  | stray

/-- What an octet does at the start of a character. The range of the second octet keeps out
overlong forms, surrogates and values that are no code points. -/
def lead (n : Nat) : Lead :=
  if n < 0x80 then .whole (Char.ofNat n)
  else if n < 0xC2 then .stray
  else if n < 0xE0 then .opens ⟨1, n - 0xC0, 0x80, 0xBF⟩
  else if n = 0xE0 then .opens ⟨2, 0x0, 0xA0, 0xBF⟩
  else if n = 0xED then .opens ⟨2, 0xD, 0x80, 0x9F⟩
  else if n < 0xF0 then .opens ⟨2, n - 0xE0, 0x80, 0xBF⟩
  else if n = 0xF0 then .opens ⟨3, 0x0, 0x90, 0xBF⟩
  else if n < 0xF4 then .opens ⟨3, n - 0xF0, 0x80, 0xBF⟩
  else if n = 0xF4 then .opens ⟨3, 0x4, 0x80, 0x8F⟩
  else .stray

/-- The characters read so far, latest first, with `none` for an error. -/
structure Decoding where
  started : Option Started
  parts : List (Option Char)

namespace Decoding

def begin (parts : List (Option Char)) (n : Nat) : Decoding :=
  match lead n with
  | .whole c => ⟨none, some c :: parts⟩
  | .opens started => ⟨some started, parts⟩
  | .stray => ⟨none, none :: parts⟩

def step (d : Decoding) (octet : UInt8) : Decoding :=
  let n := octet.toNat
  match d.started with
  | none => begin d.parts n
  | some s =>
    if s.low ≤ n ∧ n ≤ s.high then
      let value := s.value * 0x40 + (n - 0x80)
      if s.missing ≤ 1 then ⟨none, some (Char.ofNat value) :: d.parts⟩
      else ⟨some ⟨s.missing - 1, value, 0x80, 0xBF⟩, d.parts⟩
    else begin (none :: d.parts) n

def finish (d : Decoding) : List (Option Char) :=
  match d.started with
  | none => d.parts.reverse
  | some _ => (none :: d.parts).reverse

end Decoding

def parts (octets : List UInt8) : List (Option Char) :=
  (octets.foldl Decoding.step ⟨none, []⟩).finish

def toText? (octets : List UInt8) : Option String :=
  let ps := parts octets
  if ps.all Option.isSome then some (String.ofList (ps.filterMap id)) else none

/-- The text, with a replacement character for every error. -/
def toText (octets : List UInt8) : String :=
  String.ofList ((parts octets).map fun part => part.getD '\uFFFD')

def ofText (s : String) : List UInt8 := s.toUTF8.toList

end VoteTrace.Text.Utf8
