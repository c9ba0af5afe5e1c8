import VoteTrace.Text.Numeral
import VoteTrace.Text.Pieces
import VoteTrace.Text.Utf8

namespace VoteTrace.Text.Percent

open VoteTrace.Text.Numeral

def percentSign : UInt8 := 0x25

def hexOctet? (b : UInt8) : Option Nat := hexValue? (Char.ofNat b.toNat)

def escaped? (high low : UInt8) : Option UInt8 := do
  let h ← hexOctet? high
  let l ← hexOctet? low
  return UInt8.ofNat (16 * h + l)

/-- A percent sign without two hexadecimal digits behind it stands for itself. -/
def decodeOctets : List UInt8 → List UInt8
  | high :: low :: digit :: rest =>
    match if high = percentSign then escaped? low digit else none with
    | some b => b :: decodeOctets rest
    | none => high :: decodeOctets (low :: digit :: rest)
  | octets => octets

/-- The text behind percent-encoding, if it is UTF-8. -/
def decode? (s : String) : Option String :=
  Utf8.toText? (decodeOctets (Utf8.ofText s))

/-- One name or value of a query: a plus is a space, and what is not UTF-8 is replaced. -/
def decodeField (cs : List Char) : String :=
  let spaced := String.ofList (cs.map fun c => if c = '+' then ' ' else c)
  Utf8.toText (decodeOctets (Utf8.ofText spaced))

/-- The names and values of a query. Empty pieces are passed over, and a name without `=` has
the empty value. -/
def query (cs : List Char) : List (String × String) :=
  ((Pieces.split '&' cs).filter fun piece => !piece.isEmpty).map fun piece =>
    (decodeField (piece.takeWhile (· != '=')),
      decodeField ((piece.dropWhile (· != '=')).drop 1))

end VoteTrace.Text.Percent
