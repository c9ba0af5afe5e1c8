import VoteTrace.Json.Number

/-!
The tokens of JSON, cut from a text character by character.

A number or a word ends where a character follows that cannot belong to it. Two of them side
by side are still told apart, and then refused by the reader, which wants a mark between.
-/

namespace VoteTrace.Json

inductive Token where
  | openObject
  | closeObject
  | openArray
  | closeArray
  | colon
  | comma
  /-- A text; `none` if it has an unpaired surrogate. -/
  | text (s : Option String)
  | scalar (v : Value)

/-- Where in a token the text so far ends. Collected parts stand latest first. -/
inductive Lexing where
  | between
  | word (letters : List Char)
  | number (chars : List Char)
  | text (points : List Nat)
  | escape (points : List Nat)
  /-- Behind `\u`, with `missing` hexadecimal digits to come. -/
  | codeUnit (points : List Nat) (missing value : Nat)

namespace Token

def isSpace (c : Char) : Bool :=
  c == ' ' || c == '\t' || c == '\n' || c == '\r'

def isNumberChar (c : Char) : Bool :=
  c.isDigit || c == '-' || c == '+' || c == '.' || c == 'e' || c == 'E'

def isHighSurrogate (n : Nat) : Bool := 0xD800 ≤ n && n < 0xDC00

def isLowSurrogate (n : Nat) : Bool := 0xDC00 ≤ n && n < 0xE000

def pairValue (high low : Nat) : Nat :=
  0x10000 + (high - 0xD800) * 0x400 + (low - 0xDC00)

/-- The characters for a list of code points in which a surrogate may stand only in a pair. -/
def joinSurrogates : List Nat → Option (List Char)
  | [] => some []
  | [n] => if isHighSurrogate n || isLowSurrogate n then none else some [Char.ofNat n]
  | n :: m :: rest =>
    if isHighSurrogate n && isLowSurrogate m then
      (joinSurrogates rest).map (Char.ofNat (pairValue n m) :: ·)
    else if isHighSurrogate n || isLowSurrogate n then none
    else (joinSurrogates (m :: rest)).map (Char.ofNat n :: ·)

def ofPoints (points : List Nat) : Token :=
  text ((joinSurrogates points).map String.ofList)

def ofWord? (letters : List Char) : Option Token :=
  match String.ofList letters with
  | "null" => some (scalar .null)
  | "true" => some (scalar (.bool true))
  | "false" => some (scalar (.bool false))
  | _ => none

def ofNumber? (chars : List Char) : Option Token :=
  (Number.value? chars).map scalar

def escaped? : Char → Option Nat
  | '"' => some 0x22
  | '\\' => some 0x5C
  | '/' => some 0x2F
  | 'b' => some 0x08
  | 'f' => some 0x0C
  | 'n' => some 0x0A
  | 'r' => some 0x0D
  | 't' => some 0x09
  | _ => none

end Token

namespace Lexing

open Token
open VoteTrace.Text.Numeral

/-- A character outside of all tokens: the token it is, if it is one alone, and how to go on. -/
def start? (c : Char) : Option (List Token × Lexing) :=
  match c with
  | '{' => some ([openObject], between)
  | '}' => some ([closeObject], between)
  | '[' => some ([openArray], between)
  | ']' => some ([closeArray], between)
  | ':' => some ([colon], between)
  | ',' => some ([comma], between)
  | '"' => some ([], text [])
  | c =>
    if isSpace c then some ([], between)
    else if c.isDigit || c == '-' then some ([], number [c])
    else if c.isLower then some ([], word [c])
    else none

/-- One more character, and the tokens it completes. -/
def step? : Lexing → Char → Option (List Token × Lexing)
  | between, c => start? c
  | word letters, c =>
    if c.isLower then some ([], word (c :: letters))
    else do
      let done ← ofWord? letters.reverse
      let (more, next) ← start? c
      return (done :: more, next)
  | number chars, c =>
    if isNumberChar c then some ([], number (c :: chars))
    else do
      let done ← ofNumber? chars.reverse
      let (more, next) ← start? c
      return (done :: more, next)
  | text points, c =>
    if c = '"' then some ([ofPoints points.reverse], between)
    else if c = '\\' then some ([], escape points)
    else if c.toNat < 0x20 then none
    else some ([], text (c.toNat :: points))
  | escape points, c =>
    if c = 'u' then some ([], codeUnit points 4 0)
    else (escaped? c).map fun n => ([], text (n :: points))
  | codeUnit points missing value, c =>
    (hexValue? c).map fun digit =>
      if missing ≤ 1 then ([], text ((16 * value + digit) :: points))
      else ([], codeUnit points (missing - 1) (16 * value + digit))

/-- The tokens that the end of the text completes. -/
def finish? : Lexing → Option (List Token)
  | between => some []
  | word letters => (ofWord? letters.reverse).map ([·])
  | number chars => (ofNumber? chars.reverse).map ([·])
  | _ => none

end Lexing

namespace Token

def ofText? (cs : List Char) : Option (List Token) := do
  let (tokens, last) ← cs.foldlM (fun (tokens, state) c =>
    (Lexing.step? state c).map fun (more, next) => (more.reverse ++ tokens, next))
    (([] : List Token), Lexing.between)
  let more ← last.finish?
  return (more.reverse ++ tokens).reverse

end Token
end VoteTrace.Json
