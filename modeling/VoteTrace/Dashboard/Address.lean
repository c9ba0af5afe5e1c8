import VoteTrace.Text.Numeral

/-!
Socket addresses, read from text and written as text: a host of version 4 or 6, a colon, and
the number of the service on it.

Octets of version 4 are decimal without leading zeros. Groups of version 6 are hexadecimal,
one run of zero groups may be left out as `::`, and the last two groups may be written as a
dotted version 4 host. A version 6 host may have a numeric scope.
-/

namespace VoteTrace

inductive Host where
  | v4 (a b c d : Nat)
  | v6 (groups : List Nat) (scope : Nat)
deriving DecidableEq

structure SocketAddress where
  host : Host
  portNumber : UInt16
deriving DecidableEq

namespace SocketAddress

open VoteTrace.Text.Numeral

def digitBelow? (base : Nat) (c : Char) : Option Nat :=
  (hexValue? c).bind (below? base)

def valueIn (base : Nat) (digits : List Char) : Nat :=
  digits.foldl (fun n c => base * n + (hexValue? c).getD 0) 0

/-- The number in front of a text, with what follows it. It takes all digits there are. -/
def number? (base limit : Nat) (accepts : List Char → Bool) (cs : List Char) :
    Option (Nat × List Char) :=
  let digits := cs.takeWhile fun c => (digitBelow? base c).isSome
  if !digits.isEmpty && accepts digits && valueIn base digits < limit then
    some (valueIn base digits, cs.dropWhile fun c => (digitBelow? base c).isSome)
  else none

def isOctet (digits : List Char) : Bool :=
  digits.length ≤ 3 && (digits.head? != some '0' || digits.length == 1)

def octet? : List Char → Option (Nat × List Char) :=
  number? 10 UInt8.size isOctet

def group? : List Char → Option (Nat × List Char) :=
  number? 16 UInt16.size fun digits => digits.length ≤ 4

def mark? (mark : Char) : List Char → Option (List Char)
  | [] => none
  | c :: rest => if c = mark then some rest else none

def dotted? (cs : List Char) : Option ((Nat × Nat × Nat × Nat) × List Char) := do
  let (a, cs) ← octet? cs
  let (b, cs) ← octet? (← mark? '.' cs)
  let (c, cs) ← octet? (← mark? '.' cs)
  let (d, cs) ← octet? (← mark? '.' cs)
  return ((a, b, c, d), cs)

/-- Groups in front of a text: as many as there are, up to `room`. -/
structure Groups where
  groups : List Nat
  /-- The last two were written as a dotted host. -/
  dotted : Bool
  rest : List Char

def separated? (first : Bool) (cs : List Char) : Option (List Char) :=
  if first then some cs else mark? ':' cs

/-- Reads groups while there is room; a dotted host takes the room of two. -/
def groupsIn (first : Bool) : Nat → List Char → Groups
  | 0, cs => ⟨[], false, cs⟩
  | room + 1, cs =>
    match (if 0 < room then (separated? first cs).bind dotted? else none) with
    | some ((a, b, c, d), rest) => ⟨[256 * a + b, 256 * c + d], true, rest⟩
    | none =>
      match (separated? first cs).bind group? with
      | some (g, rest) =>
        let more := groupsIn false room rest
        ⟨g :: more.groups, more.dotted, more.rest⟩
      | none => ⟨[], false, cs⟩

/-- The eight groups in front of a text. What `::` leaves out is at least one group. -/
def eightGroups? (cs : List Char) : Option (List Nat × List Char) :=
  let front := groupsIn true 8 cs
  if front.groups.length = 8 then some (front.groups, front.rest)
  else if front.dotted then none
  else do
    let rest ← mark? ':' (← mark? ':' front.rest)
    let back := groupsIn true (7 - front.groups.length) rest
    let zeros := 8 - front.groups.length - back.groups.length
    return (front.groups ++ List.replicate zeros 0 ++ back.groups, back.rest)

def scope (cs : List Char) : Nat × List Char :=
  match (mark? '%' cs).bind (number? 10 UInt32.size fun _ => true) with
  | some found => found
  | none => (0, cs)

def portNumber? (cs : List Char) : Option UInt16 := do
  let (n, rest) ← number? 10 UInt16.size (fun _ => true) (← mark? ':' cs)
  guard rest.isEmpty
  return UInt16.ofNat n

def parseV4? (cs : List Char) : Option SocketAddress := do
  let ((a, b, c, d), rest) ← dotted? cs
  let portNumber ← portNumber? rest
  return ⟨.v4 a b c d, portNumber⟩

def parseV6? (cs : List Char) : Option SocketAddress := do
  let (groups, rest) ← eightGroups? (← mark? '[' cs)
  let (zone, rest) := scope rest
  let portNumber ← portNumber? (← mark? ']' rest)
  return ⟨.v6 groups zone, portNumber⟩

def parse? (s : String) : Option SocketAddress :=
  (parseV4? s.toList).or (parseV6? s.toList)

def isV6 (address : SocketAddress) : Bool :=
  match address.host with
  | .v4 _ _ _ _ => false
  | .v6 _ _ => true

def dottedText (a b c d : Nat) : String :=
  ".".intercalate ([a, b, c, d].map toString)

def groupsText (groups : List Nat) : String :=
  ":".intercalate (groups.map fun g => String.ofList (Nat.toDigits 16 g))

/-- Start and length of the longest run of zero groups, the first of several. -/
def longestZeros (groups : List Nat) : Nat × Nat :=
  (List.range groups.length).foldl (fun best start =>
    let length := ((groups.drop start).takeWhile (· == 0)).length
    if best.2 < length then (start, length) else best) (0, 0)

/-- A run of at least two zero groups is left out. A version 4 host mapped into version 6 is
written dotted. -/
def v6Text (groups : List Nat) : String :=
  match groups with
  | [0, 0, 0, 0, 0, 0xFFFF, g, h] =>
    "::ffff:" ++ dottedText (g / 256) (g % 256) (h / 256) (h % 256)
  | groups =>
    let (start, length) := longestZeros groups
    if 1 < length then
      groupsText (groups.take start) ++ "::" ++ groupsText (groups.drop (start + length))
    else groupsText groups

def hostText : Host → String
  | .v4 a b c d => dottedText a b c d
  | .v6 groups 0 => "[" ++ v6Text groups ++ "]"
  | .v6 groups scope => "[" ++ v6Text groups ++ "%" ++ toString scope ++ "]"

def text (address : SocketAddress) : String :=
  hostText address.host ++ ":" ++ toString address.portNumber.toNat

end SocketAddress
end VoteTrace
