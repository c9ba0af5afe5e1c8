/-!
JSON values as a document states them.

Objects keep their members in order, repeated ones too. A text may be written with half of a
surrogate pair, and a number may be written beyond all floats; both can be skipped over and
neither can be used, so they are values of their own.
-/

namespace VoteTrace.Json

inductive Value where
  | null
  | bool (b : Bool)
  /-- A whole number. Read are those below 2^64, without sign, fraction and exponent. -/
  | nat (n : Nat)
  /-- Any other number, as a float. -/
  | real (x : Float)
  /-- A number too large for a float. -/
  | huge
  | str (s : String)
  /-- A text with an unpaired surrogate. -/
  | unpaired
  | arr (items : List Value)
  /-- The key `none` is a text with an unpaired surrogate. -/
  | obj (members : List (Option String × Value))

namespace Value

mutual

/-- How many arrays and objects lie around the innermost value. -/
def depth : Value → Nat
  | arr items => itemsDepth items + 1
  | obj members => membersDepth members + 1
  | _ => 0

def itemsDepth : List Value → Nat
  | [] => 0
  | v :: rest => max (depth v) (itemsDepth rest)

def membersDepth : List (Option String × Value) → Nat
  | [] => 0
  | (_, v) :: rest => max (depth v) (membersDepth rest)

end

mutual

/-- Every number and every text in the value can be used. -/
def isUsable : Value → Bool
  | huge => false
  | unpaired => false
  | arr items => itemsUsable items
  | obj members => membersUsable members
  | _ => true

def itemsUsable : List Value → Bool
  | [] => true
  | v :: rest => isUsable v && itemsUsable rest

def membersUsable : List (Option String × Value) → Bool
  | [] => true
  | (key, v) :: rest => key.isSome && isUsable v && membersUsable rest

end

/-- How deep values that have to be kept can lie in each other. -/
def keptDepth : Nat := 127

/-- A value inside `around` others can be kept, before it is known what it is for, if it is
usable all through and does not lie too deep. -/
def canKeep (around : Nat) (v : Value) : Bool :=
  v.isUsable && v.depth + around ≤ keptDepth

def ofOption {α : Type} (encode : α → Value) : Option α → Value
  | none => null
  | some a => encode a

/-- A float that is not finite has no number. -/
def ofFloat (x : Float) : Value :=
  if x.isFinite then real x else null

def ofList {α : Type} (encode : α → Value) (entries : List α) : Value :=
  arr (entries.map encode)

def record (fields : List (String × Value)) : Value :=
  obj (fields.map fun (name, v) => (some name, v))

def toBool? : Value → Option Bool
  | bool b => some b
  | _ => none

def toText? : Value → Option String
  | str s => some s
  | _ => none

def toNat? (limit : Nat) : Value → Option Nat
  | nat n => if n < limit then some n else none
  | _ => none

def toUInt64? (v : Value) : Option UInt64 :=
  (v.toNat? UInt64.size).map UInt64.ofNat

def toUInt32? (v : Value) : Option UInt32 :=
  (v.toNat? UInt32.size).map UInt32.ofNat

/-- A count, which may be as large as integers are read. -/
def toCount? : Value → Option Nat
  | nat n => some n
  | _ => none

def toFloat? : Value → Option Float
  | nat n => some (Float.ofScientific n false 0)
  | real x => some x
  | _ => none

def toList? {α : Type} (decode : Value → Option α) : Value → Option (List α)
  | arr items => items.mapM decode
  | _ => none

end Value
end VoteTrace.Json
