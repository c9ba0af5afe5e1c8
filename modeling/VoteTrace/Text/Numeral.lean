namespace VoteTrace.Text.Numeral

def digitsValue (cs : List Char) : Nat :=
  cs.foldl (fun n c => 10 * n + (c.toNat - '0'.toNat)) 0

def digits? (cs : List Char) : Option Nat :=
  if cs.isEmpty || !cs.all Char.isDigit then none else some (digitsValue cs)

def numeral? : List Char → Option Nat
  | '+' :: rest => digits? rest
  | cs => digits? cs

def hexValue? (c : Char) : Option Nat :=
  if '0' ≤ c ∧ c ≤ '9' then some (c.toNat - '0'.toNat)
  else if 'a' ≤ c ∧ c ≤ 'f' then some (c.toNat - 'a'.toNat + 10)
  else if 'A' ≤ c ∧ c ≤ 'F' then some (c.toNat - 'A'.toNat + 10)
  else none

def below? (limit n : Nat) : Option Nat :=
  if n < limit then some n else none

def uint64? (s : String) : Option UInt64 :=
  ((numeral? s.toList).bind (below? UInt64.size)).map UInt64.ofNat

def uint16? (s : String) : Option UInt16 :=
  ((numeral? s.toList).bind (below? UInt16.size)).map UInt16.ofNat

end VoteTrace.Text.Numeral
