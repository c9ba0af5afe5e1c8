import VoteTrace.Text.Pieces

namespace VoteTrace

/-- Where a file lies: the steps that lead to it, from the root or from where all names start. Two
dots are a step only at the beginning, where the folders around have no other name. -/
abbrev Location := List String

namespace Location

def root : String := "/"

def back : String := ".."

def staysInPlace (step : String) : Bool :=
  step == "" || step == "."

def longestName : Nat := 4095

end Location

structure Files where
  entries : List (Location × List UInt8)

namespace Files

open Location

def empty : Files := ⟨[]⟩

/-- A folder is known by what lies in it. -/
def hasFolder (files : Files) (place : Location) : Bool :=
  files.entries.any fun entry => place.isPrefixOf entry.1 && place.length < entry.1.length

/-- Where a step leads from a place. There is nothing around the root, and no way back from what
is no folder. -/
def step? (files : Files) (place : Location) (step : String) : Option Location :=
  if staysInPlace step then some place
  else if step ≠ back then some (place ++ [step])
  else if place = [root] then some place
  else if place.all (· == back) then some (place ++ [back])
  else if files.hasFolder place then some place.dropLast
  else none

/-- The location that a name spells. A name that starts with a slash starts from the root. What
ends in a step to a folder is not the name of a file, and neither is what is too long. -/
def locate? (files : Files) (name : String) : Option Location :=
  let steps := (Text.Pieces.split '/' name.toList).map String.ofList
  if longestName < name.utf8ByteSize ∨
      steps.getLast?.all (fun step => staysInPlace step || step == back) then none
  else steps.foldlM files.step? (if steps.head? = some "" then [root] else [])

def read? (files : Files) (name : String) : Option (List UInt8) :=
  (files.locate? name).bind fun place => files.entries.lookup place

def clear (files : Files) (place : Location) : Files :=
  ⟨files.entries.filter fun entry => entry.1 != place⟩

/-- Nothing can be removed or written under what is not the name of a file. -/
def remove (files : Files) (name : String) : Files :=
  match files.locate? name with
  | none => files
  | some place => files.clear place

def write (files : Files) (name : String) (octets : List UInt8) : Files :=
  match files.locate? name with
  | none => files
  | some place => ⟨(place, octets) :: (files.clear place).entries⟩

end Files

end VoteTrace
