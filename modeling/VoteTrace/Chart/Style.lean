import VoteTrace.Fault
import VoteTrace.Text.Blank

namespace VoteTrace

inductive Style where
  | tree
  | flow
  | geo
deriving DecidableEq

namespace Style

/-- What is drawn if nobody chose. -/
def standard : Style := tree

def name : Style → String
  | tree => "tree"
  | flow => "flow"
  | geo => "geo"

def selector : Style → Nat
  | tree => 0
  | flow => 1
  | geo => 2

def ofSelector (n : Nat) : Except TraceFault Style :=
  match n with
  | 0 => .ok tree
  | 1 => .ok flow
  | 2 => .ok geo
  | n => .error (.unknownStyle (toString n))

def ofName? : String → Option Style
  | "tree" => some tree
  | "flow" => some flow
  | "geo" => some geo
  | _ => none

/-- Reads a choice of style: its name, its number or its other name, with blanks around. -/
def parse (s : String) : Except TraceFault Style :=
  match Text.Blank.trim s with
  | "" => .ok standard
  | "0" => .ok tree
  | "tree" => .ok tree
  | "1" => .ok flow
  | "flow" => .ok flow
  | "sankey" => .ok flow
  | "2" => .ok geo
  | "geo" => .ok geo
  | "map" => .ok geo
  | text => .error (.unknownStyle text)

end Style
end VoteTrace
