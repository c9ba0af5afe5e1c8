import VoteTrace.Telemetry.Route
import VoteTrace.Text.Numeral
import VoteTrace.Text.Percent

namespace VoteTrace

/-- A resource of the dashboard. Parameters are as the path spells them. -/
inductive Resource where
  | page
  | status
  | rounds
  | authenticators (round : String)
  | relays (round : String)
  | matrix (round : String)
  | history (auth : String)
  | route
  | reload
deriving DecidableEq

inductive Method where
  | get
  | post
deriving DecidableEq

namespace Resource

/-- A parameter is one segment. It may be empty where more of the path follows, and not at the
end. -/
def ofSegments? : List String → Option Resource
  | [""] => some page
  | ["api", "status"] => some status
  | ["api", "rounds"] => some rounds
  | ["api", "rounds", round, "authenticators"] => some (authenticators round)
  | ["api", "rounds", round, "relays"] => some (relays round)
  | ["api", "rounds", round, "matrix"] => some (matrix round)
  | ["api", "authenticators", auth] => if auth = "" then none else some (history auth)
  | ["api", "route"] => some route
  | ["api", "reload"] => some reload
  | _ => none

/-- Paths are compared as they are spelled. -/
def ofPath? (path : List Char) : Option Resource :=
  match (Text.Pieces.split '/' path).map String.ofList with
  | "" :: segments => ofSegments? segments
  | _ => none

def method : Resource → Method
  | reload => .post
  | _ => .get

end Resource

/-- A target is a path, perhaps a query, and perhaps a fragment that no one looks at. A scheme
and a host may stand before the path. -/
structure Target where
  path : List Char
  query : List Char

namespace Target

def isOfScheme (c : Char) : Bool :=
  c.isAlphanum || c == '+' || c == '-' || c == '.' || c == '~'

/-- A target without its scheme and its host, if it names them. The path of a host alone is
that of the page. -/
def withoutHost (target : List Char) : List Char :=
  match target.dropWhile isOfScheme with
  | ':' :: '/' :: '/' :: rest =>
    match rest.dropWhile fun c => c != '/' && c != '?' with
    | '/' :: path => '/' :: path
    | query => '/' :: query
  | _ => target

def ofText (s : String) : Target :=
  let whole := withoutHost (s.toList.takeWhile (· != '#'))
  ⟨whole.takeWhile (· != '?'), (whole.dropWhile (· != '?')).drop 1⟩

end Target

structure RouteQuery where
  round : Option String
  auth : Option String
  source : Option String
  style : Option String
deriving DecidableEq

namespace RouteQuery

def names : List String := ["round", "auth", "sourcehost", "graphstyle"]

/-- The first name that is known and was there before. -/
def firstRepeated? (seen : List String) : List String → Option String
  | [] => none
  | name :: rest =>
    if name ∈ seen then some name
    else if name ∈ names then firstRepeated? (name :: seen) rest
    else firstRepeated? seen rest

def ofPairs (pairs : List (String × String)) : Except RequestFault RouteQuery :=
  match firstRepeated? [] (pairs.map Prod.fst) with
  | some name => .error (.repeatedName name)
  | none =>
    .ok ⟨pairs.lookup "round", pairs.lookup "auth", pairs.lookup "sourcehost",
      pairs.lookup "graphstyle"⟩

/-- The request that the parameters make; the round is looked at before the style. -/
def toRequest (q : RouteQuery) : Except RequestFault RouteRequest :=
  match q.round with
  | none => .error .missingRound
  | some text =>
    match Text.Numeral.uint64? (Text.Blank.trim text) with
    | none => .error (.badRound text)
    | some round =>
      match Style.parse (q.style.getD "") with
      | .error cause => .error (.badStyle cause)
      | .ok style =>
        .ok
          { round := round
            auth := q.auth.filter (· != "")
            source := q.source.bind SourceHost.parse?
            style := style }

end RouteQuery
end VoteTrace
