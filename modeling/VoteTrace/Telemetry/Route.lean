import VoteTrace.Chart.Drawing
import VoteTrace.Spread.Walk
import VoteTrace.Telemetry.SourceHost

namespace VoteTrace

structure RouteRequest where
  round : UInt64
  auth : Option String
  source : Option SourceHost
  style : Style
deriving DecidableEq

namespace RouteRequest

def ofRound (round : UInt64) : RouteRequest :=
  ⟨round, none, none, .standard⟩

def withAuth (r : RouteRequest) (auth : String) : RouteRequest :=
  { r with auth := if auth = "" then none else some auth }

def withSource (r : RouteRequest) (text : String) : RouteRequest :=
  { r with source := SourceHost.parse? text }

def withStyle (r : RouteRequest) (style : Style) : RouteRequest :=
  { r with style := style }

/-- Only where the host is known does the vote have to be the authenticator's own. -/
def sender (r : RouteRequest) : Option String :=
  if r.source.isSome then r.auth else none

end RouteRequest

structure Route where
  round : UInt64
  auth : Option String
  source : Option String
  window : TimeWindow
  voteTimestamp : UInt64
  style : Style
  drawing : Drawing
  tally : Tally
deriving DecidableEq

namespace Route

def voteFor (t : Telemetry) (r : RouteRequest) : Except QueryFault Vote :=
  match t.firstVote? r.round r.sender, r.sender with
  | some v, _ => .ok v
  | none, some sender => .error (.noVoteFrom r.round sender)
  | none, none => .error (.noVote r.round)

/-- The host has the name that its first row gives it; where that is empty, it is called what
the request calls it. -/
def hostName (host : SourceHost) (links : List Connection) : String :=
  match (links.head?.map fun link => link.source.name).filter (· != "") with
  | some name => name
  | none => host.raw

def hostLinks (t : Telemetry) (w : TimeWindow) (host : SourceHost) : List Connection :=
  match t.voterRows w host.key with
  | [] => [Origin.stubLink host.guid host.raw]
  | links => links

/-- Where the vote set out: the host of the request with its rows, or if there is none, the
node that reported the vote, with no rows. -/
def origin (t : Telemetry) (v : Vote) (host : Option SourceHost) : Origin :=
  match host with
  | none => ⟨v.node, v.node, none, v.point, some v.timestamp, []⟩
  | some host =>
    let links := hostLinks t v.window host
    ⟨host.guid, hostName host links, host.relay, v.point, some v.timestamp, links⟩

def spread (t : Telemetry) (r : RouteRequest) (v : Vote) : Except QueryFault Spread :=
  match Spread.trace (t.relayRows v.window) (some (origin t v r.source))
      (t.reportedRelays r.round r.auth) with
  | .ok s => .ok s
  | .error cause => .error (.trace cause)

def resolve (t : Telemetry) (r : RouteRequest) : Except QueryFault Route := do
  let v ← voteFor t r
  let s ← spread t r v
  return {
    round := r.round
    auth := r.auth
    source := r.source.map SourceHost.raw
    window := v.window
    voteTimestamp := v.timestamp
    style := r.style
    drawing := Drawing.ofSpread r.style s
    tally := s.tally }

end Route
end VoteTrace
