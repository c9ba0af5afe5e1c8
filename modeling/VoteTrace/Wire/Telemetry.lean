import VoteTrace.Fault
import VoteTrace.Json.Reader
import VoteTrace.Telemetry.Collection
import VoteTrace.Wire.Mesh

namespace VoteTrace

open Json

namespace TimeWindow

def fieldNames : List String := ["start", "end"]

def toJson (w : TimeWindow) : Value :=
  .record [("start", .nat w.start.toNat), ("end", .nat w.stop.toNat)]

def ofJson? (v : Value) : Option TimeWindow := do
  let f ← Fields.ofValue? fieldNames false v
  let start ← f.required "start" Value.toUInt64?
  let stop ← f.required "end" Value.toUInt64?
  return ⟨start, stop⟩

end TimeWindow

namespace Vote

def fieldNames : List String :=
  ["sender_telemetry_id", "timestamp", "sender", "round", "period", "step", "weight",
   "lat", "long"]

def toJson (v : Vote) : Value :=
  .record
    [("sender_telemetry_id", .str v.node),
     ("timestamp", .nat v.timestamp.toNat),
     ("sender", .str v.sender),
     ("round", .nat v.round.toNat),
     ("period", .nat v.period.toNat),
     ("step", .nat v.step.toNat),
     ("weight", .nat v.weight.toNat),
     ("lat", .ofOption .ofFloat v.lat),
     ("long", .ofOption .ofFloat v.long)]

def ofJson? (v : Value) : Option Vote := do
  let f ← Fields.ofValue? fieldNames true v
  let node ← f.orElse "sender_telemetry_id" Value.toText? ""
  let timestamp ← f.orElse "timestamp" Value.toUInt64? 0
  let sender ← f.orElse "sender" Value.toText? ""
  let round ← f.orElse "round" Value.toUInt64? 0
  let period ← f.orElse "period" Value.toUInt64? 0
  let step ← f.orElse "step" Value.toUInt64? 0
  let weight ← f.orElse "weight" Value.toUInt64? 0
  let lat ← f.optional "lat" Value.toFloat?
  let long ← f.optional "long" Value.toFloat?
  return ⟨node, timestamp, sender, round, period, step, weight, lat, long⟩

end Vote

namespace DatedConnection

def fieldNames : List String := "timestamp" :: Connection.fieldNames

def toJson (c : DatedConnection) : Value :=
  .record (("timestamp", .nat c.timestamp.toNat) :: c.row.toFields)

/-- All members of a dated row but its timestamp have to be kept until all are there. -/
def canKeep (around : Nat) (member : Option String × Value) : Bool :=
  member.1 == some "timestamp" || member.2.canKeep around

/-- A dated row is one flat object. `around` counts the values that its members lie in. -/
def ofJson? (around : Nat) : Value → Option DatedConnection
  | .obj members => do
    guard (members.all (canKeep around))
    let f ← Fields.ofMembers? fieldNames members
    let timestamp ← f.orElse "timestamp" Value.toUInt64? 0
    let row ← Connection.ofFields? f
    return ⟨timestamp, row⟩
  | _ => none

end DatedConnection

namespace Sighting

def fieldNames : List String := ["relay", "round", "auth"]

def toJson (s : Sighting) : Value :=
  .record [("relay", .str s.relay), ("round", .nat s.round.toNat), ("auth", .str s.auth)]

def ofJson? (v : Value) : Option Sighting := do
  let f ← Fields.ofValue? fieldNames false v
  let relay ← f.required "relay" Value.toText?
  let round ← f.required "round" Value.toUInt64?
  let auth ← f.required "auth" Value.toText?
  return ⟨relay, round, auth⟩

end Sighting

namespace RoundRow

def fieldNames : List String := ["round", "relay_count", "auth_count", "period", "step"]

def toJson (r : RoundRow) : Value :=
  .record
    [("round", .nat r.round.toNat),
     ("relay_count", .nat r.relayCount),
     ("auth_count", .nat r.authCount),
     ("period", .nat r.period.toNat),
     ("step", .nat r.step.toNat)]

def ofJson? (v : Value) : Option RoundRow := do
  let f ← Fields.ofValue? fieldNames true v
  let round ← f.orElse "round" Value.toUInt64? 0
  let relayCount ← f.orElse "relay_count" Value.toCount? 0
  let authCount ← f.orElse "auth_count" Value.toCount? 0
  let period ← f.orElse "period" Value.toUInt64? 0
  let step ← f.orElse "step" Value.toUInt64? 0
  return ⟨round, relayCount, authCount, period, step⟩

end RoundRow

def RowCounts.toJson (c : RowCounts) : Value :=
  .record
    [("votes", .nat c.votes),
     ("connections", .nat c.connections),
     ("relay_connections", .nat c.relayConnections),
     ("sightings", .nat c.sightings),
     ("rounds", .nat c.rounds)]

namespace Telemetry

def fieldNames : List String :=
  ["votes", "connections", "relay_connections", "authenticators", "rounds"]

def toJson (t : Telemetry) : Value :=
  .record
    [("votes", .ofList Vote.toJson t.votes),
     ("connections", .ofList DatedConnection.toJson t.connections),
     ("relay_connections", .ofList DatedConnection.toJson t.relayConnections),
     ("authenticators", .ofList Sighting.toJson t.sightings),
     ("rounds", .ofList RoundRow.toJson t.rounds)]

/-- Around a member of a row lie the row, its list and the document. -/
def rowDepth : Nat := 3

def ofJson? (v : Value) : Option Telemetry := do
  let f ← Fields.ofValue? fieldNames true v
  let votes ← f.orElse "votes" (Value.toList? Vote.ofJson?) []
  let connections ←
    f.orElse "connections" (Value.toList? (DatedConnection.ofJson? rowDepth)) []
  let relayConnections ←
    f.orElse "relay_connections" (Value.toList? (DatedConnection.ofJson? rowDepth)) []
  let sightings ← f.orElse "authenticators" (Value.toList? Sighting.ofJson?) []
  let rounds ← f.orElse "rounds" (Value.toList? RoundRow.ofJson?) []
  return ⟨votes, connections, relayConnections, sightings, rounds⟩

def ofText (s : String) : Except QueryFault Telemetry :=
  match (read? s).bind ofJson? with
  | some t => .ok t
  | none => .error .unreadable

end Telemetry
end VoteTrace
