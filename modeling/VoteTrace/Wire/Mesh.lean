import VoteTrace.Json.Fields
import VoteTrace.Mesh.Origin

namespace VoteTrace

open Json

namespace GeoPoint

def fieldNames : List String := ["lat", "long"]

def toJson (p : GeoPoint) : Value :=
  .record [("lat", .ofFloat p.lat), ("long", .ofFloat p.long)]

def ofJson? (v : Value) : Option GeoPoint := do
  let f ← Fields.ofValue? fieldNames false v
  let lat ← f.required "lat" Value.toFloat?
  let long ← f.required "long" Value.toFloat?
  return ⟨lat, long⟩

end GeoPoint

namespace Connection

def fieldNames : List String :=
  ["guid", "name", "other_guid", "other_name", "relay", "other_relay",
   "lat", "long", "other_lat", "other_long"]

def toFields (row : Connection) : Fields :=
  [("guid", .str row.source.guid),
   ("name", .str row.source.name),
   ("other_guid", .str row.peer.guid),
   ("other_name", .str row.peer.name),
   ("relay", .ofOption .str row.source.relay),
   ("other_relay", .ofOption .str row.peer.relay),
   ("lat", .ofOption .ofFloat row.source.lat),
   ("long", .ofOption .ofFloat row.source.long),
   ("other_lat", .ofOption .ofFloat row.peer.lat),
   ("other_long", .ofOption .ofFloat row.peer.long)]

def toJson (row : Connection) : Value := .record row.toFields

def ofFields? (f : Fields) : Option Connection := do
  let guid ← f.orElse "guid" Value.toText? ""
  let name ← f.orElse "name" Value.toText? ""
  let peerGuid ← f.orElse "other_guid" Value.toText? ""
  let peerName ← f.orElse "other_name" Value.toText? ""
  let relay ← f.optional "relay" Value.toText?
  let peerRelay ← f.optional "other_relay" Value.toText?
  let lat ← f.optional "lat" Value.toFloat?
  let long ← f.optional "long" Value.toFloat?
  let peerLat ← f.optional "other_lat" Value.toFloat?
  let peerLong ← f.optional "other_long" Value.toFloat?
  return {
    source := ⟨guid, name, relay, lat, long⟩
    peer := ⟨peerGuid, peerName, peerRelay, peerLat, peerLong⟩ }

def ofJson? (v : Value) : Option Connection :=
  (Fields.ofValue? fieldNames true v).bind ofFields?

end Connection

namespace Origin

def fieldNames : List String :=
  ["guid", "name", "relay", "coordinates", "timestamp", "links"]

def toJson (o : Origin) : Value :=
  .record
    [("guid", .str o.guid),
     ("name", .str o.name),
     ("relay", .ofOption .str o.relay),
     ("coordinates", .ofOption GeoPoint.toJson o.point),
     ("timestamp", .ofOption (fun t => .nat t.toNat) o.timestamp),
     ("links", .ofList Connection.toJson o.links)]

def ofJson? (v : Value) : Option Origin := do
  let f ← Fields.ofValue? fieldNames true v
  let guid ← f.orElse "guid" Value.toText? ""
  let name ← f.orElse "name" Value.toText? ""
  let relay ← f.optional "relay" Value.toText?
  let point ← f.optional "coordinates" GeoPoint.ofJson?
  let timestamp ← f.optional "timestamp" Value.toUInt64?
  let links ← f.orElse "links" (Value.toList? Connection.ofJson?) []
  return ⟨guid, name, relay, point, timestamp, links⟩

end Origin
end VoteTrace
