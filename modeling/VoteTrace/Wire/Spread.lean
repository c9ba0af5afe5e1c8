import VoteTrace.Spread.Placement
import VoteTrace.Wire.Mesh

namespace VoteTrace

open Json

namespace Placement

def fieldNames : List String :=
  ["level", "parent_guid", "node_guid", "node_name", "relay_name", "parent_relay",
   "coordinates", "parent_coordinates", "seen"]

def toJson (p : Placement) : Value :=
  .record
    [("level", .nat p.level.toNat),
     ("parent_guid", .ofOption .str p.parent),
     ("node_guid", .str p.node),
     ("node_name", .str p.name),
     ("relay_name", .ofOption .str p.relay),
     ("parent_relay", .ofOption .str p.parentRelay),
     ("coordinates", .ofOption GeoPoint.toJson p.point),
     ("parent_coordinates", .ofOption GeoPoint.toJson p.parentPoint),
     ("seen", .bool p.seen)]

def ofJson? (v : Value) : Option Placement := do
  let f ← Fields.ofValue? fieldNames false v
  let level ← f.required "level" Value.toUInt32?
  let parent ← f.optional "parent_guid" Value.toText?
  let node ← f.required "node_guid" Value.toText?
  let name ← f.required "node_name" Value.toText?
  let relay ← f.optional "relay_name" Value.toText?
  let parentRelay ← f.optional "parent_relay" Value.toText?
  let point ← f.optional "coordinates" GeoPoint.ofJson?
  let parentPoint ← f.optional "parent_coordinates" GeoPoint.ofJson?
  let seen ← f.required "seen" Value.toBool?
  return ⟨level, parent, node, name, relay, parentRelay, point, parentPoint, seen⟩

end Placement

namespace Tally

def fieldNames : List String :=
  ["pool_size", "dequeues", "consumed", "unresolved", "rings"]

def toJson (t : Tally) : Value :=
  .record
    [("pool_size", .nat t.poolSize),
     ("dequeues", .nat t.hops),
     ("consumed", .nat t.spent),
     ("unresolved", .nat t.unresolved),
     ("rings", .nat t.rings.toNat)]

def ofJson? (v : Value) : Option Tally := do
  let f ← Fields.ofValue? fieldNames false v
  let poolSize ← f.required "pool_size" Value.toCount?
  let hops ← f.required "dequeues" Value.toCount?
  let spent ← f.required "consumed" Value.toCount?
  let unresolved ← f.required "unresolved" Value.toCount?
  let rings ← f.required "rings" Value.toUInt32?
  return ⟨poolSize, hops, spent, unresolved, rings⟩

end Tally

namespace Spread

def fieldNames : List String := ["records", "stats"]

def toJson (s : Spread) : Value :=
  .record
    [("records", .ofList Placement.toJson s.placements),
     ("stats", s.tally.toJson)]

def ofJson? (v : Value) : Option Spread := do
  let f ← Fields.ofValue? fieldNames false v
  let placements ← f.required "records" (Value.toList? Placement.ofJson?)
  let tally ← f.required "stats" Tally.ofJson?
  return ⟨placements, tally⟩

end Spread
end VoteTrace
