import VoteTrace.Chart.Drawing
import VoteTrace.Wire.Mesh

namespace VoteTrace

open Json

namespace Style

def toJson (style : Style) : Value := .str style.name

/-- A style is its name, or an object whose one member has that name and is null. -/
def ofJson? : Value → Option Style
  | .str name => ofName? name
  | .obj [(some name, .null)] => ofName? name
  | _ => none

end Style

namespace TreeRow

def fieldNames : List String :=
  ["id", "parent", "name", "relay", "level", "tooltip", "seen"]

def toJson (row : TreeRow) : Value :=
  .record
    [("id", .str row.id),
     ("parent", .ofOption .str row.parent),
     ("name", .str row.name),
     ("relay", .ofOption .str row.relay),
     ("level", .nat row.level.toNat),
     ("tooltip", .str row.tooltip),
     ("seen", .bool row.seen)]

def ofJson? (v : Value) : Option TreeRow := do
  let f ← Fields.ofValue? fieldNames false v
  let id ← f.required "id" Value.toText?
  let parent ← f.optional "parent" Value.toText?
  let name ← f.required "name" Value.toText?
  let relay ← f.optional "relay" Value.toText?
  let level ← f.required "level" Value.toUInt32?
  let tooltip ← f.required "tooltip" Value.toText?
  let seen ← f.required "seen" Value.toBool?
  return ⟨id, parent, name, relay, level, tooltip, seen⟩

end TreeRow

namespace FlowLink

def fieldNames : List String :=
  ["from", "to", "weight", "from_relay", "to_relay"]

def toJson (link : FlowLink) : Value :=
  .record
    [("from", .str link.source),
     ("to", .str link.target),
     ("weight", .nat link.weight.toNat),
     ("from_relay", .ofOption .str link.sourceRelay),
     ("to_relay", .ofOption .str link.targetRelay)]

def ofJson? (v : Value) : Option FlowLink := do
  let f ← Fields.ofValue? fieldNames false v
  let source ← f.required "from" Value.toText?
  let target ← f.required "to" Value.toText?
  let weight ← f.required "weight" Value.toUInt32?
  let sourceRelay ← f.optional "from_relay" Value.toText?
  let targetRelay ← f.optional "to_relay" Value.toText?
  return ⟨source, target, weight, sourceRelay, targetRelay⟩

end FlowLink

namespace Marker

def fieldNames : List String := ["point", "hop", "name"]

def toJson (m : Marker) : Value :=
  .record [("point", m.point.toJson), ("hop", .nat m.level.toNat), ("name", .str m.name)]

def ofJson? (v : Value) : Option Marker := do
  let f ← Fields.ofValue? fieldNames false v
  let point ← f.required "point" GeoPoint.ofJson?
  let level ← f.required "hop" Value.toUInt32?
  let name ← f.required "name" Value.toText?
  return ⟨point, level, name⟩

end Marker

namespace Segment

def fieldNames : List String := ["from", "to", "order"]

def toJson (s : Segment) : Value :=
  .record
    [("from", s.source.toJson), ("to", s.target.toJson), ("order", .nat s.order.toNat)]

def ofJson? (v : Value) : Option Segment := do
  let f ← Fields.ofValue? fieldNames false v
  let source ← f.required "from" GeoPoint.ofJson?
  let target ← f.required "to" GeoPoint.ofJson?
  let order ← f.required "order" Value.toUInt32?
  return ⟨source, target, order⟩

end Segment

namespace MapView

def fieldNames : List String := ["center", "markers", "segments"]

def toJson (view : MapView) : Value :=
  .record
    [("center", .ofOption GeoPoint.toJson view.center),
     ("markers", .ofList Marker.toJson view.markers),
     ("segments", .ofList Segment.toJson view.segments)]

def ofJson? (v : Value) : Option MapView := do
  let f ← Fields.ofValue? fieldNames false v
  let center ← f.optional "center" GeoPoint.ofJson?
  let markers ← f.required "markers" (Value.toList? Marker.ofJson?)
  let segments ← f.required "segments" (Value.toList? Segment.ofJson?)
  return ⟨center, markers, segments⟩

end MapView

namespace Drawing

def fieldNames : List String := ["style", "data"]

def dataJson : Drawing → Value
  | tree rows => .ofList TreeRow.toJson rows
  | flow links => .ofList FlowLink.toJson links
  | geo view => view.toJson

def toJson (d : Drawing) : Value :=
  .record [("style", d.style.toJson), ("data", d.dataJson)]

def ofData? (data : Value) : Style → Option Drawing
  | .tree => (data.toList? TreeRow.ofJson?).map tree
  | .flow => (data.toList? FlowLink.ofJson?).map flow
  | .geo => (MapView.ofJson? data).map geo

/-- How the style of a drawing is told: in an array by its name only. -/
def styleOf? (v : Value) : Value → Option Style :=
  match v with
  | .arr _ => fun tag => tag.toText?.bind Style.ofName?
  | _ => Style.ofJson?

/-- Data in front of the style has to be kept until the style is known. -/
def ofJson? (v : Value) : Option Drawing := do
  let f ← Fields.ofValue? fieldNames false v
  let style ← f.required "style" (styleOf? v)
  let data ← f.lookup "data"
  guard ((f.head?.map Prod.fst) = some "style" ∨ data.canKeep 1)
  ofData? data style

end Drawing
end VoteTrace
