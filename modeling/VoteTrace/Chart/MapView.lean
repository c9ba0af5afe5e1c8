import VoteTrace.Spread.Placement

namespace VoteTrace

structure Marker where
  point : GeoPoint
  level : UInt32
  name : String
deriving DecidableEq

structure Segment where
  source : GeoPoint
  target : GeoPoint
  order : UInt32
deriving DecidableEq

/-- A spread on a map: markers at the placements, and lines along the hops.

The map thins out on its own: of all placements with the same longitude, bit for bit, only
the first is drawn. -/
structure MapView where
  center : Option GeoPoint
  markers : List Marker
  segments : List Segment
deriving DecidableEq

namespace MapView

def plottable (point : Option GeoPoint) : Option GeoPoint :=
  point.filter GeoPoint.isPlottable

def marker (entry : Placement × GeoPoint) : Marker :=
  ⟨entry.2, entry.1.level, entry.1.name⟩

/-- A map while it is drawn, with the longitudes that are taken and the number of the next
segment. -/
structure Sketch where
  view : MapView
  used : List UInt64
  order : UInt32

namespace Sketch

def blank : Sketch := ⟨⟨none, [], []⟩, [], 2⟩

/-- There is no hop to the origin: the map is centred on it, on the last one if several
placements have no parent. -/
def connect (k : Sketch) (p : Placement) (point : GeoPoint) : Sketch :=
  if p.isRoot then { k with view := { k.view with center := some point } }
  else
    match plottable p.parentPoint with
    | none => k
    | some source =>
      { k with
        view := { k.view with segments := k.view.segments ++ [⟨source, point, k.order⟩] }
        order := k.order + 1 }

def mark (k : Sketch) (p : Placement) (point : GeoPoint) : Sketch :=
  { k with
    view := { k.view with markers := k.view.markers ++ [marker (p, point)] }
    used := point.long.toBits :: k.used }

def add (k : Sketch) (p : Placement) : Sketch :=
  match plottable p.point with
  | none => k
  | some point =>
    if point.long.toBits ∈ k.used then k else (k.connect p point).mark p point

end Sketch

def ofSpread (s : Spread) : MapView :=
  (s.placements.foldl Sketch.add .blank).view

end MapView
end VoteTrace
