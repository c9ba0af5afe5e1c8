namespace VoteTrace

structure GeoPoint where
  lat : Float
  long : Float
deriving DecidableEq

namespace GeoPoint

/-- The widest longitude on the map, east or west. -/
def longitudeBound : Float := 90

def ofParts (lat long : Option Float) : Option GeoPoint := do
  let lat ← lat
  let long ← long
  return ⟨lat, long⟩

def isPlottable (p : GeoPoint) : Bool :=
  p.lat.isFinite && p.long.isFinite && p.long.abs ≤ longitudeBound

end GeoPoint
end VoteTrace
