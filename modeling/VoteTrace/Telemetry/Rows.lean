import VoteTrace.Mesh.Connection
import VoteTrace.Telemetry.TimeWindow

namespace VoteTrace

structure Vote where
  /-- The node that sent the vote, as its telemetry names it. -/
  node : String
  timestamp : UInt64
  sender : String
  round : UInt64
  period : UInt64
  step : UInt64
  weight : UInt64
  lat : Option Float
  long : Option Float
deriving DecidableEq

namespace Vote

/-- The step whose votes make up a certificate. -/
def certificateStep : UInt64 := 2

def lookback : UInt64 := 60 * 60

def point (v : Vote) : Option GeoPoint :=
  GeoPoint.ofParts v.lat v.long

def window (v : Vote) : TimeWindow :=
  TimeWindow.endingAt v.timestamp lookback

end Vote

structure DatedConnection where
  timestamp : UInt64
  row : Connection
deriving DecidableEq

/-- The certificate of a relay for a round listed an authenticator. -/
structure Sighting where
  relay : String
  round : UInt64
  auth : String
deriving DecidableEq

structure RoundRow where
  round : UInt64
  relayCount : Nat
  authCount : Nat
  period : UInt64
  step : UInt64
deriving DecidableEq

end VoteTrace
