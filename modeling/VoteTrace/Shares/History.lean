import VoteTrace.Shares.Round

namespace VoteTrace

/-- The shares of an authenticator in the rounds in which it was sighted, newest first. -/
structure History where
  auth : String
  shares : List Share
deriving DecidableEq

namespace History

def limit : Nat := 256

/-- The mean of the shares, added up from the newest; 0 if there are none. -/
def mean {α : Type} [Add α] [Div α] (ofNat : Nat → α) (h : History) : α :=
  if h.shares.isEmpty then ofNat 0
  else
    (h.shares.map (Share.quotient ofNat)).foldl (· + ·) (ofNat 0) / ofNat h.shares.length

def average (h : History) : Float := h.mean Float.ofNat

end History

namespace Telemetry

def shareOf? (t : Telemetry) (auth : String) (round : UInt64) : Option Share :=
  (t.authenticators round).find? fun s => s.auth == auth

def history (t : Telemetry) (auth : String) : History :=
  ⟨auth, (t.sightedRounds.reverse.filterMap (t.shareOf? auth)).take History.limit⟩

end Telemetry
end VoteTrace
