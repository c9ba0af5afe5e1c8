import VoteTrace.Telemetry.Route
import VoteTrace.Wire.Chart
import VoteTrace.Wire.Spread
import VoteTrace.Wire.Telemetry

namespace VoteTrace

open Json

def Route.toJson (r : Route) : Value :=
  .record
    [("round", .nat r.round.toNat),
     ("auth", .ofOption .str r.auth),
     ("source_host", .ofOption .str r.source),
     ("window", r.window.toJson),
     ("vote_timestamp", .nat r.voteTimestamp.toNat),
     ("style", r.style.toJson),
     ("projection", r.drawing.toJson),
     ("stats", r.tally.toJson)]

end VoteTrace
