import VoteTrace.Dashboard.Service
import VoteTrace.Proofs.Route.FirstVote
import VoteTrace.Proofs.Route.Queries
import VoteTrace.Proofs.Spread.Blocks

namespace VoteTrace

open Json

namespace RouteRequest

/-- The vote is one that a route can start from: of the sender too where host and authenticator
are both given. -/
structure Admits (r : RouteRequest) (v : Vote) : Prop where
  round_eq : v.round = r.round
  step_eq : v.step = 2
  sender_eq : ∀ host ∈ r.source, ∀ auth ∈ r.auth, v.sender = auth

def missing (r : RouteRequest) : QueryFault :=
  match r.source, r.auth with
  | some _, some auth => .noVoteFrom r.round auth
  | _, _ => .noVote r.round

/-- What is told where there is no vote for the request. -/
def reason (r : RouteRequest) : String :=
  "no vote found for round " ++ toString r.round.toNat ++
    match r.source, r.auth with
    | some _, some auth => " from " ++ auth
    | _, _ => ""

variable {r : RouteRequest}

end RouteRequest

namespace Telemetry

end Telemetry

namespace Route

variable {t : Telemetry} {r : RouteRequest}

end Route

namespace Dashboard

/-- The response tells the route, or why there is none. -/
structure Tells (t : Telemetry) (r : RouteRequest) (response : Response) : Prop where
  of_admits : (∃ v ∈ t.votes, r.Admits v) → ∃ route, Route.resolve t r = .ok route ∧
    response = .ok (.record [("status", .str "ok"), ("route", route.toJson)])
  of_not_admits : (¬∃ v ∈ t.votes, r.Admits v) → r.missing.message = r.reason ∧
    response = .ok (.record [("status", .str "no_data"), ("reason", .str r.reason)])

variable {t : Telemetry} {q : RouteQuery} {r : RouteRequest}

end Dashboard
end VoteTrace
