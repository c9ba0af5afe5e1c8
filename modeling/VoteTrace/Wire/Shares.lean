import VoteTrace.Json.Value
import VoteTrace.Shares.History

namespace VoteTrace

open Json

def Share.toJson (s : Share) : Value :=
  .record
    [("round", .nat s.round.toNat), ("auth", .str s.auth), ("dist", .ofFloat s.toFloat)]

def RelayLoad.toJson (load : RelayLoad) : Value :=
  .record
    [("round", .nat load.round.toNat),
     ("relay", .str load.relay),
     ("auth_count", .nat load.authCount)]

def Matrix.toJson (m : Matrix) : Value :=
  .record
    [("round", .nat m.round.toNat),
     ("relays", .ofList .str m.relays),
     ("auths", .ofList .str m.auths),
     ("pairs", .ofList (fun pair => .arr [.str pair.1, .str pair.2]) m.pairs)]

def History.toJson (h : History) : Value :=
  .record
    [("auth", .str h.auth),
     ("rounds", .ofList Share.toJson h.shares),
     ("average", .ofFloat h.average)]

end VoteTrace
