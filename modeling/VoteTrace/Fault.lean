import VoteTrace.Text.Quoted

namespace VoteTrace

inductive TraceFault where
  | invalidInput (reason : String)
  | unknownStyle (text : String)
deriving DecidableEq

inductive QueryFault where
  | noVote (round : UInt64)
  | noVoteFrom (round : UInt64) (sender : String)
  | trace (cause : TraceFault)
  | invalidInput (reason : String)
  /-- The telemetry document is no such document. -/
  | unreadable
  /-- The telemetry document could not be fetched. -/
  | unavailable
deriving DecidableEq

inductive StartFault where
  | badSetting (reason : String)
  | telemetry (cause : QueryFault)
deriving DecidableEq

inductive RequestFault where
  | repeatedName (name : String)
  | missingRound
  /-- The round in a query is no number. -/
  | badRound (text : String)
  | badStyle (cause : TraceFault)
  /-- A parameter in a path is no text. -/
  | notUtf8 (parameter : String)
  /-- The round in a path is no number. -/
  | notNumber (text : String)
deriving DecidableEq

def TraceFault.message : TraceFault → String
  | invalidInput reason => "invalid input: " ++ reason
  | unknownStyle text => "unknown graph style: " ++ Text.Quoted.quote text

def QueryFault.message : QueryFault → String
  | noVote round => "no vote found for round " ++ toString round.toNat
  | noVoteFrom round sender =>
      "no vote found for round " ++ toString round.toNat ++ " from " ++ sender
  | trace cause => "route error: " ++ cause.message
  | invalidInput reason => "Invalid input: " ++ reason
  | unreadable => "Serialization error"
  | unavailable => "IO error"

def StartFault.message : StartFault → String
  | badSetting reason => "Config error: " ++ reason
  | telemetry cause => "Telemetry error: " ++ cause.message

def RequestFault.message : RequestFault → String
  | repeatedName name =>
      "Failed to deserialize query string: duplicate field `" ++ name ++ "`"
  | missingRound => "missing round"
  | badRound text => "invalid round: " ++ text
  | badStyle cause => cause.message
  | notUtf8 parameter => "Invalid URL: Invalid UTF-8 in `" ++ parameter ++ "`"
  | notNumber text => "Invalid URL: Cannot parse `" ++ text ++ "` to a `u64`"

/-- Whether there is just nothing to show. The other faults mean that something broke. -/
def QueryFault.isNoData : QueryFault → Bool
  | noVote _ => true
  | noVoteFrom _ _ => true
  | trace (.invalidInput _) => true
  | _ => false

end VoteTrace
