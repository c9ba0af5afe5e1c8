import VoteTrace.Fault
import VoteTrace.Telemetry.Collection
import VoteTrace.Text.Blank

namespace VoteTrace

structure SourceHost where
  /-- The text as it was given, without blanks around. -/
  raw : String
  /-- All in front of the first colon. -/
  guid : String
  /-- All behind it. -/
  relay : Option String
deriving DecidableEq

namespace SourceHost

instance : ToString SourceHost := ⟨raw⟩

/-- Any text is read; a relay is there only if something stands behind the colon. -/
def ofTrimmed (raw : String) : SourceHost :=
  let cs := raw.toList
  let behind := (cs.dropWhile (· != ':')).drop 1
  { raw := raw
    guid := String.ofList (cs.takeWhile (· != ':'))
    relay := if behind.isEmpty then none else some (String.ofList behind) }

def parse (s : String) : SourceHost :=
  ofTrimmed (Text.Blank.trim s)

def parse? (s : String) : Option SourceHost :=
  if (parse s).raw = "" then none else some (parse s)

def ofText (s : String) : Except QueryFault SourceHost :=
  if Text.Blank.trim s = "" then .error (.invalidInput "empty source host")
  else .ok (parse s)

/-- How the host's own rows are found: by its guid, and if that is empty, by all of the
text. -/
def key (host : SourceHost) : NodeKey :=
  if host.guid = "" then .name host.raw else .guid host.guid

end SourceHost
end VoteTrace
