import VoteTrace.Mesh.GeoPoint

/-!
Rows of connection telemetry: two endpoints that were linked at some time.

A row is observed from its source side. The link it reports has no direction: the same link
may be reported from both sides, or from one side without its peer.
-/

namespace VoteTrace

structure Endpoint where
  guid : String
  name : String
  relay : Option String
  lat : Option Float
  long : Option Float
deriving DecidableEq

namespace Endpoint

/-- A node of which only the identifier is known; it serves as the name too. -/
def ofGuid (guid : String) : Endpoint :=
  ⟨guid, guid, none, none, none⟩

def unknown : Endpoint := ofGuid ""

def point (e : Endpoint) : Option GeoPoint :=
  GeoPoint.ofParts e.lat e.long

end Endpoint

structure Connection where
  source : Endpoint
  peer : Endpoint
deriving DecidableEq

namespace Connection

/-- A link between two nodes of which only the identifiers are known. -/
def between (source peer : String) : Connection :=
  ⟨Endpoint.ofGuid source, Endpoint.ofGuid peer⟩

/-- A peer without identifier is no peer. -/
def hasPeer (row : Connection) : Bool :=
  row.peer.guid != ""

def touches (row : Connection) (guid : String) : Bool :=
  row.source.guid == guid || row.peer.guid == guid

end Connection
end VoteTrace
