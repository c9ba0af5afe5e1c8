import VoteTrace.Mesh.Connection

namespace VoteTrace

structure Origin where
  guid : String
  name : String
  relay : Option String
  point : Option GeoPoint
  timestamp : Option UInt64
  links : List Connection
deriving DecidableEq

namespace Origin

/-- The one link of a node that is known to exist and not to whom it talks. -/
def stubLink (guid name : String) : Connection :=
  ⟨⟨guid, name, none, none, none⟩, Endpoint.unknown⟩

def stub (guid name : String) : Origin :=
  ⟨guid, name, none, none, none, [stubLink guid name]⟩

def withLinks (guid : String) (links : List Connection) : Origin :=
  ⟨guid, guid, none, none, none, links⟩

/-- The links over which the vote can have left. -/
def seeds (o : Origin) : List Connection :=
  o.links.filter Connection.hasPeer

end Origin
end VoteTrace
