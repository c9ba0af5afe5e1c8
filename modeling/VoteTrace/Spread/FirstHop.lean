import VoteTrace.Mesh.Connection

/-!
The relays on both sides of a first hop, as far as the rows tell.

The link that the origin reports is not asked. The first row that shares a node with the hop
decides, and it gives the relay of one side only: that of the peer before that of the origin,
and a node's relay as seen by others before its own account.
-/

namespace VoteTrace

structure HopRelays where
  relay : Option String
  peerRelay : Option String
deriving DecidableEq

namespace HopRelays

def unknown : HopRelays := ⟨none, none⟩

/-- What one row tells of a hop; nothing if the row has neither node on it. A node without
identifier is on no row. -/
def ofRow? (guid peer : String) (row : Connection) : Option HopRelays :=
  if peer ≠ "" ∧ row.peer.guid = peer then some ⟨none, row.peer.relay⟩
  else if peer ≠ "" ∧ row.source.guid = peer then some ⟨none, row.source.relay⟩
  else if guid ≠ "" ∧ row.peer.guid = guid then some ⟨row.peer.relay, none⟩
  else if guid ≠ "" ∧ row.source.guid = guid then some ⟨row.source.relay, none⟩
  else none

def ofRows (rows : List Connection) (guid peer : String) : HopRelays :=
  (rows.findSome? (ofRow? guid peer)).getD unknown

end HopRelays
end VoteTrace
