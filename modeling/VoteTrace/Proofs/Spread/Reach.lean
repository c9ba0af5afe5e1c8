import Mathlib.Data.Nat.Find
import Mathlib.Order.Bounds.Basic
import VoteTrace.Proofs.Spread.Blocks

/-!
A trace against plain reachability along the rows.

No node is lost and none is placed late, although rows are dropped. When a row is gone before
its source is walked, an earlier arrival stands on one of its sides; on the side of the source
it would be the source itself, so it stands on the side of the peer, and the peer has been
placed no deeper than the source.
-/

namespace VoteTrace

/-- A way of so many rows, each from its source to its peer. -/
inductive Trail (rows : List Connection) (start : String) : Nat → String → Prop
  | here : Trail rows start 0 start
  | onward {n : Nat} {row : Connection} : Trail rows start n row.source.guid →
      row ∈ rows → row.hasPeer = true → Trail rows start (n + 1) row.peer.guid

namespace Origin

def ReachesIn (rows : List Connection) (o : Origin) (n : Nat) (guid : String) : Prop :=
  ∃ link ∈ o.seeds, Trail rows link.peer.guid n guid

def Reaches (rows : List Connection) (o : Origin) (guid : String) : Prop :=
  ∃ n, ReachesIn rows o n guid

end Origin

namespace Spread

variable {rows : List Connection} {o : Origin}

theorem reachesIn_of_mem_walked :
    ∀ a ∈ walked rows o, ∃ n, a.level = n + 1 ∧ o.ReachesIn rows n a.node := by
  apply walked_induction
  · intro a ha
    obtain ⟨link, hlink, rfl⟩ := mem_firsts.mp ha
    exact ⟨0, rfl, link, hlink, .here⟩
  · rintro earlier b later row - hrow ⟨n, hlevel, link, hlink, htrail⟩
    obtain ⟨hmem, hsource, hpeer, -⟩ := mem_onwardRows.mp hrow
    refine ⟨n + 1, by simp [hlevel], link, hlink, ?_⟩
    rw [← hsource] at htrail
    exact htrail.onward hmem hpeer

/-- Behind a placed source every row leads to a peer that is placed, at most a level deeper. -/
theorem exists_walked_peer {a : Arrival} (ha : a ∈ walked rows o) {row : Connection}
    (hrow : row ∈ rows) (hsource : row.source.guid = a.node) (hpeer : row.hasPeer = true) :
    ∃ b ∈ walked rows o, b.node = row.peer.guid ∧ b.level ≤ a.level + 1 := by
  obtain ⟨earlier, first, later, hwalked, hfirst, hnew⟩ := exists_first_at ⟨a, ha, rfl⟩
  have hsorted := pairwise_level_walked rows o
  rw [hwalked, List.pairwise_append] at hsorted
  have hfirstLevel : first.level ≤ a.level := level_le_of_notMem_earlier hwalked ha hnew
  by_cases hspent : row.touchesAny (earlier.map Arrival.node) = true
  · rcases Connection.touchesAny_iff.mp hspent with hmem | hmem
    -- `first` is the first arrival at the source, so nothing earlier stands there.
    · exact absurd (hsource ▸ hmem) hnew
    · obtain ⟨b, hb, hbnode⟩ := List.mem_map.mp hmem
      have hbLevel : b.level ≤ first.level := hsorted.2.2 b hb first List.mem_cons_self
      exact ⟨b, by simp [hwalked, hb], hbnode, by omega⟩
  · have honward : row ∈ onwardRows rows (earlier.map Arrival.node) first.node :=
      mem_onwardRows.mpr ⟨hrow, hsource.trans hfirst.symm, hpeer, by simpa using hspent⟩
    refine ⟨first.onward row, onward_mem_walked hwalked honward, rfl, ?_⟩
    simp only [Arrival.level_onward]
    omega

theorem exists_walked_of_trail {link : Connection} (hlink : link ∈ o.seeds) {n : Nat}
    {guid : String} (h : Trail rows link.peer.guid n guid) :
    ∃ a ∈ walked rows o, a.node = guid ∧ a.level ≤ n + 1 := by
  induction h with
  | here =>
      refine ⟨⟨1, Hop.seed rows o link⟩, ?_, rfl, Nat.le_refl 1⟩
      rw [walked_eq]
      exact List.mem_append_left _ (mem_firsts.mpr ⟨link, hlink, rfl⟩)
  | onward htrail hrow hpeer ih =>
      obtain ⟨a, ha, hnode, hlevel⟩ := ih
      obtain ⟨b, hb, hbnode, hbLevel⟩ := exists_walked_peer ha hrow hnode.symm hpeer
      exact ⟨b, hb, hbnode, by omega⟩

theorem exists_walked_iff_reaches {guid : String} :
    (∃ a ∈ walked rows o, a.node = guid) ↔ o.Reaches rows guid := by
  constructor
  · rintro ⟨a, ha, rfl⟩
    obtain ⟨n, -, hreach⟩ := reachesIn_of_mem_walked a ha
    exact ⟨n, hreach⟩
  · rintro ⟨n, link, hlink, htrail⟩
    obtain ⟨a, ha, hnode, -⟩ := exists_walked_of_trail hlink htrail
    exact ⟨a, ha, hnode⟩

theorem exists_isLeast_level_walked {guid : String} (h : o.Reaches rows guid) :
    ∃ n, IsLeast {m | o.ReachesIn rows m guid} n ∧
      IsLeast {level | ∃ a ∈ walked rows o, a.node = guid ∧ a.level = level} (n + 1) := by
  classical
  have hlower : ∀ a ∈ walked rows o, a.node = guid → Nat.find h + 1 ≤ a.level := by
    rintro a ha rfl
    obtain ⟨m, hlevel, hreach⟩ := reachesIn_of_mem_walked a ha
    have := Nat.find_min' h hreach
    omega
  refine ⟨Nat.find h, ⟨Nat.find_spec h, fun m hm => Nat.find_min' h hm⟩, ?_, ?_⟩
  · obtain ⟨link, hlink, htrail⟩ := Nat.find_spec h
    obtain ⟨a, ha, hnode, hlevel⟩ := exists_walked_of_trail hlink htrail
    exact ⟨a, ha, hnode, Nat.le_antisymm hlevel (hlower a ha hnode)⟩
  · rintro level ⟨a, ha, hnode, rfl⟩
    exact hlower a ha hnode

/-- The nodes placed off the root are those in reach of the origin's links; each is first
placed at its distance from them, and the rows spent are those with a side in reach. -/
theorem reach_and_distance (rows : List Connection) (o : Origin) (seen : RelaySet)
    (hrows : rows.length < UInt32.size - 1) :
    ∃ s, trace rows (some o) seen = .ok s ∧
      (∀ guid, (∃ p ∈ s.arrivals, p.node = guid) ↔ o.Reaches rows guid) ∧
      (∀ guid, o.Reaches rows guid → ∃ n, IsLeast {m | o.ReachesIn rows m guid} n ∧
        IsLeast {level | ∃ p ∈ s.arrivals, p.node = guid ∧ p.level.toNat = level} (n + 1)) ∧
      open Classical in
      s.tally.spent = rows.countP fun row =>
        decide (o.Reaches rows row.source.guid ∨ o.Reaches rows row.peer.guid) := by
  refine ⟨ofOrigin rows o seen, rfl, ?_, ?_, ?_⟩
  · intro guid
    rw [exists_arrivals_iff]
    exact exists_walked_iff_reaches
  · intro guid hguid
    obtain ⟨n, hdistance, hlevel⟩ := exists_isLeast_level_walked hguid
    refine ⟨n, hdistance, ?_⟩
    convert hlevel using 2
    ext level
    rw [exists_arrivals_iff]
    apply exists_congr
    intro a
    apply and_congr_right
    intro ha
    rw [toNat_level_place hrows ha, Arrival.node_place]
  · rw [spent_ofOrigin]
    apply List.countP_congr
    intro row _
    simp only [Connection.touchesAny_iff, List.mem_map, exists_walked_iff_reaches,
      decide_eq_true_eq]

theorem reach_and_distance_tangle :
    tangle.length < UInt32.size - 1 ∧
      ∃ s, trace tangle (some tangleOrigin) .empty = .ok s ∧
        (∃ p ∈ s.arrivals, p.node = "d" ∧ p.level.toNat ≤ 2) ∧
        s.tally.spent = 6 := by
  obtain ⟨s, hs, -, hdistance, -⟩ :=
    reach_and_distance tangle tangleOrigin .empty (by decide)
  have htrail : Trail tangle "b" 1 "d" :=
    @Trail.onward tangle "b" 0 (.between "b" "d") .here (by simp [tangle]) rfl
  have hreach : tangleOrigin.ReachesIn tangle 1 "d" :=
    ⟨.between "a" "b", by decide, htrail⟩
  obtain ⟨n, hn, hlevel⟩ := hdistance "d" ⟨1, hreach⟩
  obtain ⟨p, hp, hnode, heq⟩ := hlevel.1
  have hle : n ≤ 1 := hn.2 hreach
  refine ⟨by decide, s, hs, ⟨p, hp, hnode, by omega⟩, ?_⟩
  have heq : ofOrigin tangle tangleOrigin .empty = s := Except.ok.inj hs
  subst heq
  decide +kernel

end Spread
end VoteTrace
