import Mathlib.Data.List.Nodup
import VoteTrace.Shares.Round

namespace VoteTrace

namespace Sighting

instance : Std.TransCmp comparePairs :=
  inferInstanceAs (Std.TransCmp (compareLex (compareOn Prod.fst) (compareOn Prod.snd)))

instance : Std.LawfulEqCmp comparePairs where
  eq_of_compare := by
    intro a b h
    rw [comparePairs, Ordering.then_eq_eq] at h
    exact Prod.ext (Std.LawfulEqCmp.eq_of_compare h.1) (Std.LawfulEqCmp.eq_of_compare h.2)

variable {sightings sightings' : List Sighting} {round : UInt64}

theorem mem_ofRound {s : Sighting} :
    s ∈ ofRound sightings round ↔ s ∈ sightings ∧ s.round = round := by
  simp [ofRound]

theorem mem_pairs {relay auth : String} :
    (relay, auth) ∈ pairs sightings round ↔ ⟨relay, round, auth⟩ ∈ sightings := by
  simp only [pairs, Ascending.mem_ofList, List.mem_map, mem_ofRound]
  constructor
  · rintro ⟨s, ⟨hmem, rfl⟩, hpair⟩
    cases hpair
    exact hmem
  · intro hmem
    exact ⟨_, ⟨hmem, rfl⟩, rfl⟩

theorem nodup_pairs (sightings : List Sighting) (round : UInt64) :
    (pairs sightings round).Nodup :=
  Ascending.nodup_ofList _

theorem pairs_eq_pairs_iff :
    pairs sightings round = pairs sightings' round ↔
      ∀ relay auth, ⟨relay, round, auth⟩ ∈ sightings ↔ ⟨relay, round, auth⟩ ∈ sightings' := by
  constructor
  · intro h relay auth
    rw [← mem_pairs, h, mem_pairs]
  · intro h
    apply Ascending.ofList_eq_ofList_iff.mpr
    rintro ⟨relay, auth⟩
    have hmem : (relay, auth) ∈ pairs sightings round ↔ (relay, auth) ∈ pairs sightings' round := by
      rw [mem_pairs, mem_pairs, h]
    simpa only [pairs, Ascending.mem_ofList] using hmem

theorem pairs_ofRound (sightings : List Sighting) (round : UInt64) :
    pairs (ofRound sightings round) round = pairs sightings round := by
  apply pairs_eq_pairs_iff.mpr
  intro relay auth
  simp [mem_ofRound]

/-- The relays on some pair, in the order of their names. -/
def relaysOf (pairs : List (String × String)) : List String :=
  Ascending.ofList compare (pairs.map Prod.fst)

/-- The authenticators on some pair, in the order of their names. -/
def authsOf (pairs : List (String × String)) : List String :=
  Ascending.ofList compare (pairs.map Prod.snd)

theorem ofList_map_relay (sightings : List Sighting) (round : UInt64) :
    Ascending.ofList compare ((ofRound sightings round).map relay) =
      relaysOf (pairs sightings round) := by
  apply Ascending.ofList_eq_ofList_iff.mpr
  intro relay
  simp [pairs, Ascending.mem_ofList, pair]

theorem ofList_map_auth (sightings : List Sighting) (round : UInt64) :
    Ascending.ofList compare ((ofRound sightings round).map auth) =
      authsOf (pairs sightings round) := by
  apply Ascending.ofList_eq_ofList_iff.mpr
  intro auth
  simp [pairs, Ascending.mem_ofList, pair]

end Sighting

theorem RelayLoad.authCountOf_ofRound (sightings : List Sighting) (round : UInt64)
    (relay : String) :
    authCountOf (Sighting.ofRound sightings round) relay =
      (Sighting.pairs sightings round).countP fun pair => pair.1 == relay := by
  have hnodup : (((Sighting.pairs sightings round).filter fun pair => pair.1 == relay).map
      Prod.snd).Nodup := by
    apply ((Sighting.nodup_pairs sightings round).filter _).map_on
    intro x hx y hy heq
    simp only [List.mem_filter, beq_iff_eq] at hx hy
    exact Prod.ext (hx.2.trans hy.2.symm) heq
  have hperm : (Ascending.ofList compare (((Sighting.ofRound sightings round).filter
      fun s => s.relay == relay).map Sighting.auth)).Perm
        (((Sighting.pairs sightings round).filter fun pair => pair.1 == relay).map
          Prod.snd) := by
    apply (List.perm_ext_iff_of_nodup (Ascending.nodup_ofList _) hnodup).mpr
    intro auth
    simp [Sighting.pairs, Ascending.mem_ofList, Sighting.pair, and_assoc]
  rw [authCountOf, hperm.length_eq, List.length_map, List.countP_eq_length_filter]

theorem RelayLoad.listing_eq (sightings : List Sighting) (round : UInt64) :
    listing sightings round = (Sighting.relaysOf (Sighting.pairs sightings round)).map
      fun relay =>
        { round := round
          relay := relay
          authCount := (Sighting.pairs sightings round).countP fun pair => pair.1 == relay } := by
  simp only [listing, Sighting.ofList_map_relay, authCountOf_ofRound]

theorem RoundRow.ofSightings_eq (sightings : List Sighting) (round : UInt64) :
    ofSightings sightings round =
      { round := round
        relayCount := (Sighting.relaysOf (Sighting.pairs sightings round)).length
        authCount := (Sighting.authsOf (Sighting.pairs sightings round)).length
        period := 0
        step := 0 } := by
  simp only [ofSightings, Sighting.ofList_map_relay, Sighting.ofList_map_auth]

theorem Matrix.ofSightings_eq (sightings : List Sighting) (round : UInt64) :
    ofSightings sightings round =
      { round := round
        relays := Sighting.relaysOf (Sighting.pairs sightings round)
        auths := (Share.listing sightings round .descending).map Share.auth
        pairs := Sighting.pairs sightings round } := by
  simp only [ofSightings, Sighting.ofList_map_relay]

namespace Telemetry

def addSightings (t : Telemetry) (arriving : List Sighting) : Telemetry :=
  arriving.foldl addSighting t

@[simp] theorem sightings_addSightings (t : Telemetry) (arriving : List Sighting) :
    (t.addSightings arriving).sightings = t.sightings ++ arriving := by
  induction arriving generalizing t with
  | nil => simp [addSightings]
  | cons s arriving ih =>
      change ((t.addSighting s).addSightings arriving).sightings = _
      rw [ih]
      simp [addSighting]

theorem pairs_sightingsOf (t : Telemetry) (round : UInt64) :
    Sighting.pairs (t.sightingsOf round) round = Sighting.pairs t.sightings round :=
  Sighting.pairs_ofRound t.sightings round

end Telemetry

section SamePairs

variable {sightings sightings' : List Sighting} {round : UInt64}

/-- The counts are the same in whatever order the pairs of a round are gone through. -/
theorem Share.ofPairs_perm {pairs pairs' : List (String × String)} (h : pairs.Perm pairs') :
    ofPairs round pairs = ofPairs round pairs' := by
  have hrelays : Ascending.ofList compare (pairs.map Prod.fst) =
      Ascending.ofList compare (pairs'.map Prod.fst) :=
    Ascending.ofList_eq_ofList_iff.mpr fun _ => (h.map Prod.fst).mem_iff
  have hauths : Ascending.ofList compare (pairs.map Prod.snd) =
      Ascending.ofList compare (pairs'.map Prod.snd) :=
    Ascending.ofList_eq_ofList_iff.mpr fun _ => (h.map Prod.snd).mem_iff
  simp only [ofPairs, hrelays, hauths, h.countP_eq]

theorem Share.listing_eq_of_enumeration {pairs : List (String × String)} (hnodup : pairs.Nodup)
    (h : ∀ relay auth, (relay, auth) ∈ pairs ↔ ⟨relay, round, auth⟩ ∈ sightings)
    (order : ShareOrder) :
    listing sightings round order = Ascending.ofList (compareIn order) (ofPairs round pairs) := by
  have hperm : (Sighting.pairs sightings round).Perm pairs := by
    apply (List.perm_ext_iff_of_nodup (Sighting.nodup_pairs sightings round) hnodup).mpr
    rintro ⟨relay, auth⟩
    rw [Sighting.mem_pairs, h]
  rw [listing, ofPairs_perm hperm]

theorem Share.listing_congr
    (h : ∀ relay auth, ⟨relay, round, auth⟩ ∈ sightings ↔ ⟨relay, round, auth⟩ ∈ sightings')
    (order : ShareOrder) : listing sightings round order = listing sightings' round order := by
  apply listing_eq_of_enumeration (Sighting.nodup_pairs sightings' round)
  intro relay auth
  rw [Sighting.mem_pairs, h]

theorem RelayLoad.listing_congr
    (h : Sighting.pairs sightings round = Sighting.pairs sightings' round) :
    listing sightings round = listing sightings' round := by
  rw [listing_eq, listing_eq, h]

theorem RoundRow.ofSightings_congr
    (h : Sighting.pairs sightings round = Sighting.pairs sightings' round) :
    ofSightings sightings round = ofSightings sightings' round := by
  rw [ofSightings_eq, ofSightings_eq, h]

theorem Matrix.ofSightings_congr
    (h : Sighting.pairs sightings round = Sighting.pairs sightings' round) :
    ofSightings sightings round = ofSightings sightings' round := by
  rw [ofSightings_eq, ofSightings_eq, h,
    Share.listing_congr (Sighting.pairs_eq_pairs_iff.mp h)]

/-- Sightings with the same pairs of a round have the same listings of it, whichever pair is
counted first, and so has telemetry in which such sightings arrived, in whatever order. -/
theorem listings_eq_of_same_pairs (sightings sightings' : List Sighting) (round : UInt64)
    (h : ∀ relay auth, ⟨relay, round, auth⟩ ∈ sightings ↔ ⟨relay, round, auth⟩ ∈ sightings') :
    (∀ order, Share.listing sightings round order = Share.listing sightings' round order) ∧
      (∀ pairs : List (String × String), pairs.Nodup →
        (∀ relay auth, (relay, auth) ∈ pairs ↔ ⟨relay, round, auth⟩ ∈ sightings) →
        ∀ order, Share.listing sightings' round order =
          Ascending.ofList (Share.compareIn order) (Share.ofPairs round pairs)) ∧
      RelayLoad.listing sightings round = RelayLoad.listing sightings' round ∧
      RoundRow.ofSightings sightings round = RoundRow.ofSightings sightings' round ∧
      Matrix.ofSightings sightings round = Matrix.ofSightings sightings' round ∧
      ∀ (t : Telemetry) (arriving : List Sighting),
        (t.sightings ++ arriving).Perm sightings →
        (t.addSightings arriving).authenticators round =
            Share.listing sightings' round .ascending ∧
          (t.addSightings arriving).relayLoads round = RelayLoad.listing sightings' round ∧
          (t.addSightings arriving).matrix round = Matrix.ofSightings sightings' round := by
  have hpairs := Sighting.pairs_eq_pairs_iff.mpr h
  refine ⟨Share.listing_congr h, ?_, RelayLoad.listing_congr hpairs,
    RoundRow.ofSightings_congr hpairs, Matrix.ofSightings_congr hpairs, ?_⟩
  · intro pairs hnodup hmem order
    rw [← Share.listing_congr h order, Share.listing_eq_of_enumeration hnodup hmem]
  · intro t arriving hperm
    have harrived : Sighting.pairs ((t.addSightings arriving).sightingsOf round) round =
        Sighting.pairs sightings' round := by
      rw [Telemetry.pairs_sightingsOf, Telemetry.sightings_addSightings, ← hpairs]
      apply Sighting.pairs_eq_pairs_iff.mpr
      intro relay auth
      exact hperm.mem_iff
    exact ⟨Share.listing_congr (Sighting.pairs_eq_pairs_iff.mp harrived) .ascending,
      RelayLoad.listing_congr harrived, Matrix.ofSightings_congr harrived⟩

end SamePairs

/-- What two relays tell of round 5. -/
def certificates : List Sighting := [⟨"r1", 5, "B"⟩, ⟨"r1", 5, "A"⟩, ⟨"r2", 5, "A"⟩]

/-- The same, told in another order, once more, and among news of round 6. -/
def retold : List Sighting :=
  [⟨"r2", 5, "A"⟩, ⟨"r3", 6, "C"⟩, ⟨"r1", 5, "B"⟩, ⟨"r2", 5, "A"⟩, ⟨"r1", 5, "A"⟩]

theorem listings_eq_of_same_pairs_retold :
    (∀ relay auth, ⟨relay, 5, auth⟩ ∈ retold ↔ ⟨relay, 5, auth⟩ ∈ certificates) ∧
      (Telemetry.empty.addSightings retold.reverse).sightings.Perm retold ∧
      (Telemetry.empty.addSightings retold.reverse).matrix 5 =
        Matrix.ofSightings certificates 5 ∧
      (Matrix.ofSightings certificates 5).pairs = [("r1", "A"), ("r1", "B"), ("r2", "A")] ∧
      Share.listing certificates 5 .descending = Ascending.ofList (Share.compareIn .descending)
        (Share.ofPairs 5 [("r2", "A"), ("r1", "B"), ("r1", "A")]) ∧
      (Share.listing retold 5 .ascending).map Share.auth = ["B", "A"] := by
  have hsame : ∀ relay auth,
      ⟨relay, 5, auth⟩ ∈ retold ↔ ⟨relay, 5, auth⟩ ∈ certificates := by
    intro relay auth
    have hround : (5 : UInt64) ≠ 6 := by decide
    simp only [retold, certificates, List.mem_cons, Sighting.mk.injEq, List.not_mem_nil]
    grind
  have hperm : (Telemetry.empty.addSightings retold.reverse).sightings.Perm retold := by
    rw [Telemetry.sightings_addSightings]
    exact List.reverse_perm retold
  have hpairs : ∀ relay auth, (relay, auth) ∈ [("r2", "A"), ("r1", "B"), ("r1", "A")] ↔
      ⟨relay, 5, auth⟩ ∈ retold := by
    intro relay auth
    rw [hsame]
    simp only [certificates, List.mem_cons, Sighting.mk.injEq, Prod.mk.injEq, List.not_mem_nil]
    grind
  obtain ⟨hshares, hcounted, -, -, -, harrived⟩ :=
    listings_eq_of_same_pairs retold certificates 5 hsame
  refine ⟨hsame, hperm, (harrived _ _ (List.reverse_perm retold)).2.2, by decide +kernel,
    hcounted _ (by decide) hpairs .descending, ?_⟩
  rw [hshares]
  decide +kernel

end VoteTrace
