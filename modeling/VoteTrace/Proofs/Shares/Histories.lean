import Mathlib.Algebra.Order.BigOperators.Group.List
import Mathlib.Data.List.Sort
import VoteTrace.Proofs.Shares.Ranking
import VoteTrace.Proofs.Shares.RecentRounds

namespace VoteTrace

/-- The rounds are the newest of a set, as many as the limit admits, and run down from the
newest. -/
structure AreNewest (limit : Nat) (rounds : Finset UInt64) (listed : List UInt64) : Prop where
  pairwise_gt : listed.Pairwise (· > ·)
  length_eq : listed.length = min limit rounds.card
  mem_rounds : ∀ round ∈ listed, round ∈ rounds
  lt_of_not_mem : ∀ round ∈ rounds, round ∉ listed → ∀ later ∈ listed, round < later

theorem areNewest_take {rounds : List UInt64} (h : rounds.Pairwise (· > ·)) (limit : Nat) :
    AreNewest limit rounds.toFinset (rounds.take limit) := by
  refine ⟨h.sublist (List.take_sublist _ _), ?_, ?_, ?_⟩
  · rw [List.length_take, List.toFinset_card_of_nodup h.nodup]
  · intro round hround
    exact List.mem_toFinset.mpr (List.mem_of_mem_take hround)
  · intro round hround hnot later hlater
    -- A round that is not among the first is among those behind them.
    rw [List.mem_toFinset, ← List.take_append_drop limit rounds, List.mem_append] at hround
    rw [← List.take_append_drop limit rounds] at h
    exact (List.pairwise_append.mp h).2.2 later hlater round (hround.resolve_left hnot)

namespace History

variable {h : History}

/-- The mean of parts is a part. -/
theorem exactAverage_pos_and_le_one (hne : h.shares ≠ [])
    (hparts : ∀ s ∈ h.shares, 0 < s.fraction ∧ s.fraction ≤ 1) :
    0 < h.exactAverage ∧ h.exactAverage ≤ 1 := by
  have hlength : (0 : ℚ) < h.shares.length :=
    Nat.cast_pos.mpr (List.length_pos_iff.mpr hne)
  rw [exactAverage_of_ne_nil hne]
  constructor
  · refine div_pos (List.sum_pos _ ?_ (by simpa using hne)) hlength
    intro x hx
    obtain ⟨s, hs, rfl⟩ := List.mem_map.mp hx
    exact (hparts s hs).1
  · rw [div_le_one hlength]
    have hsum := List.sum_le_card_nsmul (h.shares.map Share.fraction) 1 fun x hx => by
      obtain ⟨s, hs, rfl⟩ := List.mem_map.mp hx
      exact (hparts s hs).2
    simpa using hsum

end History

namespace Telemetry

/-- The rounds in which the authenticator was sighted. -/
def roundsOf (t : Telemetry) (auth : String) : Finset UInt64 :=
  ((t.sightings.filter fun s => s.auth == auth).map Sighting.round).toFinset

/-- A search through rounds. It keeps the shares that it finds and stops once they are enough. -/
def gather (t : Telemetry) (auth : String) (found : List Share) : List UInt64 → List Share
  | [] => found
  | round :: rounds =>
    if History.limit ≤ found.length then found
    else gather t auth (found ++ (t.shareOf? auth round).toList) rounds

variable {t : Telemetry} {auth : String} {round : UInt64}

/-- What is found so far are the first shares of all; so it is at every stop. -/
theorem gather_eq {found : List Share} (h : found.length ≤ History.limit)
    (rounds : List UInt64) : t.gather auth found rounds =
      (found ++ rounds.filterMap (t.shareOf? auth)).take History.limit := by
  induction rounds generalizing found with
  | nil => simp [gather, List.take_of_length_le h]
  | cons round rounds ih =>
      rw [gather]
      split
      · rename_i hfull
        rw [List.take_left' (Nat.le_antisymm h hfull)]
      · rename_i hroom
        have hstep : (found ++ (t.shareOf? auth round).toList).length ≤ History.limit := by
          have hone := Option.length_toList_le (o := t.shareOf? auth round)
          rw [List.length_append]
          omega
        rw [ih hstep, List.append_assoc, List.filterMap_cons]
        cases t.shareOf? auth round <;> rfl

theorem mem_roundsOf : round ∈ t.roundsOf auth ↔ ∃ relay, ⟨relay, round, auth⟩ ∈ t.sightings := by
  simp only [roundsOf, List.mem_toFinset, List.mem_map, List.mem_filter, beq_iff_eq]
  constructor
  · rintro ⟨s, ⟨hmem, rfl⟩, rfl⟩
    exact ⟨s.relay, hmem⟩
  · rintro ⟨relay, hmem⟩
    exact ⟨_, ⟨hmem, rfl⟩, rfl⟩

theorem authenticators_eq (t : Telemetry) (round : UInt64) :
    t.authenticators round = Share.listing t.sightings round .ascending :=
  Share.listing_congr (Sighting.pairs_eq_pairs_iff.mp (t.pairs_sightingsOf round)) .ascending

theorem shareOf?_eq_some_iff {s : Share} :
    t.shareOf? auth round = some s ↔ s ∈ t.authenticators round ∧ s.auth = auth := by
  have hnodup : ((t.authenticators round).map Share.auth).Nodup := by
    rw [authenticators_eq]
    exact (Share.perm_map_auth_listing _ _ _).nodup_iff.mpr (Sighting.nodup_authsOf _)
  constructor
  · intro h
    exact ⟨List.mem_of_find?_eq_some h, by simpa using List.find?_some h⟩
  · rintro ⟨hmem, hauth⟩
    -- Another share of the authenticator could be found first, but there is none.
    cases hfound : t.shareOf? auth round with
    | none => exact absurd hauth (by simpa using List.find?_eq_none.mp hfound s hmem)
    | some s' =>
        have hauth' : s'.auth = auth := by simpa using List.find?_some hfound
        exact congrArg some (List.inj_on_of_nodup_map hnodup (List.mem_of_find?_eq_some hfound)
          hmem (hauth'.trans hauth.symm))

theorem round_of_shareOf? {s : Share} (h : t.shareOf? auth round = some s) :
    s.round = round := by
  obtain ⟨hmem, -⟩ := shareOf?_eq_some_iff.mp h
  rw [authenticators_eq] at hmem
  exact (Share.of_mem_listing hmem).1

theorem exists_shareOf?_iff :
    (∃ s, t.shareOf? auth round = some s) ↔ round ∈ t.roundsOf auth := by
  have hlisted : auth ∈ (t.authenticators round).map Share.auth ↔
      ∃ relay, ⟨relay, round, auth⟩ ∈ t.sightings := by
    rw [authenticators_eq]
    exact Share.mem_map_auth_listing
  rw [mem_roundsOf, ← hlisted]
  simp only [shareOf?_eq_some_iff, List.mem_map]

theorem shareOf?_eq_none (h : round ∉ t.roundsOf auth) : t.shareOf? auth round = none := by
  rw [← exists_shareOf?_iff] at h
  exact Option.eq_none_iff_forall_ne_some.mpr fun s hs => h ⟨s, hs⟩

/-- The rounds in which the authenticator was sighted, newest first. -/
def roundsBack (t : Telemetry) (auth : String) : List UInt64 :=
  t.sightedRounds.reverse.filter (· ∈ t.roundsOf auth)

theorem pairwise_gt_roundsBack (t : Telemetry) (auth : String) :
    (t.roundsBack auth).Pairwise (· > ·) := by
  have hdown : t.sightedRounds.reverse.Pairwise (· > ·) :=
    List.pairwise_reverse.mpr (pairwise_lt_ofList _)
  exact hdown.sublist List.filter_sublist

theorem toFinset_roundsBack (t : Telemetry) (auth : String) :
    (t.roundsBack auth).toFinset = t.roundsOf auth := by
  ext round
  simp only [roundsBack, List.mem_toFinset, List.mem_filter, List.mem_reverse, decide_eq_true_eq]
  refine and_iff_right_of_imp fun hround => ?_
  obtain ⟨relay, hmem⟩ := mem_roundsOf.mp hround
  exact Ascending.mem_ofList.mpr (List.mem_map_of_mem hmem)

/-- A set of rounds has only one order. -/
theorem roundsBack_congr {t' : Telemetry} (h : t'.roundsOf auth = t.roundsOf auth) :
    t'.roundsBack auth = t.roundsBack auth := by
  apply (pairwise_gt_roundsBack t' auth).eq_of_mem_iff (pairwise_gt_roundsBack t auth)
  intro round
  rw [← List.mem_toFinset, ← List.mem_toFinset, toFinset_roundsBack, toFinset_roundsBack, h]

/-- A round in which the authenticator was not sighted might as well not be looked at. -/
theorem filterMap_shareOf? (t : Telemetry) (auth : String) :
    t.sightedRounds.reverse.filterMap (t.shareOf? auth) =
      (t.roundsBack auth).filterMap (t.shareOf? auth) := by
  rw [roundsBack, List.filterMap_filter]
  apply List.filterMap_congr
  intro round _
  split
  · rfl
  · rename_i hnot
    exact shareOf?_eq_none (by simpa using hnot)

theorem map_round_shares (t : Telemetry) (auth : String) :
    (t.history auth).shares.map Share.round = (t.roundsBack auth).take History.limit := by
  rw [history, List.map_take, filterMap_shareOf?, List.map_filterMap]
  have hrounds : (t.roundsBack auth).filterMap (fun round =>
      (t.shareOf? auth round).map Share.round) = (t.roundsBack auth).filterMap some := by
    apply List.filterMap_congr
    intro round hround
    rw [← List.mem_toFinset, toFinset_roundsBack] at hround
    obtain ⟨s, hs⟩ := exists_shareOf?_iff.mpr hround
    rw [hs, Option.map_some, round_of_shareOf? hs]
  rw [hrounds, List.filterMap_some]

theorem areNewest_history (t : Telemetry) (auth : String) :
    AreNewest History.limit (t.roundsOf auth) ((t.history auth).shares.map Share.round) := by
  rw [map_round_shares, ← toFinset_roundsBack]
  exact areNewest_take (pairwise_gt_roundsBack t auth) History.limit

theorem mem_authenticators_of_mem_history {s : Share} (h : s ∈ (t.history auth).shares) :
    s ∈ t.authenticators s.round ∧ s.auth = auth := by
  obtain ⟨round, -, hs⟩ := List.mem_filterMap.mp (List.mem_of_mem_take h)
  obtain rfl := round_of_shareOf? hs
  exact shareOf?_eq_some_iff.mp hs

theorem shares_history_eq_nil_iff :
    (t.history auth).shares = [] ↔ ∀ s ∈ t.sightings, s.auth ≠ auth := by
  have hlength := (areNewest_history t auth).length_eq
  have hrounds : t.roundsOf auth = ∅ ↔ ∀ s ∈ t.sightings, s.auth ≠ auth := by
    simp [roundsOf]
  rw [← hrounds, ← Finset.card_eq_zero, ← List.length_eq_zero_iff]
  rw [List.length_map, History.limit] at hlength
  omega

theorem history_addSightings {arriving : List Sighting}
    (h : ∀ s ∈ arriving, s.auth ≠ auth ∧ s.round ∉ t.roundsOf auth) :
    (t.addSightings arriving).history auth = t.history auth := by
  have hrounds : (t.addSightings arriving).roundsOf auth = t.roundsOf auth := by
    ext round
    simp only [mem_roundsOf, sightings_addSightings, List.mem_append]
    refine exists_congr fun relay => or_iff_left fun hmem => ?_
    exact (h _ hmem).1 rfl
  have hshares : ∀ round ∈ t.roundsBack auth,
      (t.addSightings arriving).shareOf? auth round = t.shareOf? auth round := by
    intro round hround
    rw [← List.mem_toFinset, toFinset_roundsBack] at hround
    have hsame : ∀ relay name, ⟨relay, round, name⟩ ∈ (t.addSightings arriving).sightings ↔
        ⟨relay, round, name⟩ ∈ t.sightings := by
      intro relay name
      rw [sightings_addSightings, List.mem_append]
      exact or_iff_left fun hmem => (h _ hmem).2 hround
    rw [shareOf?, shareOf?, authenticators_eq, authenticators_eq, Share.listing_congr hsame]
  rw [history, history, filterMap_shareOf?, filterMap_shareOf?, roundsBack_congr hrounds,
    List.filterMap_congr hshares]

theorem mem_listing_of_mem_history {s : Share} (hs : s ∈ (t.history auth).shares) :
    s ∈ Share.listing t.sightings s.round .ascending := by
  have hmem := (mem_authenticators_of_mem_history hs).1
  rwa [authenticators_eq] at hmem

theorem isPart_of_mem_history {s : Share} (hs : s ∈ (t.history auth).shares)
    (hfew : s.relayCount < 2 ^ 53) : s.IsPart :=
  Share.isPart_of_mem_listing (mem_listing_of_mem_history hs) hfew

theorem length_history_le (t : Telemetry) (auth : String) :
    (t.history auth).shares.length ≤ History.limit := by
  rw [history]
  exact List.length_take_le _ _

/-- The history of an authenticator has its shares of the newest rounds in which it was sighted,
as a search finds them that stops at the limit; what others do in other rounds has no part in it.
The average is their mean, and is none only for one who was never sighted. The floats that are put
out are the shares and their mean but for the roundings. -/
theorem history_is_newest_shares (t : Telemetry) (auth : String) :
    AreNewest 256 (t.roundsOf auth) ((t.history auth).shares.map Share.round) ∧
      (∀ s ∈ (t.history auth).shares, ∀ s',
        s' ∈ t.authenticators s.round ∧ s'.auth = auth ↔ s' = s) ∧
      (t.history auth).shares = t.gather auth [] t.sightedRounds.reverse ∧
      (∀ arriving : List Sighting,
        (∀ s ∈ arriving, s.auth ≠ auth ∧ s.round ∉ t.roundsOf auth) →
          (t.addSightings arriving).history auth = t.history auth) ∧
      ((t.history auth).shares ≠ [] →
        (t.history auth).exactAverage =
            ((t.history auth).shares.map Share.fraction).sum / (t.history auth).shares.length ∧
          0 < (t.history auth).exactAverage ∧ (t.history auth).exactAverage ≤ 1) ∧
      ((t.history auth).exactAverage = 0 ↔ ∀ s ∈ t.sightings, s.auth ≠ auth) ∧
      ((∀ s ∈ (t.history auth).shares, s.relayCount < 2 ^ 53) →
        (∀ s ∈ (t.history auth).shares, s.IsRounded) ∧ (t.history auth).IsRounded) := by
  have haverage : (t.history auth).shares ≠ [] →
      0 < (t.history auth).exactAverage ∧ (t.history auth).exactAverage ≤ 1 := by
    intro hne
    apply History.exactAverage_pos_and_le_one hne
    intro s hs
    obtain ⟨-, hpos, hle, -⟩ := Share.fraction_of_mem_listing (mem_listing_of_mem_history hs)
    exact ⟨hpos, hle⟩
  refine ⟨areNewest_history t auth, fun s hs s' => ?_, ?_, fun arriving => history_addSightings,
    fun hne => ⟨History.exactAverage_of_ne_nil hne, haverage hne⟩, ?_, ?_⟩
  · have hshare := shareOf?_eq_some_iff.mpr (mem_authenticators_of_mem_history hs)
    rw [← shareOf?_eq_some_iff, hshare, Option.some_inj, eq_comm]
  · rw [gather_eq (Nat.zero_le _), List.nil_append, history]
  · rw [← shares_history_eq_nil_iff]
    refine ⟨fun hzero => ?_, History.exactAverage_eq_zero_of_nil⟩
    by_contra hne
    exact (haverage hne).1.ne' hzero
  · intro hfew
    have hparts : ∀ s ∈ (t.history auth).shares, s.IsPart := fun s hs =>
      isPart_of_mem_history hs (hfew s hs)
    exact ⟨fun s hs => (hparts s hs).isRounded,
      History.isRounded_average (length_history_le t auth) hparts⟩

/-- `A` was sighted in rounds 9 and 5, and in 5 by both relays; round 7 is `B`'s alone. -/
def register : Telemetry :=
  { Telemetry.empty with
    sightings := [⟨"r1", 5, "A"⟩, ⟨"r1", 9, "A"⟩, ⟨"r1", 7, "B"⟩, ⟨"r2", 5, "A"⟩,
      ⟨"r2", 9, "B"⟩, ⟨"r1", 5, "A"⟩] }

theorem history_is_newest_shares_register :
    (register.history "A").shares = [⟨9, "A", 1, 2⟩, ⟨5, "A", 2, 2⟩] ∧
      AreNewest 256 (register.roundsOf "A") [9, 5] ∧
      (register.history "A").exactAverage = 3 / 4 ∧
      |Rounding.value (register.history "A").average - 3 / 4| ≤ 3 / 2 ^ 52 * (3 / 4) ∧
      (register.addSightings [⟨"r3", 7, "C"⟩, ⟨"r3", 8, "B"⟩]).history "A" =
        register.history "A" ∧
      (register.history "C").exactAverage = 0 := by
  have hshares : (register.history "A").shares = [⟨9, "A", 1, 2⟩, ⟨5, "A", 2, 2⟩] := by
    decide +kernel
  obtain ⟨hnewest, -, -, hothers, haverage, -, hrounded⟩ := history_is_newest_shares register "A"
  obtain ⟨-, -, -, -, -, hnone, -⟩ := history_is_newest_shares register "C"
  obtain ⟨hmean, -⟩ := haverage (by simp [hshares])
  have hquarters : (register.history "A").exactAverage = 3 / 4 := by
    rw [hmean, hshares]
    decide +kernel
  refine ⟨hshares, ?_, hquarters, ?_, hothers _ (by decide +kernel), hnone.mpr (by decide)⟩
  · rwa [hshares] at hnewest
  · obtain ⟨-, hnear⟩ := hrounded (by simp [hshares])
    have hoff := hnear.abs_value_sub_le
    rw [hquarters, hshares] at hoff
    exact hoff.trans (by norm_num)

end Telemetry
end VoteTrace
