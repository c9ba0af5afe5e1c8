import Mathlib.Algebra.Order.Field.Basic
import Mathlib.Algebra.Order.Field.Rat
import Mathlib.Data.List.SplitBy
import VoteTrace.Proofs.Shares.Rounded

/-!
How the shares of a round are ranked.

Main statement: a share is the part of the round's relays that sighted its authenticator, and
both listings stand in the order of the shares with equal ones by name. So turning the ranking
over moves whole groups of equal shares and leaves each as it is; that is the list turned over
only where no two shares are equal.
-/

namespace VoteTrace

namespace Sighting

/-- The relays that sighted anyone in the round. -/
def relaysIn (sightings : List Sighting) (round : UInt64) : Finset String :=
  ((ofRound sightings round).map relay).toFinset

/-- The relays that sighted the authenticator in the round. -/
def relaysOn (sightings : List Sighting) (round : UInt64) (auth : String) : Finset String :=
  (((ofRound sightings round).filter fun s => s.auth == auth).map relay).toFinset

variable {sightings : List Sighting} {round : UInt64}

theorem mem_relaysIn {relay : String} :
    relay ∈ relaysIn sightings round ↔ ∃ auth, ⟨relay, round, auth⟩ ∈ sightings := by
  simp only [relaysIn, List.mem_toFinset, List.mem_map, mem_ofRound]
  constructor
  · rintro ⟨s, ⟨hmem, rfl⟩, rfl⟩
    exact ⟨s.auth, hmem⟩
  · rintro ⟨auth, hmem⟩
    exact ⟨_, ⟨hmem, rfl⟩, rfl⟩

theorem mem_relaysOn {relay auth : String} :
    relay ∈ relaysOn sightings round auth ↔ ⟨relay, round, auth⟩ ∈ sightings := by
  simp only [relaysOn, List.mem_toFinset, List.mem_map, List.mem_filter, mem_ofRound, beq_iff_eq]
  constructor
  · rintro ⟨s, ⟨⟨hmem, rfl⟩, rfl⟩, rfl⟩
    exact hmem
  · intro hmem
    exact ⟨_, ⟨⟨hmem, rfl⟩, rfl⟩, rfl⟩

theorem relaysOn_subset_relaysIn (auth : String) :
    relaysOn sightings round auth ⊆ relaysIn sightings round := by
  intro relay hrelay
  exact mem_relaysIn.mpr ⟨auth, mem_relaysOn.mp hrelay⟩

theorem length_relaysOf_pairs :
    (relaysOf (pairs sightings round)).length = (relaysIn sightings round).card := by
  have hnodup : (relaysOf (pairs sightings round)).Nodup := Ascending.nodup_ofList _
  rw [← List.toFinset_card_of_nodup hnodup]
  congr 1
  ext relay
  rw [List.mem_toFinset, mem_relaysOf, mem_relaysIn]
  simp [← mem_pairs]

theorem countP_pairs (auth : String) :
    (pairs sightings round).countP (fun pair => pair.2 == auth) =
      (relaysOn sightings round auth).card := by
  have hnodup : (((pairs sightings round).filter fun pair => pair.2 == auth).map
      Prod.fst).Nodup := by
    apply ((nodup_pairs sightings round).filter _).map_on
    intro x hx y hy heq
    simp only [List.mem_filter, beq_iff_eq] at hx hy
    exact Prod.ext heq (hx.2.trans hy.2.symm)
  rw [List.countP_eq_length_filter, ← List.length_map Prod.fst,
    ← List.toFinset_card_of_nodup hnodup]
  congr 1
  ext relay
  simp [mem_relaysOn, mem_pairs]

end Sighting

namespace Share

instance (order : ShareOrder) : Std.TransCmp (compareIn order) :=
  match order with
  | .ascending =>
      inferInstanceAs (Std.TransCmp (compareLex (compareOn count) (compareOn auth)))
  | .descending =>
      inferInstanceAs (Std.TransCmp
        (compareLex (fun a b => compareOn count b a) (compareOn auth)))

/-- One share stands before another: by the shares in the order of the listing, and equal ones
by name. -/
def Precedes (order : ShareOrder) (a b : Share) : Prop :=
  match order with
  | .ascending => a.fraction < b.fraction ∨ a.fraction = b.fraction ∧ a.auth < b.auth
  | .descending => b.fraction < a.fraction ∨ a.fraction = b.fraction ∧ a.auth < b.auth

variable {sightings : List Sighting} {round : UInt64} {order : ShareOrder}

theorem Precedes.auth_lt {a b : Share} (h : Precedes order a b)
    (heq : a.fraction = b.fraction) : a.auth < b.auth := by
  cases order with
  | ascending => exact (h.resolve_left heq.not_lt).2
  | descending => exact (h.resolve_left heq.not_gt).2

theorem Precedes.asymm {a b : Share} (h : Precedes order a b) : ¬Precedes order b a := by
  intro h'
  have hne : a.fraction ≠ b.fraction := fun heq =>
    String.lt_asymm (h.auth_lt heq) (h'.auth_lt heq.symm)
  cases order with
  | ascending =>
      exact lt_asymm (h.resolve_right fun h => hne h.1) (h'.resolve_right fun h => hne h.1.symm)
  | descending =>
      exact lt_asymm (h.resolve_right fun h => hne h.1) (h'.resolve_right fun h => hne h.1.symm)

theorem precedes_of_compareIn_eq_lt {a b : Share} (hpos : 0 < b.relayCount)
    (hcount : a.relayCount = b.relayCount) (h : compareIn order a b = .lt) :
    Precedes order a b := by
  have hequal : a.count = b.count → a.fraction = b.fraction := by
    intro heq
    rw [fraction, fraction, quotient, quotient, hcount, heq]
  have hauth : compare a.auth b.auth = .lt → a.auth < b.auth := compareOfLessAndEq_eq_lt.mp
  cases order with
  | ascending =>
      refine (Ordering.then_eq_lt.mp h).imp ?_ ?_
      · intro hless
        exact (fraction_lt_iff hpos hcount).mpr (Nat.compare_eq_lt.mp hless)
      · rintro ⟨heq, hname⟩
        exact ⟨hequal (Nat.compare_eq_eq.mp heq), hauth hname⟩
  | descending =>
      refine (Ordering.then_eq_lt.mp h).imp ?_ ?_
      · intro hless
        exact (fraction_lt_iff (hcount ▸ hpos) hcount.symm).mpr (Nat.compare_eq_lt.mp hless)
      · rintro ⟨heq, hname⟩
        exact ⟨hequal (Nat.compare_eq_eq.mp heq).symm, hauth hname⟩

theorem of_mem_listing {s : Share} (h : s ∈ listing sightings round order) :
    s.round = round ∧ s.count = (Sighting.relaysOn sightings round s.auth).card ∧
      s.relayCount = (Sighting.relaysIn sightings round).card ∧
      (Sighting.relaysOn sightings round s.auth).Nonempty := by
  obtain ⟨auth, hauth, rfl⟩ := List.mem_map.mp ((perm_listing _ _ _).subset h)
  obtain ⟨⟨relay, _⟩, hpair, rfl⟩ := List.mem_map.mp (Sighting.mem_authsOf.mp hauth)
  exact ⟨rfl, Sighting.countP_pairs _, Sighting.length_relaysOf_pairs,
    relay, Sighting.mem_relaysOn.mpr (Sighting.mem_pairs.mp hpair)⟩

theorem relayCount_pos {s : Share} (h : s ∈ listing sightings round order) :
    0 < s.relayCount := by
  obtain ⟨-, -, hcount, hsome⟩ := of_mem_listing h
  rw [hcount, Finset.card_pos]
  exact hsome.mono (Sighting.relaysOn_subset_relaysIn _)

theorem mem_map_auth_listing {auth : String} :
    auth ∈ (listing sightings round order).map Share.auth ↔
      ∃ relay, ⟨relay, round, auth⟩ ∈ sightings := by
  rw [(perm_map_auth_listing sightings round order).mem_iff, Sighting.mem_authsOf]
  simp [← Sighting.mem_pairs]

theorem listing_eq_nil_iff :
    listing sightings round order = [] ↔ ∀ s ∈ sightings, s.round ≠ round := by
  rw [← List.map_eq_nil_iff (f := Share.auth), List.eq_nil_iff_forall_not_mem]
  simp only [mem_map_auth_listing, not_exists]
  constructor
  · rintro h ⟨relay, round, auth⟩ hmem rfl
    exact h auth relay hmem
  · intro h auth relay hmem
    exact h _ hmem rfl

theorem pairwise_precedes_listing (sightings : List Sighting) (round : UInt64)
    (order : ShareOrder) : (listing sightings round order).Pairwise (Precedes order) := by
  have hsorted : (listing sightings round order).Pairwise fun a b => compareIn order a b = .lt :=
    Ascending.pairwise_ofList _
  refine hsorted.imp_of_mem fun {a b} ha hb hlt => ?_
  refine precedes_of_compareIn_eq_lt (relayCount_pos hb) ?_ hlt
  exact (of_mem_listing ha).2.2.1.trans (of_mem_listing hb).2.2.1.symm

/-- A share is a part of the relays that sighted anyone, and all of them only if they all
sighted its authenticator. -/
theorem fraction_of_mem_listing {s : Share} (h : s ∈ listing sightings round order) :
    s.fraction = ((Sighting.relaysOn sightings round s.auth).card : ℚ) /
        (Sighting.relaysIn sightings round).card ∧
      0 < s.fraction ∧ s.fraction ≤ 1 ∧
      (s.fraction = 1 ↔
        ∀ s' ∈ sightings, s'.round = round → ⟨s'.relay, round, s.auth⟩ ∈ sightings) := by
  obtain ⟨-, hcount, hrelays, hsome⟩ := of_mem_listing h
  have hsubset : Sighting.relaysOn sightings round s.auth ⊆ Sighting.relaysIn sightings round :=
    Sighting.relaysOn_subset_relaysIn _
  have hfraction : s.fraction = ((Sighting.relaysOn sightings round s.auth).card : ℚ) /
      (Sighting.relaysIn sightings round).card := by
    rw [fraction, quotient, hcount, hrelays]
  have hrelaysPos : (0 : ℚ) < (Sighting.relaysIn sightings round).card :=
    Nat.cast_pos.mpr (hrelays ▸ relayCount_pos h)
  refine ⟨hfraction, ?_, ?_, ?_⟩
  · rw [hfraction]
    exact div_pos (Nat.cast_pos.mpr hsome.card_pos) hrelaysPos
  · rw [hfraction, div_le_one hrelaysPos]
    exact Nat.cast_le.mpr (Finset.card_le_card hsubset)
  · rw [hfraction, div_eq_one_iff_eq hrelaysPos.ne', Nat.cast_inj]
    constructor
    · rintro hcard ⟨relay, _, auth⟩ hmem rfl
      have hall := Finset.eq_of_subset_of_card_le hsubset hcard.ge
      exact Sighting.mem_relaysOn.mp (hall ▸ Sighting.mem_relaysIn.mpr ⟨auth, hmem⟩)
    · intro hall
      refine congrArg Finset.card (hsubset.antisymm fun relay hrelay => ?_)
      obtain ⟨auth, hmem⟩ := Sighting.mem_relaysIn.mp hrelay
      exact Sighting.mem_relaysOn.mpr (hall _ hmem rfl)

theorem isPart_of_mem_listing {s : Share} (h : s ∈ listing sightings round order)
    (hfew : s.relayCount < 2 ^ 53) : s.IsPart := by
  obtain ⟨-, hcount, hrelays, hsome⟩ := of_mem_listing h
  refine ⟨hcount ▸ hsome.card_pos, ?_, hfew⟩
  rw [hcount, hrelays]
  exact Finset.card_le_card (Sighting.relaysOn_subset_relaysIn _)

theorem toFloat_lt_iff_of_mem_listing {a b : Share} (ha : a ∈ listing sightings round order)
    (hb : b ∈ listing sightings round order) (hfew : a.relayCount ≤ 2 ^ 51) :
    a.toFloat < b.toFloat ↔ a.fraction < b.fraction := by
  have hrelays : a.relayCount = b.relayCount :=
    (of_mem_listing ha).2.2.1.trans (of_mem_listing hb).2.2.1.symm
  have hlt : a.relayCount < 2 ^ 53 := by omega
  exact (isPart_of_mem_listing ha hlt).toFloat_lt_iff (isPart_of_mem_listing hb (hrelays ▸ hlt))
    hrelays (hrelays ▸ hfew)

/-- Equal shares that stand beside each other, group by group. -/
def tiers (shares : List Share) : List (List Share) :=
  shares.splitBy fun a b => a.fraction = b.fraction

theorem fraction_eq_of_mem_tiers {shares tier : List Share} (h : tier ∈ tiers shares)
    {a b : Share} (ha : a ∈ tier) (hb : b ∈ tier) : a.fraction = b.fraction := by
  have hchain : tier.IsChain fun a b => a.fraction = b.fraction :=
    (List.isChain_of_mem_splitBy h).imp fun _ _ => of_decide_eq_true
  have hequal : (tier.map fraction).Pairwise (· = ·) :=
    List.isChain_iff_pairwise.mp ((List.isChain_map fraction).mpr hchain)
  exact hequal.forall_of_forall (fun _ _ => rfl) (List.mem_map_of_mem ha)
    (List.mem_map_of_mem hb)

/-- Tiers of shares in order are in order, and no two of them are equal. -/
theorem pairwise_tiers {shares : List Share}
    (h : shares.Pairwise fun a b => a.fraction ≤ b.fraction) :
    (tiers shares).Pairwise fun l m => ∀ a ∈ l, ∀ b ∈ m, a.fraction < b.fraction := by
  have hle : (tiers shares).Pairwise fun l m => ∀ a ∈ l, ∀ b ∈ m, a.fraction ≤ b.fraction := by
    rw [← List.flatten_splitBy (fun a b => decide (a.fraction = b.fraction)) shares] at h
    exact (List.pairwise_flatten.mp h).2
  have hequal := fun (tier : List Share) (htier : tier ∈ tiers shares) (a b : Share) =>
    fraction_eq_of_mem_tiers htier (a := a) (b := b)
  have hnext := List.isChain_getLast_head_splitBy
    (fun a b : Share => decide (a.fraction = b.fraction)) shares
  rw [← tiers] at hnext
  generalize tiers shares = groups at hle hequal hnext
  induction groups with
  | nil => exact .nil
  | cons l groups ih =>
      obtain ⟨hl, hgroups⟩ := List.pairwise_cons.mp hle
      refine List.pairwise_cons.mpr ⟨?_, ih hgroups (fun tier htier => hequal tier
        (List.mem_cons_of_mem _ htier)) hnext.tail⟩
      intro m hm a ha b hb
      -- Between a tier and the next lies the step from its last share to the first of that.
      cases groups with
      | nil => cases hm
      | cons k groups =>
          obtain ⟨hlast, hhead, hstep⟩ := (List.isChain_cons_cons.mp hnext).1
          have hne : (l.getLast hlast).fraction ≠ (k.head hhead).fraction :=
            of_decide_eq_false hstep
          have ha' : a.fraction = (l.getLast hlast).fraction :=
            hequal l List.mem_cons_self _ _ ha (List.getLast_mem hlast)
          have hlt : a.fraction < (k.head hhead).fraction :=
            lt_of_le_of_ne (hl k List.mem_cons_self a ha _ (List.head_mem hhead)) (ha' ▸ hne)
          rcases List.mem_cons.mp hm with rfl | hm
          · exact hlt.trans_eq (hequal m (by simp) _ _ (List.head_mem hhead) hb)
          · exact hlt.trans_le ((List.pairwise_cons.mp hgroups).1 m hm _ (List.head_mem hhead)
              b hb)

theorem eq_listing_of_perm {shares : List Share}
    (hperm : shares.Perm (listing sightings round .ascending))
    (h : shares.Pairwise (Precedes order)) : listing sightings round order = shares := by
  have hlisting := (perm_listing sightings round order).trans
    ((perm_listing sightings round .ascending).symm.trans hperm.symm)
  refine hlisting.eq_of_pairwise ?_ (pairwise_precedes_listing sightings round order) h
  intro a b _ _ hab hba
  exact absurd hba hab.asymm

theorem listing_descending_eq (sightings : List Sighting) (round : UInt64) :
    listing sightings round .descending =
      (tiers (listing sightings round .ascending)).reverse.flatten := by
  have hascending := pairwise_precedes_listing sightings round .ascending
  have hflatten : (tiers (listing sightings round .ascending)).flatten =
      listing sightings round .ascending := List.flatten_splitBy _ _
  apply eq_listing_of_perm
  · exact (List.reverse_perm _).flatten.trans (.of_eq hflatten)
  · have hle : (listing sightings round .ascending).Pairwise
        fun a b => a.fraction ≤ b.fraction :=
      hascending.imp fun h => h.elim le_of_lt fun h => h.1.le
    have hwithin := hascending
    rw [← hflatten, List.pairwise_flatten] at hwithin
    refine List.pairwise_flatten.mpr ⟨fun tier htier => ?_, ?_⟩
    · have htier := List.mem_reverse.mp htier
      refine (hwithin.1 tier htier).imp_of_mem fun {a b} ha hb hab => ?_
      have heq := fraction_eq_of_mem_tiers htier ha hb
      exact .inr ⟨heq, hab.auth_lt heq⟩
    · refine List.pairwise_reverse.mpr ((pairwise_tiers hle).imp fun {l m} hlt b hb a ha => ?_)
      exact .inl (hlt a ha b hb)

theorem listing_descending_eq_reverse_iff (sightings : List Sighting) (round : UInt64) :
    listing sightings round .descending = (listing sightings round .ascending).reverse ↔
      (listing sightings round .ascending).Pairwise fun a b => a.fraction ≠ b.fraction := by
  have hascending := pairwise_precedes_listing sightings round .ascending
  constructor
  · intro hreverse
    have hdescending := pairwise_precedes_listing sightings round .descending
    rw [hreverse, List.pairwise_reverse] at hdescending
    refine (hascending.and hdescending).imp fun {a b} hab heq => ?_
    exact String.lt_asymm (hab.1.auth_lt heq) (hab.2.auth_lt heq.symm)
  · intro hne
    apply eq_listing_of_perm (List.reverse_perm _)
    refine List.pairwise_reverse.mpr ((hascending.and hne).imp fun {a b} hab => ?_)
    exact .inl (hab.1.resolve_right fun h => hab.2 h.1)

/-- Both listings of a round have each authenticator that was sighted once, with the part of the
relays that sighted it, and are ranked by that and then by name. The descending one is the other
with its tiers turned over. The floats that are put out are the shares rounded once, and are in
the same order. -/
theorem listings_are_ranked (sightings : List Sighting) (round : UInt64) :
    (∀ order, ((listing sightings round order).map Share.auth).Nodup ∧
      (∀ auth, auth ∈ (listing sightings round order).map Share.auth ↔
        ∃ relay, ⟨relay, round, auth⟩ ∈ sightings) ∧
      (∀ s ∈ listing sightings round order,
        0 < s.relayCount ∧
        s.fraction = ((Sighting.relaysOn sightings round s.auth).card : ℚ) /
          (Sighting.relaysIn sightings round).card ∧
        0 < s.fraction ∧ s.fraction ≤ 1 ∧
        (s.fraction = 1 ↔
          ∀ s' ∈ sightings, s'.round = round → ⟨s'.relay, round, s.auth⟩ ∈ sightings) ∧
        (s.relayCount < 2 ^ 53 → s.IsRounded)) ∧
      (∀ a ∈ listing sightings round order, ∀ b ∈ listing sightings round order,
        a.relayCount ≤ 2 ^ 51 → (a.toFloat < b.toFloat ↔ a.fraction < b.fraction)) ∧
      (listing sightings round order = [] ↔ ∀ s ∈ sightings, s.round ≠ round) ∧
      (listing sightings round order).Pairwise (Precedes order)) ∧
    listing sightings round .descending =
      (tiers (listing sightings round .ascending)).reverse.flatten ∧
    (listing sightings round .descending = (listing sightings round .ascending).reverse ↔
      (listing sightings round .ascending).Pairwise fun a b => a.fraction ≠ b.fraction) := by
  refine ⟨fun order => ⟨?_, fun auth => mem_map_auth_listing, fun s hs => ?_,
    fun a ha b hb => toFloat_lt_iff_of_mem_listing ha hb, listing_eq_nil_iff,
    pairwise_precedes_listing sightings round order⟩,
    listing_descending_eq sightings round, listing_descending_eq_reverse_iff sightings round⟩
  · exact (perm_map_auth_listing sightings round order).nodup_iff.mpr
      (Sighting.nodup_authsOf _)
  · obtain ⟨hfraction, hpos, hle, hall⟩ := fraction_of_mem_listing hs
    exact ⟨relayCount_pos hs, hfraction, hpos, hle, hall,
      fun hfew => (isPart_of_mem_listing hs hfew).isRounded⟩

/-- All three relays of round 5 sighted A, and one each B and C. -/
def roundFive : List Sighting :=
  [⟨"r3", 5, "C"⟩, ⟨"r1", 5, "A"⟩, ⟨"r2", 5, "A"⟩, ⟨"r1", 5, "B"⟩, ⟨"r2", 5, "A"⟩,
    ⟨"r4", 6, "B"⟩, ⟨"r3", 5, "A"⟩]

theorem listings_are_ranked_roundFive :
    listing roundFive 5 .ascending = [⟨5, "B", 1, 3⟩, ⟨5, "C", 1, 3⟩, ⟨5, "A", 3, 3⟩] ∧
      listing roundFive 5 .descending = [⟨5, "A", 3, 3⟩, ⟨5, "B", 1, 3⟩, ⟨5, "C", 1, 3⟩] ∧
      fraction ⟨5, "A", 3, 3⟩ = 1 ∧ fraction ⟨5, "B", 1, 3⟩ ≠ 1 ∧
      |Rounding.value (toFloat ⟨5, "B", 1, 3⟩) - 1 / 3| ≤ 1 / 3 / 2 ^ 53 ∧
      toFloat ⟨5, "B", 1, 3⟩ < toFloat ⟨5, "A", 3, 3⟩ ∧
      listing roundFive 5 .descending ≠ (listing roundFive 5 .ascending).reverse := by
  have hascending : listing roundFive 5 .ascending =
      [⟨5, "B", 1, 3⟩, ⟨5, "C", 1, 3⟩, ⟨5, "A", 3, 3⟩] := by decide +kernel
  obtain ⟨hlistings, -, hreverse⟩ := listings_are_ranked roundFive 5
  obtain ⟨-, -, hshares, hfloats, -, -⟩ := hlistings .ascending
  have hA : ⟨5, "A", 3, 3⟩ ∈ listing roundFive 5 .ascending := by simp [hascending]
  have hB : ⟨5, "B", 1, 3⟩ ∈ listing roundFive 5 .ascending := by simp [hascending]
  obtain ⟨-, -, -, -, hall, -⟩ := hshares _ hA
  obtain ⟨-, -, -, -, hsome, hrounded⟩ := hshares _ hB
  refine ⟨hascending, by decide +kernel, hall.mpr (by decide +kernel), ?_, ?_,
    (hfloats _ hB _ hA (by decide)).mpr ?_, ?_⟩
  · exact fun h => absurd (hsome.mp h) (by decide +kernel)
  · simpa [fraction, quotient] using (hrounded (by decide)).abs_value_sub_le
  · norm_num [fraction, quotient]
  · rw [ne_eq, hreverse, hascending]
    decide +kernel

end Share
end VoteTrace
