import Mathlib.Algebra.BigOperators.Group.List.Lemmas
import Mathlib.Algebra.BigOperators.Ring.Finset
import Mathlib.Algebra.Field.Rat
import VoteTrace.Proofs.Shares.Pairs

namespace VoteTrace

/-- Entries counted by a key that each of them has. -/
theorem sum_map_countP_eq_length {α β : Type} [DecidableEq β] {f : α → β} {keys : List β}
    {l : List α} (hnodup : keys.Nodup) (hkeys : ∀ b, b ∈ keys ↔ b ∈ l.map f) :
    (keys.map fun b => l.countP fun a => f a == b).sum = l.length := by
  have hperm : keys.Perm (l.map f).dedup := by
    apply (List.perm_ext_iff_of_nodup hnodup (List.nodup_dedup _)).mpr
    intro b
    rw [List.mem_dedup, hkeys]
  calc
    (keys.map fun b => l.countP fun a => f a == b).sum =
        (keys.map fun b => (l.map f).count b).sum := by
      simp only [List.count_eq_countP, List.countP_map, Function.comp_def]
    _ = ((l.map f).dedup.map fun b => (l.map f).count b).sum := (hperm.map _).sum_eq
    _ = (l.map f).length := List.sum_map_count_dedup_eq_length _
    _ = l.length := List.length_map f

namespace Sighting

variable {pairs : List (String × String)}

theorem mem_relaysOf {relay : String} : relay ∈ relaysOf pairs ↔ relay ∈ pairs.map Prod.fst :=
  Ascending.mem_ofList

theorem mem_authsOf {auth : String} : auth ∈ authsOf pairs ↔ auth ∈ pairs.map Prod.snd :=
  Ascending.mem_ofList

theorem pairwise_lt_relaysOf (pairs : List (String × String)) :
    (relaysOf pairs).Pairwise (· < ·) := by
  rw [relaysOf]
  refine (Ascending.pairwise_ofList _).imp ?_
  intro relay relay' h
  exact compareOfLessAndEq_eq_lt.mp h

theorem nodup_authsOf (pairs : List (String × String)) : (authsOf pairs).Nodup :=
  Ascending.nodup_ofList _

theorem sum_countP_relaysOf (pairs : List (String × String)) :
    ((relaysOf pairs).map fun relay => pairs.countP fun pair => pair.1 == relay).sum =
      pairs.length :=
  sum_map_countP_eq_length (Ascending.nodup_ofList _) fun _ => mem_relaysOf

theorem sum_countP_authsOf (pairs : List (String × String)) :
    ((authsOf pairs).map fun auth => pairs.countP fun pair => pair.2 == auth).sum =
      pairs.length :=
  sum_map_countP_eq_length (nodup_authsOf _) fun _ => mem_authsOf

end Sighting

namespace Share

/-- The share when the division is exact. -/
def fraction (s : Share) : ℚ := s.quotient Nat.cast

theorem auth_eq_of_compareIn_eq {order : ShareOrder} {a b : Share}
    (h : compareIn order a b = .eq) : a.auth = b.auth := by
  cases order with
  | ascending => exact Std.LawfulEqCmp.eq_of_compare (Ordering.then_eq_eq.mp h).2
  | descending => exact Std.LawfulEqCmp.eq_of_compare (Ordering.then_eq_eq.mp h).2

theorem map_auth_ofPairs (round : UInt64) (pairs : List (String × String)) :
    (ofPairs round pairs).map auth = Sighting.authsOf pairs := by
  rw [ofPairs, List.map_map]
  exact List.map_id _

/-- No two shares are of one authenticator, so sorting them drops none. -/
theorem perm_listing (sightings : List Sighting) (round : UInt64) (order : ShareOrder) :
    (listing sightings round order).Perm (ofPairs round (Sighting.pairs sightings round)) := by
  apply Ascending.perm_ofList
  have hnodup := Sighting.nodup_authsOf (Sighting.pairs sightings round)
  rw [← map_auth_ofPairs round] at hnodup
  exact (List.pairwise_map.mp hnodup).imp fun hne heq => hne (auth_eq_of_compareIn_eq heq)

theorem perm_map_auth_listing (sightings : List Sighting) (round : UInt64)
    (order : ShareOrder) : ((listing sightings round order).map auth).Perm
      (Sighting.authsOf (Sighting.pairs sightings round)) := by
  rw [← map_auth_ofPairs round]
  exact (perm_listing sightings round order).map auth

/-- There is no share without a relay to divide by. -/
theorem fraction_mul_of_mem_ofPairs {round : UInt64} {pairs : List (String × String)}
    {s : Share} (h : s ∈ ofPairs round pairs) :
    s.fraction * (Sighting.relaysOf pairs).length =
      (pairs.countP fun pair => pair.2 == s.auth : ℕ) := by
  obtain ⟨auth, hauth, rfl⟩ := List.mem_map.mp h
  obtain ⟨pair, hpair, -⟩ := List.mem_map.mp (Sighting.mem_authsOf.mp hauth)
  have hrelay : pair.1 ∈ Sighting.relaysOf pairs :=
    Sighting.mem_relaysOf.mpr (List.mem_map_of_mem hpair)
  have hne : ((Sighting.relaysOf pairs).length : ℚ) ≠ 0 :=
    Nat.cast_ne_zero.mpr (Nat.ne_of_gt (List.length_pos_of_mem hrelay))
  exact div_mul_cancel₀ _ hne

theorem sum_fraction_mul_listing (sightings : List Sighting) (round : UInt64)
    (order : ShareOrder) :
    ((listing sightings round order).map fun s => (s.fraction *
      (Sighting.relaysOf (Sighting.pairs sightings round)).length : ℚ)).sum =
        (Sighting.pairs sightings round).length := by
  -- A share times the relays depends on its authenticator alone, and those are a permutation.
  have hcounts : (listing sightings round order).map (fun s => (s.fraction *
      (Sighting.relaysOf (Sighting.pairs sightings round)).length : ℚ)) =
        ((listing sightings round order).map auth).map fun auth =>
          (((Sighting.pairs sightings round).countP fun pair => pair.2 == auth : ℕ) : ℚ) := by
    rw [List.map_map]
    apply List.map_congr_left
    intro s hs
    exact fraction_mul_of_mem_ofPairs ((perm_listing sightings round order).subset hs)
  rw [hcounts, ((perm_map_auth_listing sightings round order).map _).sum_eq,
    ← Sighting.sum_countP_authsOf, Nat.cast_list_sum, List.map_map]
  rfl

end Share

/-- Listings of one round that count the same pairs. A share times the number of relays is a
count again, as the division is exact. -/
structure ListingsAgree (loads : List RelayLoad) (shares : ShareOrder → List Share)
    (summary : RoundRow) (matrix : Matrix) : Prop where
  relays_eq : loads.map RelayLoad.relay = matrix.relays
  relays_ascending : matrix.relays.Pairwise (· < ·)
  relays_length : matrix.relays.length = summary.relayCount
  auths_perm : ∃ auths : List String, auths.Nodup ∧ auths.length = summary.authCount ∧
    matrix.auths.Perm auths ∧ ∀ order, ((shares order).map Share.auth).Perm auths
  authCount_eq : ∀ load ∈ loads,
    load.authCount = matrix.pairs.countP fun pair => pair.1 == load.relay
  fraction_mul_eq : ∀ order, ∀ share ∈ shares order,
    share.fraction * summary.relayCount =
      (matrix.pairs.countP fun pair => pair.2 == share.auth : ℕ)
  sum_authCount_eq : (loads.map RelayLoad.authCount).sum = matrix.pairs.length
  sum_fraction_mul_eq : ∀ order,
    ((shares order).map fun share => (share.fraction * summary.relayCount : ℚ)).sum =
      matrix.pairs.length
  relay_on_pair : ∀ relay ∈ matrix.relays, ∃ auth, (relay, auth) ∈ matrix.pairs
  auth_on_pair : ∀ auth ∈ matrix.auths, ∃ relay, (relay, auth) ∈ matrix.pairs

/-- The listings of a round agree, and the pairs they count are those that were sighted. -/
theorem listings_agree (sightings : List Sighting) (round : UInt64) :
    ListingsAgree (RelayLoad.listing sightings round) (Share.listing sightings round)
        (RoundRow.ofSightings sightings round) (Matrix.ofSightings sightings round) ∧
      (Matrix.ofSightings sightings round).pairs.Nodup ∧
      ∀ relay auth, (relay, auth) ∈ (Matrix.ofSightings sightings round).pairs ↔
        ⟨relay, round, auth⟩ ∈ sightings := by
  have hauths := Share.perm_map_auth_listing sightings round
  rw [RelayLoad.listing_eq, RoundRow.ofSightings_eq, Matrix.ofSightings_eq]
  refine ⟨?_, Sighting.nodup_pairs sightings round, fun _ _ => Sighting.mem_pairs⟩
  constructor
  case relays_eq =>
    rw [List.map_map]
    exact List.map_id _
  case relays_ascending => exact Sighting.pairwise_lt_relaysOf _
  case relays_length => rfl
  case auths_perm => exact ⟨_, Sighting.nodup_authsOf _, rfl, hauths .descending, hauths⟩
  case authCount_eq =>
    intro load hload
    obtain ⟨relay, -, rfl⟩ := List.mem_map.mp hload
    rfl
  case fraction_mul_eq =>
    intro order s hs
    exact Share.fraction_mul_of_mem_ofPairs ((Share.perm_listing _ _ order).subset hs)
  case sum_authCount_eq =>
    rw [List.map_map]
    exact Sighting.sum_countP_relaysOf _
  case sum_fraction_mul_eq => exact Share.sum_fraction_mul_listing sightings round
  case relay_on_pair =>
    intro relay hrelay
    obtain ⟨⟨_, auth⟩, hpair, rfl⟩ := List.mem_map.mp (Sighting.mem_relaysOf.mp hrelay)
    exact ⟨auth, hpair⟩
  case auth_on_pair =>
    intro auth hauth
    have hmem := Sighting.mem_authsOf.mp ((hauths .descending).subset hauth)
    obtain ⟨⟨relay, _⟩, hpair, rfl⟩ := List.mem_map.mp hmem
    exact ⟨relay, hpair⟩

end VoteTrace
