import Mathlib.Data.List.Forall2
import VoteTrace.Proofs.Spread.Crossings
import VoteTrace.Proofs.Spread.FirstHops

/-!
Traces over fewer rows: rows that no hop is walked over can be left out.

Main statement: the hops stay as they are. Such rows still speak of the relays of first hops, so
these may change, unless the rows left out touch neither the origin nor a peer of its links.

No second walk is followed. What is walked over the rows that stay unfolds from its first hops
by the same rule, and only one list does.
-/

namespace VoteTrace

/-- The entries at the places to be kept. -/
def keepAt {α : Type} (keep : Nat → Bool) (l : List α) : List α :=
  (l.zipIdx.filter fun x => keep x.2).map Prod.fst

section KeepAt

variable {α β : Type} {keep : Nat → Bool} {l : List α}

theorem filterMap_keepAt {f : α → Option β}
    (h : ∀ j a, l[j]? = some a → keep j = false → f a = none) :
    (keepAt keep l).filterMap f = l.filterMap f := by
  conv_rhs => rw [← List.zipIdx_map_fst 0 l]
  rw [keepAt, List.filterMap_map, List.filterMap_map, List.filterMap_filter]
  apply List.filterMap_congr
  rintro ⟨a, j⟩ hmem
  split
  · rfl
  · rename_i hkeep
    exact (h j a (List.mk_mem_zipIdx_iff_getElem?.mp hmem) (by simpa using hkeep)).symm

theorem filter_keepAt {p : α → Bool} (h : ∀ j a, l[j]? = some a → p a = true → keep j = true) :
    (keepAt keep l).filter p = l.filter p := by
  rw [← List.filterMap_eq_filter]
  apply filterMap_keepAt
  intro j a hget hkeep
  have hp : ¬p a = true := fun hp => by simp [h j a hget hp] at hkeep
  simp [hp]

theorem findSome?_keepAt {f : α → Option β}
    (h : ∀ j a, l[j]? = some a → keep j = false → f a = none) :
    (keepAt keep l).findSome? f = l.findSome? f := by
  rw [← List.head?_filterMap, ← List.head?_filterMap, filterMap_keepAt h]

end KeepAt

theorem onwardRows_keepAt {keep : Nat → Bool} {rows : List Connection} {spent : List String}
    {guid : String}
    (h : ∀ j row, rows[j]? = some row → row ∈ onwardRows rows spent guid → keep j = true) :
    onwardRows (keepAt keep rows) spent guid = onwardRows rows spent guid := by
  rw [onwardRows, onwardRows, filter_keepAt]
  intro j row hget hrow
  apply h j row hget
  rw [onwardRows, List.mem_reverse, List.mem_filter]
  exact ⟨List.mem_of_getElem? hget, hrow⟩

namespace Arrival

/-- The arrival when nothing is known of relays. -/
def withoutRelays (a : Arrival) : Arrival :=
  { a with hop := { a.hop with relay := none, parentRelay := none } }

theorem next_withoutRelays (rows : List Connection) (earlier : List Arrival) (a : Arrival) :
    next rows (earlier.map withoutRelays) a.withoutRelays = next rows earlier a := by
  simp only [next, List.map_map]
  rfl

end Arrival

/-- What follows from hops does not depend on their relays. -/
theorem offspring_map_withoutRelays (rows : List Connection) (arrivals : List Arrival) :
    offspring (Arrival.next rows) (arrivals.map Arrival.withoutRelays) =
      offspring (Arrival.next rows) arrivals := by
  rw [offspring_map]
  simp only [Arrival.next_withoutRelays]

/-- The same placement, but for what rows tell of the relays of a first hop. -/
structure Placement.SameButFirstRelays (p q : Placement) : Prop where
  fields_eq : { q with relay := p.relay, parentRelay := p.parentRelay, seen := p.seen } = p
  eq_of_level_ne : p.level ≠ 1 → q = p

theorem Placement.SameButFirstRelays.refl (p : Placement) : p.SameButFirstRelays p :=
  ⟨rfl, fun _ => rfl⟩

namespace Spread

variable {keep : Nat → Bool} {rows : List Connection} {o : Origin} {seen : RelaySet}

theorem map_withoutRelays_firsts (rows rows' : List Connection) (o : Origin) :
    (firsts rows o).map Arrival.withoutRelays = (firsts rows' o).map Arrival.withoutRelays := by
  simp only [firsts, seedHops, List.map_map]
  rfl

/-- Other rows may tell other relays of the first hops. -/
theorem map_withoutRelays_walked (rows rows' : List Connection) (o : Origin) :
    (firsts rows' o ++ offspring (Arrival.next rows) (walked rows o)).map
        Arrival.withoutRelays =
      (walked rows o).map Arrival.withoutRelays := by
  conv_rhs => rw [walked_eq]
  rw [List.map_append, List.map_append, map_withoutRelays_firsts rows' rows]

theorem sameButFirstRelays_ofLink (rows rows' : List Connection) (o : Origin) (seen : RelaySet)
    (link : Connection) : (Placement.ofLink rows o seen link).SameButFirstRelays
      (Placement.ofLink rows' o seen link) :=
  ⟨rfl, fun h => absurd rfl h⟩

section Kept

variable (hkeep : ∀ j row, rows[j]? = some row → (ofOrigin rows o seen).Crosses row →
  keep j = true)

include hkeep

theorem next_keepAt {earlier later : List Arrival} {a : Arrival}
    (h : walked rows o = earlier ++ a :: later) :
    Arrival.next (keepAt keep rows) earlier a = Arrival.next rows earlier a := by
  rw [Arrival.next, Arrival.next, onwardRows_keepAt]
  intro j row hget hrow
  obtain ⟨-, hsource, hpeer, hspent⟩ := mem_onwardRows.mp hrow
  exact hkeep j row hget (crosses_iff.mpr ⟨hpeer, earlier, a, later, h, hsource, hspent⟩)

/-- Over the rows that stay the same hops follow as before from first hops that need differ in
relays only. -/
theorem walked_keepAt :
    walked (keepAt keep rows) o =
      firsts (keepAt keep rows) o ++ offspring (Arrival.next rows) (walked rows o) := by
  apply eq_of_eq_offspring Arrival.notMem_and_ne_of_mem_next (walked_eq _ o)
  congr 1
  calc
    offspring (Arrival.next rows) (walked rows o) =
        offspring (Arrival.next (keepAt keep rows)) (walked rows o) :=
      offspring_congr fun _ _ _ h => (next_keepAt hkeep h).symm
    _ = offspring (Arrival.next (keepAt keep rows))
        ((walked rows o).map Arrival.withoutRelays) :=
      (offspring_map_withoutRelays _ _).symm
    _ = offspring (Arrival.next (keepAt keep rows)) (firsts (keepAt keep rows) o ++
        offspring (Arrival.next rows) (walked rows o)) := by
      rw [← map_withoutRelays_walked rows (keepAt keep rows), offspring_map_withoutRelays]

theorem map_level_walked_keepAt :
    (walked (keepAt keep rows) o).map Arrival.level = (walked rows o).map Arrival.level := by
  have hlevels := congrArg (List.map Arrival.level)
    (map_withoutRelays_walked rows (keepAt keep rows) o)
  rw [← walked_keepAt hkeep] at hlevels
  rwa [List.map_map, List.map_map] at hlevels

theorem forall₂_placements_keepAt :
    List.Forall₂ Placement.SameButFirstRelays (ofOrigin rows o seen).placements
      (ofOrigin (keepAt keep rows) o seen).placements := by
  have hplaced : (ofOrigin rows o seen).placements = Placement.ofOrigin o ::
      (o.seeds.map (Placement.ofLink rows o seen) ++
        (offspring (Arrival.next rows) (walked rows o)).map (Arrival.place seen)) := by
    rw [placements_ofOrigin, ← map_place_firsts, ← List.map_append, ← walked_eq]
  rw [hplaced, placements_ofOrigin, walked_keepAt hkeep, List.map_append, map_place_firsts]
  refine .cons (.refl _) (List.rel_append ?_ ?_)
  · rw [List.forall₂_map_left_iff, List.forall₂_map_right_iff, List.forall₂_same]
    intro link _
    exact sameButFirstRelays_ofLink _ _ o seen link
  · exact List.forall₂_same.mpr fun p _ => .refl p

end Kept

/-- Rows that touch neither the origin nor a peer of its links say nothing of first hops. -/
theorem firsts_keepAt
    (hquiet : ∀ j row, rows[j]? = some row → keep j = false →
      (o.guid ≠ "" → row.touches o.guid = false) ∧
        ∀ link ∈ o.seeds, row.touches link.peer.guid = false) :
    firsts (keepAt keep rows) o = firsts rows o := by
  rw [firsts, firsts, seedHops, seedHops]
  congr 1
  apply List.map_congr_left
  intro link hlink
  have hrelays : HopRelays.ofRows (keepAt keep rows) o.guid link.peer.guid =
      HopRelays.ofRows rows o.guid link.peer.guid := by
    rw [HopRelays.ofRows, HopRelays.ofRows, findSome?_keepAt]
    intro j row hget hdeleted
    obtain ⟨horigin, hpeers⟩ := hquiet j row hget hdeleted
    apply HopRelays.ofRow?_eq_none_iff.mpr
    rintro (⟨-, htouches⟩ | ⟨hguid, htouches⟩)
    · exact Bool.eq_false_iff.mp (hpeers link hlink) htouches
    · exact Bool.eq_false_iff.mp (horigin hguid) htouches
  rw [Hop.seed, Hop.seed, hrelays]

/-- Rows that are not walked can be left out: the hops stay, and all that is placed stays but
for the relays of first hops, which stay too if no row left out touches the origin or a peer of
its links. -/
theorem trace_keepAt (rows : List Connection) (o : Origin) (seen : RelaySet) :
    ∃ s, trace rows (some o) seen = .ok s ∧
      ∀ keep : Nat → Bool,
        (∀ j row, rows[j]? = some row → s.Crosses row → keep j = true) →
        ∃ s', trace (keepAt keep rows) (some o) seen = .ok s' ∧
          s'.tally.hops = s.tally.hops ∧ s'.tally.rings = s.tally.rings ∧
          List.Forall₂ Placement.SameButFirstRelays s.placements s'.placements ∧
          ((∀ j row, rows[j]? = some row → keep j = false →
            (o.guid ≠ "" → row.touches o.guid = false) ∧
              ∀ link ∈ o.seeds, row.touches link.peer.guid = false) →
            s'.placements = s.placements) := by
  refine ⟨ofOrigin rows o seen, rfl, ?_⟩
  intro keep hkeep
  obtain ⟨hhops, hrings⟩ := hops_eq_and_rings_eq (map_level_walked_keepAt hkeep) seen seen
  refine ⟨ofOrigin (keepAt keep rows) o seen, rfl, hhops, hrings,
    forall₂_placements_keepAt hkeep, ?_⟩
  intro hquiet
  rw [placements_ofOrigin, placements_ofOrigin, walked_keepAt hkeep, firsts_keepAt hquiet,
    ← walked_eq]

/-- A tangle with a way onward, its way back, and a row that no vote reaches. -/
def wideTangle : List Connection :=
  tangle ++ [.between "d" "e", .between "e" "d", .between "q" "r"]

theorem trace_keepAt_wideTangle :
    ∃ s s', trace wideTangle (some tangleOrigin) .empty = .ok s ∧
      (keepAt (· ∉ [5, 7, 8]) wideTangle).length = 6 ∧
      trace (keepAt (· ∉ [5, 7, 8]) wideTangle) (some tangleOrigin) .empty = .ok s' ∧
      s'.placements = s.placements ∧ s'.tally.hops = 7 := by
  obtain ⟨s, hs, hkept⟩ := trace_keepAt wideTangle tangleOrigin .empty
  have heq : ofOrigin wideTangle tangleOrigin .empty = s := Except.ok.inj hs
  have hwalked : ∀ x ∈ wideTangle.zipIdx, s.Crosses x.1 → decide (x.2 ∉ [5, 7, 8]) = true := by
    subst heq
    decide +kernel
  have hquiet : ∀ x ∈ wideTangle.zipIdx, decide (x.2 ∉ [5, 7, 8]) = false →
      (tangleOrigin.guid ≠ "" → x.1.touches tangleOrigin.guid = false) ∧
        ∀ link ∈ tangleOrigin.seeds, x.1.touches link.peer.guid = false := by
    decide +kernel
  obtain ⟨s', hs', hhops, -, -, hsame⟩ := hkept (· ∉ [5, 7, 8])
    fun j row hget => hwalked (row, j) (List.mk_mem_zipIdx_iff_getElem?.mpr hget)
  refine ⟨s, s', hs, by decide +kernel, hs', hsame
    fun j row hget => hquiet (row, j) (List.mk_mem_zipIdx_iff_getElem?.mpr hget), ?_⟩
  rw [hhops]
  subst heq
  decide +kernel

end Spread
end VoteTrace
