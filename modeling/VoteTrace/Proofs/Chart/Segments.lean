import VoteTrace.Proofs.Chart.Markers
import VoteTrace.Proofs.Spread.Tracks

namespace VoteTrace

namespace Spread

/-- At the position is the first placement within the bounds of the map that has the longitude of
the point, so it is the one that is shown for it. -/
structure IsShownAt (s : Spread) (i : Nat) (p : Placement) (point : GeoPoint) : Prop where
  getElem?_eq : s.placements[i]? = some p
  point_eq : p.point = some point
  onMap : point.OnMap
  long_ne : ∀ j < i, ∀ q other, s.placements[j]? = some q → q.point = some other →
    other.OnMap → other.long.toBits ≠ point.long.toBits

theorem IsShownAt.le {s : Spread} {i j : Nat} {p q : Placement} {point : GeoPoint}
    (h : s.IsShownAt i p point) (h' : s.IsShownAt j q point) : i ≤ j := by
  by_contra hlt
  exact h.long_ne j (by omega) q point h'.getElem?_eq h'.point_eq h'.onMap rfl

theorem IsShownAt.unique {s : Spread} {i j : Nat} {p q : Placement} {point : GeoPoint}
    (h : s.IsShownAt i p point) (h' : s.IsShownAt j q point) : i = j ∧ p = q := by
  obtain rfl : i = j := Nat.le_antisymm (h.le h') (h'.le h)
  exact ⟨rfl, Option.some.inj (h.getElem?_eq.symm.trans h'.getElem?_eq)⟩

end Spread

namespace MapView

theorem exists_isShownAt {s : Spread} {p : Placement} {point : GeoPoint}
    (h : (p, point) ∈ shown s.placements) : ∃ i, s.IsShownAt i p point := by
  obtain ⟨-, hpoint, honMap⟩ := mem_drawable.mp ((firstsBy_sublist _ _).subset h)
  obtain ⟨earlier, later, hdrawable, hnew⟩ := mem_firstsBy.mp h
  obtain ⟨before, rest, hplacements, rfl, hrest⟩ := List.filterMap_eq_append_iff.mp hdrawable
  obtain ⟨between, q, behind, rfl, hbetween, hq, -⟩ := List.filterMap_eq_cons_iff.mp hrest
  obtain ⟨_, -, heq⟩ := Option.map_eq_some_iff.mp hq
  obtain rfl : q = p := congrArg Prod.fst heq
  have hempty : drawable between = [] := List.filterMap_eq_nil_iff.mpr hbetween
  rw [← List.append_assoc] at hplacements
  refine ⟨(before ++ between).length, by simp [hplacements], hpoint, honMap, ?_⟩
  intro j hj r other hr hother hotherMap heq
  rw [hplacements, List.getElem?_append_left hj] at hr
  have hmem : (r, other) ∈ drawable before := by
    rw [← List.append_nil (drawable before), ← hempty, ← drawable_append]
    exact mem_drawable.mpr ⟨List.mem_of_getElem? hr, hother, hotherMap⟩
  exact hnew (List.mem_map.mpr ⟨(r, other), hmem, heq⟩)

/-- What is shown before a placement is what the placements before it show alone. -/
theorem exists_shown_eq {s : Spread} {i : Nat} {p : Placement} {point : GeoPoint}
    (h : s.IsShownAt i p point) :
    ∃ rest, shown s.placements = shown (s.placements.take i) ++ (p, point) :: rest := by
  have hdrawable : drawable (p :: s.placements.drop (i + 1)) =
      (p, point) :: drawable (s.placements.drop (i + 1)) :=
    List.filterMap_cons_some (by simp [h.point_eq, h.onMap])
  have hnew : longitude (p, point) ∉ (drawable (s.placements.take i)).map longitude := by
    intro hmem
    obtain ⟨⟨q, other⟩, hq, heq⟩ := List.mem_map.mp hmem
    obtain ⟨hq, hother, hotherMap⟩ := mem_drawable.mp hq
    obtain ⟨j, hj, hget⟩ := List.mem_take_iff_getElem.mp hq
    exact h.long_ne j (by omega) q other (List.getElem?_eq_some_iff.mpr ⟨by omega, hget⟩) hother
      hotherMap heq
  conv in shown s.placements => rw [eq_append_cons_of_getElem? h.getElem?_eq]
  rw [shown, drawable_append, hdrawable, firstsBy_append, firstsBy_cons,
    List.filter_cons_of_pos (by simpa using hnew)]
  exact ⟨_, rfl⟩

/-- Where the segment of a hop starts: at the placement that the hop came from, or where that has
no point, at the near side of the link or row. -/
structure StartsFrom (view : MapView) (segment : Segment) (p q : Placement) (row : Connection) :
    Prop where
  of_point : ∀ point, q.point = some point → segment.source = point ∧
    ∃ before after, view.markers = before ++ ⟨segment.target, p.level, p.name⟩ :: after ∧
      ∃ m ∈ before, m.point.long.toBits = point.long.toBits
  of_none : q.point = none → row.source.point = some segment.source

/-- A placement within the bounds that comes before one that is shown has a marker at its
longitude before the other's. -/
theorem exists_earlier_marker {s : Spread} {i j : Nat} {p q : Placement}
    {point target : GeoPoint} (h : s.IsShownAt i p target) (hj : j < i)
    (hq : s.placements[j]? = some q) (hpoint : q.point = some point) (honMap : point.OnMap) :
    ∃ before after, (ofSpread s).markers = before ++ ⟨target, p.level, p.name⟩ :: after ∧
      ∃ m ∈ before, m.point.long.toBits = point.long.toBits := by
  obtain ⟨rest, hshown⟩ := exists_shown_eq h
  have hmem : (q, point) ∈ drawable (s.placements.take i) := by
    have htake : (s.placements.take i)[j]? = some q := by rw [List.getElem?_take_of_lt hj, hq]
    exact mem_drawable.mpr ⟨List.mem_of_getElem? htake, hpoint, honMap⟩
  obtain ⟨entry, hentry, heq⟩ := exists_mem_firstsBy longitude hmem
  refine ⟨(shown (s.placements.take i)).map marker, rest.map marker, ?_, marker entry,
    List.mem_map_of_mem hentry, heq⟩
  rw [markers_ofSpread, hshown, List.map_append, List.map_cons]
  rfl

section Trace

variable {rows : List Connection} {o : Origin} {seen : RelaySet}

theorem exists_startsFrom (hrows : rows.length < UInt32.size - 1) {segment : Segment}
    (h : segment ∈ (ofSpread (Spread.ofOrigin rows o seen)).segments) :
    ∃ i p q row, (Spread.ofOrigin rows o seen).IsShownAt (i + 1) p segment.target ∧
      (Spread.ofOrigin rows o seen).cameFrom? p = some q ∧
      (Spread.tracks rows o (Spread.ofOrigin rows o seen))[i]? = some row ∧
      Spread.Follows rows o seen p q row ∧
      (ofSpread (Spread.ofOrigin rows o seen)).StartsFrom segment p q row := by
  obtain ⟨p, hshown, hparent, hsource, honMap⟩ := exists_shown_of_mem_segments h
  obtain ⟨i, hat⟩ := exists_isShownAt hshown
  cases i with
  | zero =>
      have hroot := hat.getElem?_eq
      rw [Spread.placements_ofOrigin, List.getElem?_cons_zero] at hroot
      cases hroot
      exact absurd rfl hparent
  | succ i =>
      obtain ⟨j, q, row, hj, hq, hcame, hrow, hfollows⟩ :=
        Spread.exists_track hrows hat.getElem?_eq
      rw [hfollows.parentPoint_eq] at hsource
      refine ⟨i, p, q, row, hat, hcame, hrow, hfollows, ?_, ?_⟩
      · intro point hpoint
        rw [hpoint, Option.some_or, Option.some.injEq] at hsource
        subst hsource
        exact ⟨rfl, exists_earlier_marker hat (Nat.lt_succ_of_le hj) hq hpoint honMap⟩
      · intro hnone
        rwa [hnone, Option.none_or] at hsource

end Trace

/-- Every segment of a traced map starts where the placement is from which its hop came, and only
if that has no point at the near side of the hop's link or row; a hop from a point out of the
bounds has no segment. -/
theorem segments_start_at_parents (rows : List Connection) (o : Origin) (seen : RelaySet)
    (hrows : rows.length < UInt32.size - 1) :
    ∃ s, Spread.trace rows (some o) seen = .ok s ∧
      (∀ segment ∈ (ofSpread s).segments, ∃ i p q row,
        s.IsShownAt (i + 1) p segment.target ∧ s.cameFrom? p = some q ∧
          (Spread.tracks rows o s)[i]? = some row ∧ Spread.Follows rows o seen p q row ∧
          (ofSpread s).StartsFrom segment p q row) ∧
      ∀ p q point, s.cameFrom? p = some q → q.point = some point → ¬point.OnMap →
        ∀ segment ∈ (ofSpread s).segments, ∀ i, ¬s.IsShownAt i p segment.target := by
  refine ⟨Spread.ofOrigin rows o seen, rfl, fun segment h => exists_startsFrom hrows h, ?_⟩
  intro p q point hcame hpoint hoff segment hsegment i hat
  obtain ⟨i', p', q', row, hat', hcame', -, -, hstarts⟩ := exists_startsFrom hrows hsegment
  obtain ⟨-, rfl⟩ := hat.unique hat'
  obtain rfl : q = q' := Option.some.inj (hcame.symm.trans hcame')
  obtain ⟨-, -, -, -, honMap⟩ := exists_shown_of_mem_segments hsegment
  obtain ⟨rfl, -⟩ := hstarts.of_point point hpoint
  exact hoff honMap

theorem segments_start_at_parents_coast :
    coast.length < UInt32.size - 1 ∧
      ∃ s, Spread.trace coast (some coastOrigin) .empty = .ok s ∧
        (ofSpread s).segments.map (fun segment => (segment.source, segment.target)) =
          [(⟨40, -70⟩, ⟨50, 10⟩), (⟨50, 10⟩, ⟨20, 30⟩), (⟨5, 6⟩, ⟨7, 8⟩)] ∧
        (∀ segment ∈ (ofSpread s).segments, ∃ p q row,
          s.cameFrom? p = some q ∧ (ofSpread s).StartsFrom segment p q row) ∧
        ∃ p ∈ s.placements, p.name = "g" ∧ p.point = some ⟨3, 4⟩ ∧ p.parentPoint = some ⟨10, 95⟩ ∧
          ∀ segment ∈ (ofSpread s).segments, ∀ i, ¬s.IsShownAt i p segment.target := by
  obtain ⟨s, hs, hsegments, hoff⟩ :=
    segments_start_at_parents coast coastOrigin .empty (by decide)
  have heq : Spread.ofOrigin coast coastOrigin .empty = s := Except.ok.inj hs
  have hfrom : ∃ p ∈ s.placements, p.name = "g" ∧ p.point = some ⟨3, 4⟩ ∧
      p.parentPoint = some ⟨10, 95⟩ ∧
      (s.cameFrom? p).bind Placement.point = some ⟨10, 95⟩ := by
    subst heq
    decide +kernel
  obtain ⟨p, hp, hname, hpoint, hparentPoint, hcame⟩ := hfrom
  obtain ⟨q, hcame, hqpoint⟩ := Option.bind_eq_some_iff.mp hcame
  refine ⟨by decide, s, hs, ?_, ?_, p, hp, hname, hpoint, hparentPoint, ?_⟩
  · subst heq
    decide +kernel
  · intro segment hsegment
    obtain ⟨i, p, q, row, -, hcame, -, -, hstarts⟩ := hsegments segment hsegment
    exact ⟨p, q, row, hcame, hstarts⟩
  · exact hoff p q ⟨10, 95⟩ hcame hqpoint (by decide +kernel)

end MapView
end VoteTrace
