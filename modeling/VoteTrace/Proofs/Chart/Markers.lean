import VoteTrace.Chart.MapView
import VoteTrace.Proofs.Spread.Balance

namespace VoteTrace

namespace GeoPoint

/-- Both parts are finite, and the longitude is within the bounds of the map. -/
structure OnMap (point : GeoPoint) : Prop where
  lat_finite : point.lat.isFinite = true
  long_finite : point.long.isFinite = true
  abs_long_le : point.long.abs ≤ 90

theorem isPlottable_iff {point : GeoPoint} : point.isPlottable = true ↔ point.OnMap := by
  rw [isPlottable, Bool.and_eq_true, Bool.and_eq_true]
  constructor
  · rintro ⟨⟨hlat, hlong⟩, hbound⟩
    exact ⟨hlat, hlong, of_decide_eq_true hbound⟩
  · rintro ⟨hlat, hlong, hbound⟩
    exact ⟨⟨hlat, hlong⟩, decide_eq_true hbound⟩

instance (point : GeoPoint) : Decidable point.OnMap :=
  decidable_of_iff (point.isPlottable = true) isPlottable_iff

end GeoPoint

namespace MapView

/-- The placements that can be shown, with their points. -/
def drawable (ps : List Placement) : List (Placement × GeoPoint) :=
  ps.filterMap fun p => (p.point.filter fun point => point.OnMap).map fun point => (p, point)

def longitude (entry : Placement × GeoPoint) : UInt64 := entry.2.long.toBits

/-- The placements that are shown: of those that can be, the first of each longitude. -/
def shown (ps : List Placement) : List (Placement × GeoPoint) :=
  firstsBy longitude (drawable ps)

/-- The ends of the hop that is drawn to a shown placement. -/
def hopEnds? : Placement × GeoPoint → Option (GeoPoint × GeoPoint)
  | (p, point) =>
    if p.parent = none then none
    else (p.parentPoint.filter fun source => source.OnMap).map fun source => (source, point)

theorem drawable_append (ps qs : List Placement) :
    drawable (ps ++ qs) = drawable ps ++ drawable qs :=
  List.filterMap_append

theorem mem_drawable {ps : List Placement} {p : Placement} {point : GeoPoint} :
    (p, point) ∈ drawable ps ↔ p ∈ ps ∧ p.point = some point ∧ point.OnMap := by
  simp only [drawable, List.mem_filterMap, Option.map_eq_some_iff, Option.filter_eq_some_iff,
    decide_eq_true_eq, Prod.mk.injEq]
  constructor
  · rintro ⟨q, hq, other, hother, rfl, rfl⟩
    exact ⟨hq, hother⟩
  · rintro ⟨hp, hpoint⟩
    exact ⟨p, hp, point, hpoint, rfl, rfl⟩

theorem map_fst_drawable_sublist (ps : List Placement) :
    ((drawable ps).map Prod.fst).Sublist ps := by
  induction ps with
  | nil => exact .slnil
  | cons p ps ih =>
      rw [drawable, List.filterMap_cons]
      cases p.point.filter fun point => point.OnMap with
      | none => exact ih.cons p
      | some point => exact ih.cons_cons p

theorem onMap_of_mem_shown {ps : List Placement} {p : Placement} {point : GeoPoint}
    (h : (p, point) ∈ shown ps) : point.OnMap :=
  (mem_drawable.mp ((firstsBy_sublist _ _).subset h)).2.2

theorem plottable_eq (point : Option GeoPoint) :
    plottable point = point.filter fun point => point.OnMap := by
  rw [plottable]
  congr 1
  funext point
  rw [Bool.eq_iff_iff, decide_eq_true_eq]
  exact GeoPoint.isPlottable_iff

theorem shown_cons (p : Placement) (ps : List Placement) :
    shown (p :: ps) = match p.point.filter fun point => point.OnMap with
      | none => shown ps
      | some point => (p, point) ::
          (shown ps).filter fun entry => longitude entry ≠ longitude (p, point) := by
  rw [shown, drawable, List.filterMap_cons]
  cases p.point.filter fun point => point.OnMap with
  | none => rfl
  | some point => exact firstsBy_cons longitude (p, point) (drawable ps)

/-- The hops as segments, numbered from 2 without gaps. -/
def numbered (legs : List (GeoPoint × GeoPoint)) : List Segment :=
  (legs.zipIdx 2).map fun (leg, order) => ⟨leg.1, leg.2, UInt32.ofNat order⟩

theorem numbered_append_singleton (legs : List (GeoPoint × GeoPoint))
    (source target : GeoPoint) :
    numbered (legs ++ [(source, target)]) =
      numbered legs ++ [⟨source, target, UInt32.ofNat (2 + legs.length)⟩] := by
  rw [numbered, List.zipIdx_append, List.map_append]
  rfl

theorem Sketch.connect_keeps (k : Sketch) (p : Placement) (point : GeoPoint) :
    (k.connect p point).used = k.used ∧ (k.connect p point).view.markers = k.view.markers := by
  rw [connect, plottable_eq]
  split
  · exact ⟨rfl, rfl⟩
  · split <;> exact ⟨rfl, rfl⟩

theorem Sketch.center_connect (k : Sketch) {p : Placement} {point : GeoPoint}
    (h : p.isRoot = false) : (k.connect p point).view.center = k.view.center := by
  rw [connect, if_neg (by simp [h])]
  split <;> rfl

theorem Sketch.connect_hop (k : Sketch) (p : Placement) (point : GeoPoint) :
    (k.connect p point).view.segments = k.view.segments ++
        (hopEnds? (p, point)).toList.map (fun ends => ⟨ends.1, ends.2, k.order⟩) ∧
      (k.connect p point).order = k.order + UInt32.ofNat (hopEnds? (p, point)).toList.length := by
  cases hparent : p.parent with
  | none => simp [connect, hopEnds?, Placement.isRoot, hparent]
  | some guid =>
      rw [connect, if_neg (by simp [Placement.isRoot, hparent]), plottable_eq, hopEnds?,
        if_neg (by simp [hparent])]
      cases p.parentPoint.filter fun source => source.OnMap with
      | none => simp
      | some source => exact ⟨rfl, rfl⟩

/-- The sketch has come so far: it shows the first entry of each longitude. -/
structure Sketch.Draws (k : Sketch) (entries : List (Placement × GeoPoint)) : Prop where
  mem_used_iff : ∀ bits, bits ∈ k.used ↔ bits ∈ entries.map longitude
  center_eq : k.view.center =
    ((firstsBy longitude entries).filter fun entry => entry.1.isRoot).getLast?.map Prod.snd
  markers_eq : k.view.markers = (firstsBy longitude entries).map marker
  segments_eq : k.view.segments = numbered ((firstsBy longitude entries).filterMap hopEnds?)
  order_eq : k.order = UInt32.ofNat (2 + ((firstsBy longitude entries).filterMap hopEnds?).length)

theorem Sketch.draws_blank : blank.Draws [] :=
  ⟨fun _ => Iff.rfl, rfl, rfl, rfl, rfl⟩

section Step

variable {k : Sketch} {entries : List (Placement × GeoPoint)} {p : Placement} {point : GeoPoint}

theorem Sketch.Draws.append_taken (h : k.Draws entries)
    (htaken : longitude (p, point) ∈ entries.map longitude) :
    k.Draws (entries ++ [(p, point)]) := by
  have hfirsts : firstsBy longitude (entries ++ [(p, point)]) = firstsBy longitude entries := by
    rw [firstsBy_append_singleton, if_pos htaken]
  refine ⟨?_, hfirsts ▸ h.center_eq, hfirsts ▸ h.markers_eq, hfirsts ▸ h.segments_eq,
    hfirsts ▸ h.order_eq⟩
  intro bits
  rw [h.mem_used_iff, List.map_append, List.mem_append, List.map_singleton, List.mem_singleton]
  constructor
  · exact Or.inl
  · rintro (hbits | rfl)
    · exact hbits
    · exact htaken

/-- A new longitude is marked, and the hop there has the next number. -/
theorem Sketch.Draws.append_fresh (h : k.Draws entries)
    (hfresh : longitude (p, point) ∉ entries.map longitude) :
    ((k.connect p point).mark p point).Draws (entries ++ [(p, point)]) := by
  have hfirsts : firstsBy longitude (entries ++ [(p, point)]) =
      firstsBy longitude entries ++ [(p, point)] := by
    rw [firstsBy_append_singleton, if_neg hfresh]
  have hlegs : (firstsBy longitude (entries ++ [(p, point)])).filterMap hopEnds? =
      (firstsBy longitude entries).filterMap hopEnds? ++ (hopEnds? (p, point)).toList := by
    rw [hfirsts, List.filterMap_append]
    cases hends : hopEnds? (p, point) <;> simp [hends]
  obtain ⟨hused, hmarkers⟩ := k.connect_keeps p point
  obtain ⟨hsegments, horder⟩ := k.connect_hop p point
  refine ⟨?_, ?_, ?_, ?_, ?_⟩
  · intro bits
    simp [mark, hused, h.mem_used_iff, longitude, or_comm, eq_comm]
  · rw [hfirsts, List.filter_append, mark]
    cases hroot : p.isRoot with
    | true => simp [connect, hroot]
    | false => simp [k.center_connect hroot, hroot, h.center_eq]
  · rw [hfirsts, List.map_append, mark, hmarkers, h.markers_eq]
    rfl
  · rw [hlegs, mark, hsegments, h.segments_eq, h.order_eq]
    cases hopEnds? (p, point) with
    | none => simp
    | some ends => exact (numbered_append_singleton _ ends.1 ends.2).symm
  · rw [hlegs, mark, horder, h.order_eq, ← UInt32.ofNat_add, List.length_append, Nat.add_assoc]

end Step

theorem Sketch.Draws.add {k : Sketch} {ps : List Placement} (h : k.Draws (drawable ps))
    (p : Placement) : (k.add p).Draws (drawable (ps ++ [p])) := by
  rw [Sketch.add, plottable_eq, drawable_append]
  cases hpoint : p.point.filter fun point => point.OnMap with
  | none =>
      have hnone : drawable [p] = [] := by simp [drawable, hpoint]
      rw [hnone, List.append_nil]
      exact h
  | some point =>
      have hsome : drawable [p] = [(p, point)] := by simp [drawable, hpoint]
      have hused := h.mem_used_iff (longitude (p, point))
      rw [hsome]
      show (if longitude (p, point) ∈ k.used then k else (k.connect p point).mark p point).Draws _
      split
      · rename_i htaken
        exact h.append_taken (hused.mp htaken)
      · rename_i hfresh
        exact h.append_fresh (hfresh ∘ hused.mpr)

theorem Sketch.draws_foldl (ps : List Placement) : (ps.foldl add blank).Draws (drawable ps) := by
  induction ps using List.reverseRecOn with
  | nil => exact draws_blank
  | append_singleton ps p ih =>
      rw [List.foldl_append]
      exact ih.add p

theorem center_ofSpread (s : Spread) : (ofSpread s).center =
    ((shown s.placements).filter fun entry => entry.1.isRoot).getLast?.map Prod.snd :=
  (Sketch.draws_foldl s.placements).center_eq

theorem markers_ofSpread (s : Spread) :
    (ofSpread s).markers = (shown s.placements).map marker :=
  (Sketch.draws_foldl s.placements).markers_eq

theorem segments_ofSpread (s : Spread) :
    (ofSpread s).segments = numbered ((shown s.placements).filterMap hopEnds?) :=
  (Sketch.draws_foldl s.placements).segments_eq

theorem map_ends_numbered (legs : List (GeoPoint × GeoPoint)) :
    (numbered legs).map (fun segment => (segment.source, segment.target)) = legs := by
  rw [numbered, List.map_map]
  exact List.zipIdx_map_fst 2 legs

theorem order_numbered {legs : List (GeoPoint × GeoPoint)} (h : legs.length < UInt32.size - 2)
    {i : Nat} {segment : Segment} (hget : (numbered legs)[i]? = some segment) :
    segment.order.toNat = i + 2 := by
  rw [numbered, List.getElem?_map, List.getElem?_zipIdx, Option.map_map,
    Option.map_eq_some_iff] at hget
  obtain ⟨leg, hleg, rfl⟩ := hget
  obtain ⟨hi, -⟩ := List.getElem?_eq_some_iff.mp hleg
  rw [Function.comp_apply, UInt32.toNat_ofNat_of_lt' (by omega)]
  omega

/-- The map shows of a spread what it can, as the first of its longitude. -/
structure Shows (view : MapView) (s : Spread) : Prop where
  markers_eq : view.markers = (shown s.placements).map fun (p, point) => ⟨point, p.level, p.name⟩
  ends_eq : view.segments.map (fun segment => (segment.source, segment.target)) =
    (shown s.placements).filterMap hopEnds?
  order_eq : ∀ i segment, view.segments[i]? = some segment → segment.order.toNat = i + 2
  nodup_longitudes : (view.markers.map fun m => m.point.long.toBits).Nodup
  exists_marker : ∀ p ∈ s.placements, ∀ point, p.point = some point → point.OnMap →
    ∃ m ∈ view.markers, m.point.long.toBits = point.long.toBits
  marker_onMap : ∀ m ∈ view.markers, m.point.OnMap
  segment_onMap : ∀ segment ∈ view.segments, segment.source.OnMap ∧ segment.target.OnMap
  center_onMap : ∀ point, view.center = some point → point.OnMap

theorem length_legs_le (s : Spread) :
    ((shown s.placements).filterMap hopEnds?).length ≤ s.size := by
  calc
    _ ≤ (shown s.placements).length := List.length_filterMap_le _ _
    _ ≤ (drawable s.placements).length := (firstsBy_sublist _ _).length_le
    _ ≤ s.size := List.length_filterMap_le _ _

theorem ends_ofSpread (s : Spread) :
    (ofSpread s).segments.map (fun segment => (segment.source, segment.target)) =
      (shown s.placements).filterMap hopEnds? := by
  rw [segments_ofSpread, map_ends_numbered]

theorem hopEnds?_eq_some {p : Placement} {point source target : GeoPoint}
    (h : hopEnds? (p, point) = some (source, target)) :
    p.parent ≠ none ∧ p.parentPoint = some source ∧ source.OnMap ∧ target = point := by
  rw [hopEnds?] at h
  split at h
  · cases h
  · rename_i hparent
    obtain ⟨_, hsource, heq⟩ := Option.map_eq_some_iff.mp h
    obtain ⟨rfl, rfl⟩ := Prod.mk.inj heq
    obtain ⟨hpoint, honMap⟩ := Option.filter_eq_some_iff.mp hsource
    exact ⟨hparent, hpoint, of_decide_eq_true honMap, rfl⟩

/-- Each segment is the hop to a placement that is shown. -/
theorem exists_shown_of_mem_segments {s : Spread} {segment : Segment}
    (h : segment ∈ (ofSpread s).segments) :
    ∃ p, (p, segment.target) ∈ shown s.placements ∧ p.parent ≠ none ∧
      p.parentPoint = some segment.source ∧ segment.source.OnMap := by
  have hmem : (segment.source, segment.target) ∈ (shown s.placements).filterMap hopEnds? :=
    ends_ofSpread s ▸ List.mem_map_of_mem h
  obtain ⟨⟨p, point⟩, hshown, hends⟩ := List.mem_filterMap.mp hmem
  obtain ⟨hparent, hsource, honMap, rfl⟩ := hopEnds?_eq_some hends
  exact ⟨p, hshown, hparent, hsource, honMap⟩

theorem shows_ofSpread {s : Spread} (hsize : s.size < UInt32.size - 2) :
    (ofSpread s).Shows s := by
  have hmarkers := markers_ofSpread s
  refine ⟨hmarkers, ends_ofSpread s, ?_, ?_, ?_, ?_, ?_, ?_⟩
  · intro i segment hget
    rw [segments_ofSpread] at hget
    exact order_numbered (Nat.lt_of_le_of_lt (length_legs_le s) hsize) hget
  · rw [hmarkers, List.map_map]
    exact nodup_map_firstsBy longitude (drawable s.placements)
  · intro p hp point hpoint honMap
    obtain ⟨entry, hentry, hkey⟩ :=
      exists_mem_firstsBy longitude (mem_drawable.mpr ⟨hp, hpoint, honMap⟩)
    rw [hmarkers]
    exact ⟨marker entry, List.mem_map_of_mem hentry, hkey⟩
  · intro m hm
    rw [hmarkers] at hm
    obtain ⟨entry, hentry, rfl⟩ := List.mem_map.mp hm
    exact onMap_of_mem_shown hentry
  · intro segment hsegment
    obtain ⟨p, hshown, -, -, honMap⟩ := exists_shown_of_mem_segments hsegment
    exact ⟨honMap, onMap_of_mem_shown hshown⟩
  · intro point hcenter
    rw [center_ofSpread] at hcenter
    obtain ⟨entry, hentry, rfl⟩ := Option.map_eq_some_iff.mp hcenter
    exact onMap_of_mem_shown (List.mem_filter.mp (List.mem_of_getLast? hentry)).1

/-- The map of a trace starts at the origin and goes outwards. -/
structure StartsAt (view : MapView) (o : Origin) : Prop where
  center_eq_some_iff : ∀ point, view.center = some point ↔ o.point = some point ∧ point.OnMap
  head_marker : ∀ point, view.center = some point →
    view.markers.head? = some ⟨point, 0, o.name⟩
  level_le : view.markers.Pairwise fun m n => m.level ≤ n.level

section Trace

variable {rows : List Connection} {o : Origin} {seen : RelaySet}

/-- The origin is shown first, if at all, and nothing else that is shown is a root. -/
theorem exists_shown_placements (rows : List Connection) (o : Origin) (seen : RelaySet) :
    ∃ hops : List (Placement × GeoPoint), (∀ entry ∈ hops, entry.1.isRoot = false) ∧
      shown (Spread.ofOrigin rows o seen).placements =
        match o.point.filter fun point => point.OnMap with
        | none => hops
        | some point => (Placement.ofOrigin o, point) :: hops := by
  have hroot : ∀ entry ∈ shown ((Spread.walked rows o).map (Arrival.place seen)),
      entry.1.isRoot = false := by
    rintro ⟨p, point⟩ hentry
    obtain ⟨hp, -⟩ := mem_drawable.mp ((firstsBy_sublist _ _).subset hentry)
    obtain ⟨a, -, rfl⟩ := List.mem_map.mp hp
    rfl
  have hpoint : (Placement.ofOrigin o).point = o.point := rfl
  rw [Spread.placements_ofOrigin, shown_cons, hpoint]
  cases o.point.filter fun point => point.OnMap with
  | none => exact ⟨_, hroot, rfl⟩
  | some point => exact ⟨_, fun entry hentry => hroot entry (List.mem_filter.mp hentry).1, rfl⟩

theorem center_and_head_markers (rows : List Connection) (o : Origin) (seen : RelaySet) :
    (ofSpread (Spread.ofOrigin rows o seen)).center = o.point.filter (fun point => point.OnMap) ∧
      ∀ point, o.point.filter (fun point => point.OnMap) = some point →
        (ofSpread (Spread.ofOrigin rows o seen)).markers.head? = some ⟨point, 0, o.name⟩ := by
  obtain ⟨hops, hroot, hshown⟩ := exists_shown_placements rows o seen
  have hnoRoot : hops.filter (fun entry => entry.1.isRoot) = [] := by
    rw [List.filter_eq_nil_iff]
    intro entry hentry
    simp [hroot entry hentry]
  rw [center_ofSpread, markers_ofSpread, hshown]
  cases o.point.filter fun point => point.OnMap with
  | none => simp [hnoRoot]
  | some point =>
      have hroots : ((Placement.ofOrigin o, point) :: hops).filter (fun entry => entry.1.isRoot) =
          [(Placement.ofOrigin o, point)] := by
        rw [List.filter_cons_of_pos rfl, hnoRoot]
      refine ⟨by simp only [hroots]; rfl, ?_⟩
      intro other hother
      cases hother
      rfl

theorem startsAt_ofOrigin (hsize : (Spread.ofOrigin rows o seen).size < UInt32.size - 2) :
    (ofSpread (Spread.ofOrigin rows o seen)).StartsAt o := by
  obtain ⟨hcenter, hhead⟩ := center_and_head_markers rows o seen
  refine ⟨?_, ?_, ?_⟩
  · intro point
    rw [hcenter, Option.filter_eq_some_iff, decide_eq_true_eq]
  · intro point hpoint
    exact hhead point (hcenter ▸ hpoint)
  · have hlevels : (Spread.ofOrigin rows o seen).placements.Pairwise fun p q =>
        p.level ≤ q.level := by
      apply Spread.pairwise_level_placements
      intro a ha
      have hlt := Spread.level_lt_size ha seen
      omega
    have hshown : ((shown (Spread.ofOrigin rows o seen).placements).map Prod.fst).Sublist
        (Spread.ofOrigin rows o seen).placements :=
      ((firstsBy_sublist _ _).map Prod.fst).trans (map_fst_drawable_sublist _)
    have hsorted := hlevels.sublist hshown
    rw [List.pairwise_map] at hsorted
    rw [markers_ofSpread, List.pairwise_map]
    exact hsorted

end Trace

/-- A map has a marker for the first placement of each longitude within its bounds, and a
segment for each of them with a parent within the bounds; and the map of a trace starts at the
origin. -/
theorem shows_first_longitudes (s : Spread) (hsize : s.size < UInt32.size - 2) :
    (ofSpread s).Shows s ∧
      ∀ rows o seen, Spread.trace rows (some o) seen = .ok s → (ofSpread s).StartsAt o := by
  refine ⟨shows_ofSpread hsize, ?_⟩
  intro rows o seen htrace
  obtain rfl : Spread.ofOrigin rows o seen = s := Except.ok.inj htrace
  exact startsAt_ofOrigin hsize

/-- A row with the places of its two nodes, as far as they are known. -/
def located (source peer : String) (sourcePoint peerPoint : Option GeoPoint) : Connection :=
  ⟨⟨source, source, none, sourcePoint.map GeoPoint.lat, sourcePoint.map GeoPoint.long⟩,
    ⟨peer, peer, none, peerPoint.map GeoPoint.lat, peerPoint.map GeoPoint.long⟩⟩

/-- Ways on from a node within the bounds, from one whose place is not known, and from one out
of the bounds; and a node on the longitude of another. -/
def coast : List Connection :=
  [located "e" "h" none (some ⟨55, 10⟩), located "d" "g" (some ⟨1, 2⟩) (some ⟨3, 4⟩),
    located "c" "f" (some ⟨5, 6⟩) (some ⟨7, 8⟩), located "b" "e" none (some ⟨20, 30⟩)]

def coastOrigin : Origin :=
  { Origin.withLinks "a"
      [located "a" "b" none (some ⟨50, 10⟩), located "a" "c" none none,
        located "a" "d" none (some ⟨10, 95⟩)] with
    point := some ⟨40, -70⟩ }

/-- The origin twice, the second time as a document may have it, and between and behind them what
can be shown and what cannot. -/
def strewn : Spread :=
  { placements :=
      [.ofOrigin coastOrigin,
        ⟨1, some "a", "b", "b", none, none, some ⟨50, 10⟩, some ⟨40, -70⟩, false⟩,
        ⟨1, some "a", "c", "c", none, none, some ⟨0.0 / 0.0, 20⟩, some ⟨40, -70⟩, false⟩,
        ⟨2, some "b", "d", "d", none, none, some ⟨51, 10⟩, some ⟨50, 10⟩, false⟩,
        .ofOrigin { coastOrigin with point := some ⟨40, -60⟩ },
        ⟨2, some "c", "e", "e", none, none, some ⟨7, 8⟩, some ⟨0.0 / 0.0, 20⟩, false⟩,
        ⟨2, some "b", "f", "f", none, none, some ⟨20, 30⟩, some ⟨50, 10⟩, false⟩]
    tally := ⟨0, 0, 0, 0, 0⟩ }

theorem shows_first_longitudes_strewn :
    strewn.size < UInt32.size - 2 ∧ (ofSpread strewn).Shows strewn ∧
      (ofSpread strewn).center = some ⟨40, -60⟩ ∧
      (ofSpread strewn).markers.map Marker.name = ["a", "b", "a", "e", "f"] ∧
      (ofSpread strewn).segments =
        [⟨⟨40, -70⟩, ⟨50, 10⟩, 2⟩, ⟨⟨50, 10⟩, ⟨20, 30⟩, 3⟩] ∧
      ∃ s, Spread.trace coast (some coastOrigin) .empty = .ok s ∧ s.size < UInt32.size - 2 ∧
        (ofSpread s).StartsAt coastOrigin ∧
        (ofSpread s).markers.map (fun m => (m.level, m.name)) =
          [(0, "a"), (1, "b"), (2, "e"), (2, "f"), (2, "g")] := by
  obtain ⟨hshows, -⟩ := shows_first_longitudes strewn (by decide)
  have hsize : (Spread.ofOrigin coast coastOrigin .empty).size < UInt32.size - 2 := by
    decide +kernel
  obtain ⟨-, hstarts⟩ := shows_first_longitudes _ hsize
  exact ⟨by decide, hshows, by decide +kernel, by decide +kernel, by decide +kernel, _, rfl, hsize,
    hstarts coast coastOrigin .empty rfl, by decide +kernel⟩

end MapView
end VoteTrace
