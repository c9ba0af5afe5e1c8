import Mathlib.Data.List.Forall2
import Mathlib.Logic.Relation
import VoteTrace.Chart.Flow
import VoteTrace.Chart.Tree
import VoteTrace.Proofs.Spread.Crossings

namespace VoteTrace

namespace FlowLink

/-- The link is the hop to a row of the tree. -/
structure IsHopTo (link : FlowLink) (row : TreeRow) : Prop where
  parent_eq : row.parent = some link.source
  id_eq : row.id = link.target
  weight_eq : link.weight = 1
  relay_eq : row.relay = link.targetRelay.filter (· != "")

/-- One of the links leads from one node to the other. -/
def Joins (links : List FlowLink) (source target : String) : Prop :=
  ∃ link ∈ links, link.source = source ∧ link.target = target

/-- The hop that was walked to an arrival. -/
def ofArrival (a : Arrival) : FlowLink :=
  { source := a.hop.parent
    target := a.node
    weight := 1
    sourceRelay := a.hop.parentRelay
    targetRelay := a.hop.relay }

theorem forall₂_isHopTo (placements : List Placement) :
    List.Forall₂ IsHopTo (placements.filterMap ofPlacement?)
      ((placements.map TreeRow.ofPlacement).filter fun row => row.parent.isSome) := by
  induction placements with
  | nil => exact .nil
  | cons p placements ih =>
      cases hparent : p.parent with
      | none => simpa [ofPlacement?, TreeRow.ofPlacement, hparent] using ih
      | some parent =>
          have hhop : IsHopTo ⟨parent, p.node, 1, p.parentRelay, p.relay⟩ (.ofPlacement p) :=
            ⟨hparent, rfl, rfl, rfl⟩
          simpa [ofPlacement?, TreeRow.ofPlacement, hparent] using List.Forall₂.cons hhop ih

variable {rows : List Connection} {o : Origin}

theorem ofSpread_ofOrigin (rows : List Connection) (o : Origin) (seen : RelaySet) :
    ofSpread (.ofOrigin rows o seen) = (Spread.walked rows o).map ofArrival := by
  have hroot : ofPlacement? (.ofOrigin o) = none := rfl
  rw [ofSpread, Spread.placements_ofOrigin, List.filterMap_cons_none hroot, List.filterMap_map,
    ← List.filterMap_eq_map]
  rfl

theorem source_eq_or_exists_earlier {earlier later : List FlowLink} {link : FlowLink}
    (h : (Spread.walked rows o).map ofArrival = earlier ++ link :: later) :
    link.source = o.guid ∨ ∃ before ∈ earlier, before.target = link.source := by
  obtain ⟨front, rest, hwalked, rfl, hrest⟩ := List.map_eq_append_iff.mp h
  obtain ⟨a, back, rfl, rfl, -⟩ := List.map_eq_cons_iff.mp hrest
  rcases Spread.first_or_onward hwalked with hfirst | ⟨before, b, between, rfl, row, hrow, rfl⟩
  · obtain ⟨first, -, rfl⟩ := Spread.mem_firsts.mp hfirst
    exact .inl rfl
  · obtain ⟨-, hsource, -, -⟩ := mem_onwardRows.mp hrow
    exact .inr ⟨ofArrival b, by simp, hsource.symm⟩

/-- What starts at a root or where an earlier one ended is joined to the root. -/
theorem joins_of_source_eq {links : List FlowLink} {root : String}
    (h : ∀ earlier link later, links = earlier ++ link :: later →
      link.source = root ∨ ∃ before ∈ earlier, before.target = link.source) :
    ∀ link ∈ links, Relation.ReflTransGen (Joins links) root link.target := by
  apply forall_mem_of_forall_earlier
  intro earlier link later hlinks hearlier
  have hjoins : Joins links link.source link.target := ⟨link, by simp [hlinks], rfl, rfl⟩
  rcases h earlier link later hlinks with hroot | ⟨before, hbefore, htarget⟩
  · exact .single (hroot ▸ hjoins)
  · exact .tail (hearlier before hbefore) (htarget ▸ hjoins)

/-- Links that do not start at the origin are those over rows. -/
theorem countP_ofArrival {source : String} (h : source ≠ o.guid) (seen : RelaySet)
    (target : String) :
    ((Spread.walked rows o).map ofArrival).countP
        (fun link => link.source = source ∧ link.target = target) =
      ((crossings rows seen (Spread.walked rows o)).map Prod.fst).countP
        fun p => p.parent = some source ∧ p.node = target := by
  have hfirsts : ((Spread.firsts rows o).map ofArrival).countP
      (fun link => link.source = source ∧ link.target = target) = 0 := by
    rw [List.countP_eq_zero]
    intro link hlink
    obtain ⟨a, ha, rfl⟩ := List.mem_map.mp hlink
    obtain ⟨first, -, rfl⟩ := Spread.mem_firsts.mp ha
    have hne : ¬(ofArrival ⟨1, Hop.seed rows o first⟩).source = source := fun heq => h heq.symm
    simp [hne]
  conv_lhs => rw [Spread.walked_eq]
  rw [List.map_append, List.countP_append, hfirsts, Nat.zero_add, map_fst_crossings,
    List.countP_map, List.countP_map]
  apply List.countP_congr
  intro a _
  rw [Function.comp_apply, Function.comp_apply, decide_eq_true_eq, decide_eq_true_eq]
  exact and_congr_left' Option.some_inj.symm

/-- All rows between two nodes are walked if one is. -/
theorem countP_ofArrival_eq_zero_or {source : String} (h : source ≠ o.guid) (target : String) :
    (((Spread.walked rows o).map ofArrival).countP
        fun link => link.source = source ∧ link.target = target) = 0 ∨
      ((Spread.walked rows o).map ofArrival).countP
          (fun link => link.source = source ∧ link.target = target) =
        rows.countP fun row => row.source.guid = source ∧ row.peer.guid = target := by
  rw [countP_ofArrival h .empty]
  by_cases hwalked : ∃ row, (Spread.ofOrigin rows o .empty).Crosses row ∧
      row.source.guid = source ∧ row.peer.guid = target
  · obtain ⟨row, hcrosses, hsource, htarget⟩ := hwalked
    right
    apply Spread.countP_crossings
    intro row' _ hsource' htarget'
    exact hcrosses.congr (hsource'.trans hsource.symm) (htarget'.trans htarget.symm)
  · left
    rw [List.countP_eq_zero]
    intro p hp hends
    obtain ⟨hparent, hnode⟩ := of_decide_eq_true hends
    obtain ⟨⟨p, j⟩, hmem, rfl⟩ := List.mem_map.mp hp
    obtain ⟨row, -, hcrosses, hover⟩ := Spread.exists_crosses_of_mem_crossings hmem
    exact hwalked ⟨row, hcrosses, Option.some.inj (hover.parent_eq.symm.trans hparent),
      hover.node_eq.symm.trans hnode⟩

/-- The flow of a spread has a link for each row of its tree with a parent, in the same order. Of a
trace these are the rows below the first, one for each hop. Their links hang together from the
origin on, and from another node to the next there are as many as rows or none. -/
theorem links_are_rows_with_parent :
    (∀ s : Spread, List.Forall₂ IsHopTo (ofSpread s)
      ((TreeRow.ofSpread s).filter fun row => row.parent.isSome)) ∧
    ∀ (rows : List Connection) (o : Origin) (seen : RelaySet),
      ∃ s, Spread.trace rows (some o) seen = .ok s ∧
        (∃ root below, TreeRow.ofSpread s = root :: below ∧ root.parent = none ∧
          ∀ row ∈ below, row.parent ≠ none) ∧
        (ofSpread s).length = s.tally.hops ∧
        (∀ earlier link later, ofSpread s = earlier ++ link :: later →
          link.source = o.guid ∨ ∃ before ∈ earlier, before.target = link.source) ∧
        (∀ link ∈ ofSpread s,
          Relation.ReflTransGen (Joins (ofSpread s)) o.guid link.target) ∧
        ∀ source target, source ≠ o.guid →
          ((ofSpread s).countP fun link => link.source = source ∧ link.target = target) = 0 ∨
          ((ofSpread s).countP fun link => link.source = source ∧ link.target = target) =
            rows.countP fun row => row.source.guid = source ∧ row.peer.guid = target := by
  refine ⟨fun s => forall₂_isHopTo s.placements, ?_⟩
  intro rows o seen
  refine ⟨.ofOrigin rows o seen, rfl, ⟨_, _, rfl, rfl, ?_⟩, ?_⟩
  · intro row hrow
    obtain ⟨p, hp, rfl⟩ := List.mem_map.mp hrow
    obtain ⟨a, -, rfl⟩ := List.mem_map.mp hp
    exact Option.some_ne_none _
  · rw [ofSpread_ofOrigin]
    refine ⟨List.length_map _, fun _ _ _ => source_eq_or_exists_earlier, ?_, ?_⟩
    · exact joins_of_source_eq fun _ _ _ => source_eq_or_exists_earlier
    · exact fun source target hsource => countP_ofArrival_eq_zero_or hsource target

/-- Both rows from `b` to `d` are links, and the row back is none. -/
theorem links_are_rows_with_parent_tangle :
    ∃ s, Spread.trace Spread.tangle (some Spread.tangleOrigin) .empty = .ok s ∧
      List.Forall₂ IsHopTo (ofSpread s)
        ((TreeRow.ofSpread s).filter fun row => row.parent.isSome) ∧
      (ofSpread s).length = 6 ∧ "b" ≠ Spread.tangleOrigin.guid ∧
      ((ofSpread s).countP fun link => link.source = "b" ∧ link.target = "d") = 2 ∧
      ((ofSpread s).countP fun link => link.source = "d" ∧ link.target = "b") = 0 ∧
      Relation.ReflTransGen (Joins (ofSpread s)) "a" "d" := by
  obtain ⟨hrows, htraces⟩ := links_are_rows_with_parent
  obtain ⟨s, hs, -, hlength, -, hjoins, hcount⟩ :=
    htraces Spread.tangle Spread.tangleOrigin .empty
  have heq : Spread.ofOrigin Spread.tangle Spread.tangleOrigin .empty = s := Except.ok.inj hs
  have hhops : s.tally.hops = 6 := by
    subst heq
    decide +kernel
  have hlink : ⟨"b", "d", 1, none, none⟩ ∈ ofSpread s := by
    subst heq
    decide +kernel
  refine ⟨s, hs, hrows s, hlength.trans hhops, by decide, ?_, ?_, hjoins _ hlink⟩
  · rcases hcount "b" "d" (by decide) with hnone | hall
    · exact absurd (List.countP_eq_zero.mp hnone _ hlink) (by simp)
    · exact hall.trans (by decide)
  · subst heq
    decide +kernel

end FlowLink
end VoteTrace
