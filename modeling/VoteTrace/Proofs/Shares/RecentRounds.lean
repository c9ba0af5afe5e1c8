import Mathlib.Data.Finset.Card
import Mathlib.Data.List.Induction
import VoteTrace.Proofs.Shares.Pairs

namespace VoteTrace

namespace RoundRow

/-- Rows in the order of their rounds, one of each. -/
def Ordered (table : List RoundRow) : Prop :=
  table.Pairwise fun a b => a.round < b.round

theorem mem_put {table : List RoundRow} (h : Ordered table) {row x : RoundRow} :
    x ∈ put table row ↔ x = row ∨ x ∈ table ∧ x.round ≠ row.round := by
  induction table with
  | nil => simp [put]
  | cons r rest ih =>
      obtain ⟨hr, hrest⟩ := List.pairwise_cons.mp h
      unfold put
      split
      · rename_i hlt
        have hne : ∀ y ∈ r :: rest, y.round ≠ row.round := by
          intro y hy
          rcases List.mem_cons.mp hy with rfl | hy
          · exact (UInt64.ne_of_lt hlt).symm
          · exact (UInt64.ne_of_lt (UInt64.lt_trans hlt (hr y hy))).symm
        rw [List.mem_cons]
        exact or_congr_right (and_iff_left_of_imp (hne x)).symm
      · split
        · rename_i heq
          have hne : ∀ y ∈ rest, y.round ≠ row.round := fun y hy =>
            heq ▸ (UInt64.ne_of_lt (hr y hy)).symm
          simp only [List.mem_cons]
          grind
        · simp only [List.mem_cons, ih hrest]
          grind

theorem ordered_put {table : List RoundRow} (h : Ordered table) (row : RoundRow) :
    Ordered (put table row) := by
  induction table with
  | nil => simp [put, Ordered]
  | cons r rest ih =>
      obtain ⟨hr, hrest⟩ := List.pairwise_cons.mp h
      unfold put
      split
      · rename_i hlt
        refine List.pairwise_cons.mpr ⟨fun y hy => ?_, h⟩
        rcases List.mem_cons.mp hy with rfl | hy
        · exact hlt
        · exact UInt64.lt_trans hlt (hr y hy)
      · rename_i hle
        split
        · rename_i heq
          exact List.pairwise_cons.mpr ⟨heq ▸ hr, hrest⟩
        · rename_i hne
          refine List.pairwise_cons.mpr ⟨fun y hy => ?_, ih hrest⟩
          rcases (mem_put hrest).mp hy with rfl | hy
          · exact UInt64.lt_of_le_of_ne (UInt64.not_lt.mp hle) (Ne.symm hne)
          · exact hr y hy.1

/-- No later row is of the same round. -/
def IsLastIn (rows : List RoundRow) (row : RoundRow) : Prop :=
  ∃ earlier later, rows = earlier ++ row :: later ∧ ∀ r ∈ later, r.round ≠ row.round

theorem isLastIn_append_singleton {rows : List RoundRow} {row x : RoundRow} :
    IsLastIn (rows ++ [row]) x ↔ x = row ∨ IsLastIn rows x ∧ x.round ≠ row.round := by
  constructor
  · rintro ⟨earlier, later, heq, hlater⟩
    rcases List.eq_nil_or_concat later with rfl | ⟨later, r, rfl⟩
    · exact .inl (List.cons.inj (List.append_inj_right' heq rfl)).1.symm
    · have heq : rows ++ [row] = (earlier ++ x :: later) ++ [r] := by simpa using heq
      obtain ⟨hrows, hrow⟩ := List.append_inj' heq rfl
      obtain rfl : row = r := (List.cons.inj hrow).1
      refine .inr ⟨⟨earlier, later, hrows, fun r hr => hlater r (by simp [hr])⟩, ?_⟩
      exact (hlater row (by simp)).symm
  · rintro (rfl | ⟨⟨earlier, later, rfl, hlater⟩, hne⟩)
    · exact ⟨rows, [], rfl, by simp⟩
    · refine ⟨earlier, later ++ [row], by simp, fun r hr => ?_⟩
      rcases List.mem_append.mp hr with hr | hr
      · exact hlater r hr
      · obtain rfl := List.mem_singleton.mp hr
        exact hne.symm

theorem Ordered.isLastIn {rows : List RoundRow} (h : Ordered rows) {row : RoundRow}
    (hrow : row ∈ rows) : IsLastIn rows row := by
  obtain ⟨earlier, later, rfl⟩ := List.append_of_mem hrow
  obtain ⟨hlater, -⟩ := List.pairwise_cons.mp (List.pairwise_append.mp h).2.1
  exact ⟨earlier, later, rfl, fun r hr => (UInt64.ne_of_lt (hlater r hr)).symm⟩

theorem IsLastIn.mem {rows : List RoundRow} {row : RoundRow} (h : IsLastIn rows row) :
    row ∈ rows := by
  obtain ⟨earlier, later, rfl, -⟩ := h
  simp

theorem getLast?_filter_eq_some_iff {rows : List RoundRow} {round : UInt64} {row : RoundRow} :
    (rows.filter fun r => r.round == round).getLast? = some row ↔
      IsLastIn rows row ∧ row.round = round := by
  induction rows using List.reverseRecOn with
  | nil => simp [IsLastIn]
  | append_singleton rows r ih =>
      rw [List.filter_append, isLastIn_append_singleton]
      by_cases hr : r.round = round
      · simp [hr]
        grind
      · simp [hr]
        grind

theorem ordered_foldl_put {table : List RoundRow} (h : Ordered table) (rows : List RoundRow) :
    Ordered (rows.foldl put table) := by
  induction rows generalizing table with
  | nil => exact h
  | cons row rows ih => exact ih (ordered_put h row)

theorem mem_foldl_put {table : List RoundRow} (h : Ordered table) {rows : List RoundRow}
    {x : RoundRow} :
    x ∈ rows.foldl put table ↔
      IsLastIn rows x ∨ x ∈ table ∧ ∀ r ∈ rows, r.round ≠ x.round := by
  induction rows using List.reverseRecOn with
  | nil => simp [IsLastIn]
  | append_singleton rows row ih =>
      rw [List.foldl_append, List.foldl_cons, List.foldl_nil,
        mem_put (ordered_foldl_put h rows), ih, isLastIn_append_singleton]
      simp only [List.forall_mem_append, List.forall_mem_singleton]
      grind

end RoundRow

namespace Telemetry

open RoundRow

/-- The row speaks for its round: it is the last report, or without one it is drawn from the
sightings. -/
def Tells (t : Telemetry) (row : RoundRow) : Prop :=
  IsLastIn t.rounds row ∨
    (∀ r ∈ t.rounds, r.round ≠ row.round) ∧ row = RoundRow.ofSightings t.sightings row.round

/-- The rounds that were sighted or reported. -/
def toldRounds (t : Telemetry) : Finset UInt64 :=
  (t.sightings.map Sighting.round ++ t.rounds.map RoundRow.round).toFinset

theorem pairwise_lt_ofList (rounds : List UInt64) :
    (Ascending.ofList compare rounds).Pairwise (· < ·) := by
  refine (Ascending.pairwise_ofList rounds).imp ?_
  intro round round' h
  exact compareOfLessAndEq_eq_lt.mp h

theorem ofSightings_sightingsOf (t : Telemetry) (round : UInt64) :
    RoundRow.ofSightings (t.sightingsOf round) round =
      RoundRow.ofSightings t.sightings round :=
  RoundRow.ofSightings_congr (t.pairs_sightingsOf round)

theorem ordered_sightedRows (t : Telemetry) : Ordered t.sightedRows :=
  List.pairwise_map.mpr (pairwise_lt_ofList _)

theorem mem_sightedRows {t : Telemetry} {row : RoundRow} :
    row ∈ t.sightedRows ↔ (∃ s ∈ t.sightings, s.round = row.round) ∧
      row = RoundRow.ofSightings t.sightings row.round := by
  simp only [sightedRows, sightedRounds, ofSightings_sightingsOf, List.mem_map,
    Ascending.mem_ofList]
  constructor
  · rintro ⟨round, ⟨s, hs, rfl⟩, rfl⟩
    exact ⟨⟨s, hs, rfl⟩, rfl⟩
  · rintro ⟨⟨s, hs, hround⟩, heq⟩
    exact ⟨row.round, ⟨s, hs, hround⟩, heq.symm⟩

theorem ordered_foldl_put_nil (rows : List RoundRow) : Ordered (rows.foldl put []) :=
  ordered_foldl_put .nil rows

theorem ordered_roundTable (t : Telemetry) : Ordered t.roundTable :=
  ordered_foldl_put (ordered_foldl_put_nil _) _

theorem mem_roundTable {t : Telemetry} {row : RoundRow} :
    row ∈ t.roundTable ↔ row.round ∈ t.toldRounds ∧ t.Tells row := by
  have hsighted : row ∈ t.sightedRows.foldl put [] ↔ row ∈ t.sightedRows := by
    rw [mem_foldl_put .nil]
    constructor
    · rintro (hlast | ⟨hnil, -⟩)
      · exact hlast.mem
      · exact absurd hnil List.not_mem_nil
    · intro hrow
      exact .inl (t.ordered_sightedRows.isLastIn hrow)
  have hlast : IsLastIn t.rounds row → row.round ∈ t.toldRounds := by
    rintro ⟨earlier, later, heq, -⟩
    simp [toldRounds, heq]
  have hmem : row.round ∈ t.toldRounds ↔
      (∃ s ∈ t.sightings, s.round = row.round) ∨ ∃ r ∈ t.rounds, r.round = row.round := by
    simp [toldRounds]
  rw [roundTable, mem_foldl_put (ordered_foldl_put_nil _), Tells, hsighted, mem_sightedRows]
  grind

theorem exists_tells (t : Telemetry) (round : UInt64) :
    ∃ row, row.round = round ∧ t.Tells row := by
  cases hlast : (t.rounds.filter fun r => r.round == round).getLast? with
  | some last =>
      obtain ⟨hisLast, hround⟩ := getLast?_filter_eq_some_iff.mp hlast
      exact ⟨last, hround, .inl hisLast⟩
  | none =>
      have hnone : ∀ r ∈ t.rounds, r.round ≠ round := by
        simpa [List.getLast?_eq_none_iff] using hlast
      exact ⟨RoundRow.ofSightings t.sightings round, rfl, .inr ⟨hnone, rfl⟩⟩

theorem toFinset_map_round_roundTable (t : Telemetry) :
    (t.roundTable.map RoundRow.round).toFinset = t.toldRounds := by
  ext round
  simp only [List.mem_toFinset, List.mem_map, mem_roundTable]
  constructor
  · rintro ⟨row, ⟨htold, -⟩, rfl⟩
    exact htold
  · intro htold
    obtain ⟨row, rfl, htells⟩ := t.exists_tells round
    exact ⟨row, ⟨htold, htells⟩, rfl⟩

theorem length_roundTable (t : Telemetry) : t.roundTable.length = t.toldRounds.card := by
  have hnodup : (t.roundTable.map RoundRow.round).Nodup := by
    refine (List.pairwise_map.mpr t.ordered_roundTable).imp ?_
    rintro round _ hlt rfl
    exact UInt64.lt_irrefl _ hlt
  rw [← toFinset_map_round_roundTable, List.toFinset_card_of_nodup hnodup, List.length_map]

/-- The latest rounds are the newest of all that were sighted or reported, newest first, each
told by its last report or else by its sightings; a longer listing begins with a shorter one. -/
theorem latestRounds_are_newest (t : Telemetry) (limit : Nat) :
    ((t.latestRounds limit).map RoundRow.round).Pairwise (· > ·) ∧
      (t.latestRounds limit).length = min limit t.toldRounds.card ∧
      (∀ row ∈ t.latestRounds limit, row.round ∈ t.toldRounds ∧ t.Tells row ∧
        ∀ round ∈ t.toldRounds, round ∉ (t.latestRounds limit).map RoundRow.round →
          round < row.round) ∧
      ∀ more, limit ≤ more → t.latestRounds limit <+: t.latestRounds more := by
  have hdown : t.roundTable.reverse.Pairwise fun a b => b.round < a.round :=
    List.pairwise_reverse.mpr t.ordered_roundTable
  rw [latestRounds]
  refine ⟨?_, ?_, ?_, ?_⟩
  · exact List.pairwise_map.mpr (hdown.sublist (List.take_sublist _ _))
  · rw [List.length_take, List.length_reverse, length_roundTable]
  · intro row hrow
    have hmem : row ∈ t.roundTable := List.mem_reverse.mp (List.mem_of_mem_take hrow)
    obtain ⟨htold, htells⟩ := mem_roundTable.mp hmem
    refine ⟨htold, htells, fun round hround hnot => ?_⟩
    -- A round that is not among the first rows is among those behind them.
    rw [← toFinset_map_round_roundTable, List.mem_toFinset] at hround
    obtain ⟨other, hother, rfl⟩ := List.mem_map.mp hround
    rw [← List.mem_reverse, ← List.take_append_drop limit t.roundTable.reverse] at hother
    rcases List.mem_append.mp hother with hother | hother
    · exact absurd (List.mem_map_of_mem hother) hnot
    · rw [← List.take_append_drop limit t.roundTable.reverse] at hdown
      exact (List.pairwise_append.mp hdown).2.2 row hrow other hother
  · intro more hmore
    exact List.take_prefix_take_left hmore

/-- Rounds 5, 6 and 9 were sighted; round 6 was reported twice, and round 8 once. -/
def gazette : Telemetry :=
  { Telemetry.empty with
    sightings := [⟨"r1", 9, "A"⟩, ⟨"r1", 5, "B"⟩, ⟨"r2", 6, "A"⟩, ⟨"r1", 5, "A"⟩]
    rounds := [⟨6, 7, 7, 0, 2⟩, ⟨8, 4, 9, 0, 2⟩, ⟨6, 3, 8, 1, 2⟩] }

theorem latestRounds_are_newest_gazette :
    gazette.latestRounds 3 = [⟨9, 1, 1, 0, 0⟩, ⟨8, 4, 9, 0, 2⟩, ⟨6, 3, 8, 1, 2⟩] ∧
      gazette.Tells ⟨6, 3, 8, 1, 2⟩ ∧ (5 : UInt64) < 6 ∧
      gazette.latestRounds 3 <+: gazette.latestRounds 20 := by
  have hlisted : gazette.latestRounds 3 =
      [⟨9, 1, 1, 0, 0⟩, ⟨8, 4, 9, 0, 2⟩, ⟨6, 3, 8, 1, 2⟩] := by decide +kernel
  obtain ⟨-, -, hrows, hlonger⟩ := latestRounds_are_newest gazette 3
  obtain ⟨-, htells, hnewer⟩ := hrows ⟨6, 3, 8, 1, 2⟩ (by simp [hlisted])
  refine ⟨hlisted, htells, hnewer 5 (by decide +kernel) (by rw [hlisted]; decide), ?_⟩
  exact hlonger 20 (by decide)

end Telemetry
end VoteTrace
