import Mathlib.Data.Nat.PSub
import VoteTrace.Proofs.Earlier
import VoteTrace.Proofs.Spread.Spending

namespace VoteTrace

/-- A sweep part way through: what it has drawn, the slots behind it, and its count. -/
structure Sweep where
  drawn : List Connection
  slots : List Slot
  fresh : Nat

namespace Sweep

variable {guid : String} {slots : List Slot} {fresh : Nat}

def keep (w : Sweep) (s : Slot) : Sweep :=
  { w with slots := s :: w.slots }

/-- Spends a slot; fails if the count is used up. -/
def take? (w : Sweep) (s : Slot) : Option Sweep :=
  (Nat.ppred w.fresh).map fun fresh =>
    { w with slots := { s with spent := true } :: w.slots, fresh := fresh }

def visit? (guid : String) (s : Slot) (w : Sweep) : Option Sweep :=
  if s.spent then some (w.keep s)
  else if s.row.source.guid = guid then take? { w with drawn := w.drawn ++ [s.row] } s
  else if s.row.peer.guid ≠ guid then some (w.keep s)
  else w.take? s

theorem take?_of_pos {w : Sweep} (h : 0 < w.fresh) (s : Slot) :
    w.take? s = some
      { w with slots := { s with spent := true } :: w.slots, fresh := w.fresh - 1 } := by
  obtain ⟨fresh, hfresh⟩ := Nat.exists_eq_succ_of_ne_zero (Nat.ne_of_gt h)
  rw [take?, Nat.ppred_eq_some.mpr hfresh.symm, hfresh]
  rfl

/-- The four ways of a visit at once. -/
theorem visit?_eq (s : Slot) {w : Sweep} (h : s.meets guid = true → 0 < w.fresh) :
    visit? guid s w = some
      { drawn := if s.leaves guid then w.drawn ++ [s.row] else w.drawn
        slots := s.spend guid :: w.slots
        fresh := w.fresh - if s.meets guid then 1 else 0 } := by
  rcases s with ⟨row, spent⟩
  unfold visit?
  cases spent with
  | true => simp [Slot.leaves, Slot.meets, Slot.isFresh, Slot.spend, keep]
  | false =>
      rw [if_neg Bool.false_ne_true]
      by_cases hsource : row.source.guid = guid
      · have hmeets : Slot.meets guid ⟨row, false⟩ = true := by
          simp [Slot.meets, Slot.isFresh, Connection.touches, hsource]
        rw [if_pos hsource, hmeets]
        refine (take?_of_pos ?_ _).trans ?_
        · exact h hmeets
        · simp [Slot.leaves, Slot.isFresh, Slot.spend, Connection.touches, hsource]
      · rw [if_neg hsource]
        by_cases hpeer : row.peer.guid = guid
        · have hmeets : Slot.meets guid ⟨row, false⟩ = true := by
            simp [Slot.meets, Slot.isFresh, Connection.touches, hpeer]
          rw [if_neg (not_not_intro hpeer), take?_of_pos (h hmeets), hmeets]
          simp [Slot.leaves, Slot.isFresh, Slot.spend, Connection.touches, hsource, hpeer]
        · rw [if_pos hpeer]
          simp [Slot.leaves, Slot.meets, Slot.isFresh, Slot.spend, Connection.touches, hsource,
            hpeer, keep]

/-- The induction is from the last slot on, which is visited first. -/
theorem foldrM_visit? (h : slots.countP (Slot.meets guid) ≤ fresh) :
    slots.foldrM (visit? guid) ⟨[], [], fresh⟩ = some
      { drawn := ((slots.filter (Slot.leaves guid)).map Slot.row).reverse
        slots := slots.map (Slot.spend guid)
        fresh := fresh - slots.countP (Slot.meets guid) } := by
  induction slots with
  | nil => rfl
  | cons s slots ih =>
      rw [List.countP_cons] at h
      have hrest : slots.countP (Slot.meets guid) ≤ fresh := by omega
      have hleft : s.meets guid = true → 0 < fresh - slots.countP (Slot.meets guid) := by
        intro hmeets
        rw [if_pos hmeets] at h
        omega
      rw [List.foldrM_cons, ih hrest]
      change visit? guid s _ = _
      rw [visit?_eq s hleft]
      simp only [List.countP_cons, List.map_cons, List.filter_cons, Nat.sub_sub]
      split <;> simp

/-- All along a sweep the count is the number of fresh slots before and behind it. -/
theorem exists_foldrM_visit? {front back : List Slot}
    (h : fresh = (front ++ back).countP Slot.isFresh) (guid : String) :
    ∃ w, back.foldrM (visit? guid) ⟨[], [], fresh⟩ = some w ∧
      w.fresh = (front ++ w.slots).countP Slot.isFresh := by
  have hback := Slot.countP_isFresh_map_spend back guid
  rw [List.countP_append] at h
  refine ⟨_, foldrM_visit? (by omega), ?_⟩
  rw [List.countP_append]
  simp only
  omega

end Sweep

namespace Pool

/-- Spends a node slot by slot; fails if the count is used up before the end. -/
def sweep? (p : Pool) (guid : String) : Option (List Connection × Pool) :=
  (p.slots.foldrM (Sweep.visit? guid) ⟨[], [], p.fresh⟩).map fun w =>
    (w.drawn, ⟨w.slots, w.fresh⟩)

/-- The pool when nodes have been spent one after another. -/
def spendAll (p : Pool) (nodes : List String) : Pool :=
  nodes.foldl (fun p guid => (p.spend guid).2) p

/-- The rows that touch one of the nodes are spent, and the others are counted. -/
structure IsSpentBy (p : Pool) (rows : List Connection) (nodes : List String) : Prop where
  rows_eq : p.slots.map Slot.row = rows
  spent_iff : ∀ s ∈ p.slots, s.spent = true ↔ ∃ guid ∈ nodes, s.row.touches guid
  fresh_eq : p.fresh = p.slots.countP Slot.isFresh
  spentCount_eq : Nat.psub p.slots.length p.fresh = some p.spentCount

/-- The rows that leave a node and touch none of the nodes spent before, at falling places. -/
def IsDrawn (drawn rows : List Connection) (nodes : List String) (guid : String) : Prop :=
  ∃ places : List Nat, places.Pairwise (· > ·) ∧ drawn.map some = places.map (rows[·]?) ∧
    ∀ j, j ∈ places ↔ ∃ row, rows[j]? = some row ∧ row.source.guid = guid ∧
      ∀ spent ∈ nodes, ¬row.touches spent

theorem sweep?_eq {p : Pool} (h : p.fresh = p.slots.countP Slot.isFresh) (guid : String) :
    p.sweep? guid = some (p.scan guid) := by
  have hmeets := Slot.countP_isFresh_map_spend p.slots guid
  rw [sweep?, Sweep.foldrM_visit? (by omega)]
  rfl

theorem spendAll_after (rows : List Connection) (spent nodes : List String) :
    (after rows spent).spendAll nodes = after rows (spent ++ nodes) := by
  induction nodes generalizing spent with
  | nil =>
      rw [List.append_nil]
      rfl
  | cons guid nodes ih =>
      change ((after rows spent).spend guid).2.spendAll nodes = _
      rw [spend_after, ih, List.append_assoc, List.singleton_append]

theorem spendAll_ofRows (rows : List Connection) (nodes : List String) :
    (ofRows rows).spendAll nodes = after rows nodes := by
  rw [← after_nil, spendAll_after, List.nil_append]

theorem isSpentBy_after (rows : List Connection) (nodes : List String) :
    (after rows nodes).IsSpentBy rows nodes := by
  have hfresh := fresh_after rows nodes
  refine ⟨?_, ?_, hfresh, ?_⟩
  · rw [after, List.map_map]
    exact List.map_id _
  · intro s hs
    obtain ⟨row, -, rfl⟩ := List.mem_map.mp hs
    exact List.any_eq_true
  · have hle : (after rows nodes).fresh ≤ (after rows nodes).slots.length :=
      hfresh ▸ List.countP_le_length
    exact Nat.psub_eq_some.mpr (Nat.sub_add_cancel hle)

theorem isDrawn_forward_after (rows : List Connection) (nodes : List String) (guid : String) :
    IsDrawn ((after rows nodes).forward guid) rows nodes guid := by
  obtain ⟨places, hfalling, hdrawn, hmem⟩ := exists_places_reverse_filter
    (fun row : Connection => !row.touchesAny nodes && row.source.guid == guid) rows
  refine ⟨places, hfalling, ?_, ?_⟩
  · rw [forward_after, hdrawn]
  · intro j
    rw [hmem]
    apply exists_congr
    intro row
    simp [Connection.touchesAny, and_comm]

theorem after_congr (rows : List Connection) {nodes nodes' : List String}
    (h : ∀ guid, guid ∈ nodes' ↔ guid ∈ nodes) : after rows nodes' = after rows nodes := by
  have htouches : ∀ row : Connection, row.touchesAny nodes' = row.touchesAny nodes := by
    intro row
    rw [Bool.eq_iff_iff, Connection.touchesAny_iff, Connection.touchesAny_iff, h, h]
  simp only [after, htouches]

/-- After any nodes have been spent, the rows spent are those that touch one of them and the count
is right, all along the next sweep too, which so never runs out of it. The next sweep draws the
rows that leave its node and touch none of those nodes, and one that is left out would have drawn
nothing. In which order the nodes were spent, and how often, makes no other pool. -/
theorem spends_rows_of_nodes (rows : List Connection) (nodes : List String) :
    ∃ p, (ofRows rows).spendAll nodes = p ∧ p.IsSpentBy rows nodes ∧
      (∀ guid, p.sweep? guid = some (p.spend guid) ∧ p.spend guid = p.scan guid ∧
        IsDrawn (p.spend guid).1 rows nodes guid ∧
        ∀ front back, p.slots = front ++ back →
          ∃ w, back.foldrM (Sweep.visit? guid) ⟨[], [], p.fresh⟩ = some w ∧
            w.fresh = (front ++ w.slots).countP Slot.isFresh) ∧
      ∀ nodes' : List String, (∀ guid, guid ∈ nodes' ↔ guid ∈ nodes) →
        (ofRows rows).spendAll nodes' = p := by
  have hspent := isSpentBy_after rows nodes
  refine ⟨after rows nodes, spendAll_ofRows rows nodes, hspent, ?_, ?_⟩
  · intro guid
    have hscan : (after rows nodes).spend guid = (after rows nodes).scan guid := by
      rw [spend_after, scan_after]
    refine ⟨?_, hscan, ?_, ?_⟩
    · rw [hscan, sweep?_eq hspent.fresh_eq]
    · rw [spend_after]
      exact isDrawn_forward_after rows nodes guid
    · intro front back hslots
      exact Sweep.exists_foldrM_visit? (hslots ▸ hspent.fresh_eq) guid
  · intro nodes' hnodes
    rw [spendAll_ofRows, after_congr rows hnodes]

/-- Two rows from `b` to `c`, one back, and one onward. -/
def shuttle : List Connection :=
  [.between "b" "c", .between "c" "d", .between "b" "c", .between "c" "b"]

/-- The same rows are spent either way round, but not the same rows drawn. -/
theorem spends_rows_of_nodes_shuttle :
    ∃ p, (ofRows shuttle).spendAll ["b", "c"] = p ∧ (ofRows shuttle).spendAll ["c", "b", "c"] = p ∧
      p.IsSpentBy shuttle ["b", "c"] ∧ p.fresh = 0 ∧ p.spend "d" = p.scan "d" ∧
      ((ofRows shuttle).spend "b").1 = [.between "b" "c", .between "b" "c"] ∧
      (((ofRows shuttle).spendAll ["c"]).spend "b").1 = [] := by
  obtain ⟨p, hp, hspent, hsweep, hother⟩ := spends_rows_of_nodes shuttle ["b", "c"]
  refine ⟨p, hp, hother ["c", "b", "c"] (by simp), hspent, ?_, (hsweep "d").2.1, ?_, ?_⟩
  · subst hp
    decide +kernel
  · decide +kernel
  · decide +kernel

end Pool
end VoteTrace
