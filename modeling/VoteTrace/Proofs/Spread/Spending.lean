import VoteTrace.Spread.Pool

namespace VoteTrace

namespace Connection

/-- One of the nodes is on a side of the row. -/
def touchesAny (row : Connection) (nodes : List String) : Bool :=
  nodes.any row.touches

@[simp] theorem touchesAny_append (row : Connection) (nodes more : List String) :
    row.touchesAny (nodes ++ more) = (row.touchesAny nodes || row.touchesAny more) :=
  List.any_append

@[simp] theorem touchesAny_singleton (row : Connection) (guid : String) :
    row.touchesAny [guid] = row.touches guid := by
  simp [touchesAny]

theorem touches_iff {row : Connection} {guid : String} :
    row.touches guid = true ↔ row.source.guid = guid ∨ row.peer.guid = guid := by
  simp [touches]

theorem touchesAny_iff {row : Connection} {nodes : List String} :
    row.touchesAny nodes = true ↔ row.source.guid ∈ nodes ∨ row.peer.guid ∈ nodes := by
  simp only [touchesAny, List.any_eq_true, touches_iff]
  constructor
  · rintro ⟨guid, hguid, rfl | rfl⟩
    · exact .inl hguid
    · exact .inr hguid
  · rintro (hguid | hguid)
    · exact ⟨_, hguid, .inl rfl⟩
    · exact ⟨_, hguid, .inr rfl⟩

theorem touchesAny_eq_false_iff {row : Connection} {nodes : List String} :
    row.touchesAny nodes = false ↔ row.source.guid ∉ nodes ∧ row.peer.guid ∉ nodes := by
  rw [← Bool.not_eq_true, touchesAny_iff, not_or]

end Connection

/-- Spending a node takes the fresh slots that it meets and no others. -/
theorem Slot.countP_isFresh_map_spend (slots : List Slot) (guid : String) :
    (slots.map (Slot.spend guid)).countP Slot.isFresh + slots.countP (Slot.meets guid) =
      slots.countP Slot.isFresh := by
  induction slots with
  | nil => rfl
  | cons s slots ih =>
      have hslot : (if (Slot.spend guid s).isFresh then 1 else 0) +
          (if Slot.meets guid s then 1 else 0) = if s.isFresh then 1 else 0 := by
        rcases s with ⟨row, spent⟩
        cases spent <;> cases hguid : row.touches guid <;>
          simp [Slot.meets, Slot.spend, Slot.isFresh, hguid]
      simp only [List.map_cons, List.countP_cons]
      omega

namespace Pool

def after (rows : List Connection) (nodes : List String) : Pool :=
  { slots := rows.map fun row => ⟨row, row.touchesAny nodes⟩
    fresh := rows.countP fun row => !row.touchesAny nodes }

theorem after_nil (rows : List Connection) : after rows [] = ofRows rows := by
  simp [after, ofRows, Connection.touchesAny]

theorem freshSlots_after (rows : List Connection) (nodes : List String) :
    (after rows nodes).freshSlots = rows.countP fun row => !row.touchesAny nodes := by
  simp only [freshSlots, after, List.countP_map]
  rfl

theorem fresh_after (rows : List Connection) (nodes : List String) :
    (after rows nodes).fresh = (after rows nodes).slots.countP Slot.isFresh :=
  (freshSlots_after rows nodes).symm

theorem forward_after (rows : List Connection) (nodes : List String) (guid : String) :
    (after rows nodes).forward guid =
      (rows.filter fun row => !row.touchesAny nodes && row.source.guid == guid).reverse := by
  simp only [forward, after, List.filter_map, List.map_map]
  congr 1
  exact List.map_id _

theorem slots_spend_after (rows : List Connection) (nodes : List String) (guid : String) :
    (after rows nodes).slots.map (Slot.spend guid) = (after rows (nodes ++ [guid])).slots := by
  simp only [after, List.map_map]
  apply List.map_congr_left
  intro row _
  simp only [Function.comp_apply, Slot.spend, Connection.touchesAny_append,
    Connection.touchesAny_singleton]
  cases row.touches guid <;> simp

theorem fresh_after_append (rows : List Connection) (nodes : List String) (guid : String) :
    (after rows (nodes ++ [guid])).fresh +
        (after rows nodes).slots.countP (Slot.meets guid) = (after rows nodes).fresh := by
  rw [fresh_after, fresh_after, ← slots_spend_after]
  exact Slot.countP_isFresh_map_spend _ guid

theorem scan_after (rows : List Connection) (nodes : List String) (guid : String) :
    (after rows nodes).scan guid =
      ((after rows nodes).forward guid, after rows (nodes ++ [guid])) := by
  have hslots := slots_spend_after rows nodes guid
  have hfresh := fresh_after_append rows nodes guid
  simp only [scan, hslots]
  rw [← hfresh, Nat.add_sub_cancel]

/-- Without a fresh slot a scan finds nothing and changes nothing. -/
theorem scan_of_freshSlots_eq_zero {p : Pool} (h : p.freshSlots = 0) (guid : String) :
    p.scan guid = ([], p) := by
  have hspent : ∀ s ∈ p.slots, s.spent = true := by
    simpa [freshSlots, Slot.isFresh, List.countP_eq_zero] using h
  have hforward : p.forward guid = [] := by
    simp only [forward, List.reverse_eq_nil_iff, List.map_eq_nil_iff, List.filter_eq_nil_iff]
    intro s hs
    simp [Slot.leaves, Slot.isFresh, hspent s hs]
  have hslots : p.slots.map (Slot.spend guid) = p.slots := by
    rw [List.map_congr_left (g := id), List.map_id]
    rintro ⟨row, spent⟩ hs
    cases hspent _ hs
    simp [Slot.spend]
  have hmeets : p.slots.countP (Slot.meets guid) = 0 := by
    rw [List.countP_eq_zero]
    intro s hs
    simp [Slot.meets, Slot.isFresh, hspent s hs]
  simp only [scan, hforward, hslots, hmeets, Nat.sub_zero]

theorem spend_after (rows : List Connection) (nodes : List String) (guid : String) :
    (after rows nodes).spend guid =
      ((after rows nodes).forward guid, after rows (nodes ++ [guid])) := by
  unfold spend
  split
  · rename_i h
    rw [← scan_after, scan_of_freshSlots_eq_zero]
    rwa [freshSlots_after]
  · exact scan_after rows nodes guid

theorem spentCount_after (rows : List Connection) (nodes : List String) :
    (after rows nodes).spentCount = rows.countP fun row => row.touchesAny nodes := by
  have hcount := List.length_eq_countP_add_countP (fun row => row.touchesAny nodes) (l := rows)
  simp only [spentCount, after, List.length_map]
  have hnot : (rows.countP fun row => !row.touchesAny nodes) =
      rows.countP fun row => decide ¬row.touchesAny nodes = true := by simp
  omega

end Pool
end VoteTrace
