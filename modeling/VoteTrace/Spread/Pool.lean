import VoteTrace.Mesh.Connection

namespace VoteTrace

structure Slot where
  row : Connection
  spent : Bool

namespace Slot

def isFresh (s : Slot) : Bool := !s.spent

def leaves (guid : String) (s : Slot) : Bool :=
  s.isFresh && s.row.source.guid == guid

def meets (guid : String) (s : Slot) : Bool :=
  s.isFresh && s.row.touches guid

def spend (guid : String) (s : Slot) : Slot :=
  if s.row.touches guid then { s with spent := true } else s

end Slot

/-- The rows a walk may still use. Rows keep their places when others are spent. -/
structure Pool where
  slots : List Slot
  /-- How many slots are fresh. -/
  fresh : Nat

namespace Pool

def ofRows (rows : List Connection) : Pool :=
  ⟨rows.map (⟨·, false⟩), rows.length⟩

/-- The rows that can be walked from `guid`, the latest first. -/
def forward (p : Pool) (guid : String) : List Connection :=
  ((p.slots.filter (Slot.leaves guid)).map Slot.row).reverse

/-- Spends every fresh row with `guid` on a side: forward rows are walked, and rows that
only lead back to `guid` are dropped. -/
def scan (p : Pool) (guid : String) : List Connection × Pool :=
  (p.forward guid,
    { slots := p.slots.map (Slot.spend guid)
      fresh := p.fresh - p.slots.countP (Slot.meets guid) })

def spend (p : Pool) (guid : String) : List Connection × Pool :=
  if p.fresh = 0 then ([], p) else p.scan guid

def spentCount (p : Pool) : Nat := p.slots.length - p.fresh

/-- The fresh slots, counted one by one. -/
def freshSlots (p : Pool) : Nat := p.slots.countP Slot.isFresh

theorem countP_leaves_add_countP_isFresh_le (guid : String) (slots : List Slot) :
    slots.countP (Slot.leaves guid) + (slots.map (Slot.spend guid)).countP Slot.isFresh ≤
      slots.countP Slot.isFresh := by
  induction slots with
  | nil => simp
  | cons s slots ih =>
      have hs : (if Slot.leaves guid s then 1 else 0) +
          (if (Slot.spend guid s).isFresh then 1 else 0) ≤ if s.isFresh then 1 else 0 := by
        rcases s with ⟨row, spent⟩
        by_cases h : row.source.guid = guid <;> cases spent <;>
          simp [Slot.leaves, Slot.spend, Slot.isFresh, Connection.touches, h]
        split <;> simp
      simp only [List.map_cons, List.countP_cons]
      omega

theorem length_spend_add_freshSlots_le (p : Pool) (guid : String) :
    (p.spend guid).1.length + (p.spend guid).2.freshSlots ≤ p.freshSlots := by
  unfold spend
  split
  · simp
  · have h := countP_leaves_add_countP_isFresh_le guid p.slots
    simpa [scan, forward, freshSlots, ← List.countP_eq_length_filter] using h

end Pool
end VoteTrace
