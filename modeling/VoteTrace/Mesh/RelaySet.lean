namespace VoteTrace

structure RelaySet where
  names : List String
  nodup : names.Nodup := by simp
  nonempty : "" ∉ names := by simp

namespace RelaySet

def empty : RelaySet := ⟨[], by simp, by simp⟩

def contains (s : RelaySet) (name : String) : Bool :=
  s.names.contains name

def isNew (s : RelaySet) (name : String) : Bool :=
  name != "" && !s.contains name

def insert (s : RelaySet) (name : String) : RelaySet :=
  if h : name = "" ∨ name ∈ s.names then s
  else
    ⟨name :: s.names,
      List.nodup_cons.mpr ⟨fun hmem => h (.inr hmem), s.nodup⟩,
      fun hmem => (List.mem_cons.mp hmem).elim (fun heq => h (.inl heq.symm)) s.nonempty⟩

@[simp] theorem mem_names_insert {s : RelaySet} {name x : String} :
    x ∈ (s.insert name).names ↔ (x = name ∧ name ≠ "") ∨ x ∈ s.names := by
  unfold insert
  split
  · rename_i h
    constructor
    · exact .inr
    · rintro (⟨rfl, hne⟩ | hx)
      · exact h.resolve_left hne
      · exact hx
  · rename_i h
    simp only [List.mem_cons]
    constructor
    · rintro (rfl | hx)
      · exact .inl ⟨rfl, fun heq => h (.inl heq)⟩
      · exact .inr hx
    · rintro (⟨rfl, _⟩ | hx)
      · exact .inl rfl
      · exact .inr hx

def ofList (names : List String) : RelaySet :=
  names.foldl insert empty

theorem mem_names_foldl_insert {names : List String} {s : RelaySet} {x : String} :
    x ∈ (names.foldl insert s).names ↔ (x ∈ names ∧ x ≠ "") ∨ x ∈ s.names := by
  induction names generalizing s with
  | nil => simp
  | cons name names ih =>
      simp only [List.foldl_cons, ih, mem_names_insert, List.mem_cons]
      grind

@[simp] theorem mem_names_ofList {names : List String} {x : String} :
    x ∈ (ofList names).names ↔ x ∈ names ∧ x ≠ "" := by
  simp [ofList, mem_names_foldl_insert, empty]

/-- A name that is none, or that has been put in before, changes nothing. -/
theorem ofList_append_singleton {names : List String} {name : String}
    (h : name = "" ∨ name ∈ names) : ofList (names ++ [name]) = ofList names := by
  rw [ofList, List.foldl_append]
  change insert (ofList names) name = ofList names
  apply dif_pos
  by_cases hname : name = ""
  · exact .inl hname
  · exact .inr (mem_names_ofList.mpr ⟨h.resolve_left hname, hname⟩)

def size (s : RelaySet) : Nat := s.names.length

def isEmpty (s : RelaySet) : Bool := s.names.isEmpty

end RelaySet
end VoteTrace
