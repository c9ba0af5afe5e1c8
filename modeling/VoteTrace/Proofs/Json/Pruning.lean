import Mathlib.Data.List.Forall2
import VoteTrace.Json.Fields

namespace VoteTrace.Json

/-- Some members that are null are left out, and the values of the others are related. -/
inductive Thinned {κ : Type} (R : Value → Value → Prop) :
    List (κ × Value) → List (κ × Value) → Prop
  | nil : Thinned R [] []
  | keep {key : κ} {v w : Value} {l m : List (κ × Value)} (hv : R v w) (h : Thinned R l m) :
      Thinned R ((key, v) :: l) ((key, w) :: m)
  | drop {key : κ} {l m : List (κ × Value)} (h : Thinned R l m) :
      Thinned R ((key, .null) :: l) m

/-- The second value is the first one, in which some members that are null are left out. -/
inductive Value.Pruned : Value → Value → Prop
  | refl (v : Value) : Pruned v v
  | arr {items items' : List Value} (h : List.Forall₂ Pruned items items') :
      Pruned (.arr items) (.arr items')
  | obj {members members' : List (Option String × Value)} (h : Thinned Pruned members members') :
      Pruned (.obj members) (.obj members')

namespace Thinned

variable {κ : Type}

theorem refl (l : List (κ × Value)) : Thinned Value.Pruned l l := by
  induction l with
  | nil => exact .nil
  | cons m l ih => exact .keep (.refl m.2) ih

theorem sublist_keys {R : Value → Value → Prop} {l m : List (κ × Value)} (h : Thinned R l m) :
    (m.map Prod.fst).Sublist (l.map Prod.fst) := by
  induction h with
  | nil => exact .refl _
  | keep hv h ih => exact ih.cons_cons _
  | drop h ih => exact ih.cons _

theorem exists_of_mem {R : Value → Value → Prop} {l m : List (κ × Value)} (h : Thinned R l m)
    {field : κ × Value} (hfield : field ∈ m) : ∃ v, (field.1, v) ∈ l ∧ R v field.2 := by
  induction h with
  | nil => cases hfield
  | @keep key v w l m hv h ih =>
      rcases List.mem_cons.mp hfield with rfl | htail
      · exact ⟨v, List.mem_cons_self, hv⟩
      · obtain ⟨v', hmem, hv'⟩ := ih htail
        exact ⟨v', List.mem_cons_of_mem _ hmem, hv'⟩
  | drop h ih =>
      obtain ⟨v', hmem, hv'⟩ := ih hfield
      exact ⟨v', List.mem_cons_of_mem _ hmem, hv'⟩

theorem head_key {R : Value → Value → Prop} {key : κ} {v : Value} {l m : List (κ × Value)}
    (h : Thinned R ((key, v) :: l) m) (hv : v ≠ .null) : m.head?.map Prod.fst = some key := by
  cases h with
  | keep => rfl
  | drop => exact absurd rfl hv

theorem of_map {R : Value → Value → Prop} {l : List (String × Value)}
    {m : List (Option String × Value)}
    (h : Thinned R (l.map fun (name, v) => (some name, v)) m) :
    ∃ f, m = f.map (fun (name, v) => (some name, v)) ∧ Thinned R l f := by
  generalize hl : (l.map fun (name, v) => (some name, v)) = l' at h
  induction h generalizing l with
  | nil =>
      obtain rfl : l = [] := List.map_eq_nil_iff.mp hl
      exact ⟨[], rfl, .nil⟩
  | @keep key v w l' m hv h ih =>
      obtain ⟨⟨name, v'⟩, l, rfl, hhead, hrest⟩ := List.map_eq_cons_iff.mp hl
      cases hhead
      obtain ⟨f, rfl, hf⟩ := ih hrest
      exact ⟨(name, w) :: f, rfl, .keep hv hf⟩
  | @drop key l' m h ih =>
      obtain ⟨⟨name, v'⟩, l, rfl, hhead, hrest⟩ := List.map_eq_cons_iff.mp hl
      cases hhead
      obtain ⟨f, rfl, hf⟩ := ih hrest
      exact ⟨f, rfl, .drop hf⟩

theorem lookup {R : Value → Value → Prop} {l m : List (String × Value)} (h : Thinned R l m)
    (hnodup : (l.map Prod.fst).Nodup) {name : String} {v : Value} (hmem : (name, v) ∈ l) :
    (∃ w, R v w ∧ m.lookup name = some w) ∨ v = .null ∧ m.lookup name = none := by
  induction h with
  | nil => cases hmem
  | @keep key v' w l m hv h ih =>
      obtain ⟨hkey, hnodup⟩ := List.nodup_cons.mp hnodup
      rcases List.mem_cons.mp hmem with heq | htail
      · cases heq
        exact .inl ⟨w, hv, List.lookup_cons_self⟩
      · have hne : name ≠ key := fun heq => hkey (List.mem_map.mpr ⟨_, htail, heq⟩)
        rw [List.lookup_cons, beq_eq_false_iff_ne.mpr hne]
        exact ih hnodup htail
  | @drop key l m h ih =>
      obtain ⟨hkey, hnodup⟩ := List.nodup_cons.mp hnodup
      rcases List.mem_cons.mp hmem with heq | htail
      · cases heq
        refine .inr ⟨rfl, List.lookup_eq_none_iff.mpr fun field hfield => bne_iff_ne.mpr ?_⟩
        exact fun heq =>
          hkey (h.sublist_keys.subset (List.mem_map.mpr ⟨field, hfield, heq.symm⟩))
      · exact ih hnodup htail

end Thinned

namespace Value.Pruned

theorem items {l : List Value} {w : Value} (h : (Value.arr l).Pruned w) :
    ∃ m, w = .arr m ∧ List.Forall₂ Pruned l m := by
  cases h with
  | refl => exact ⟨l, rfl, List.forall₂_same.mpr fun v _ => .refl v⟩
  | arr h => exact ⟨_, rfl, h⟩

theorem members {l : List (Option String × Value)} {w : Value} (h : (Value.obj l).Pruned w) :
    ∃ m, w = .obj m ∧ Thinned Pruned l m := by
  cases h with
  | refl => exact ⟨l, rfl, .refl l⟩
  | obj h => exact ⟨_, rfl, h⟩

theorem ne_null {v w : Value} (h : v.Pruned w) (hv : v ≠ .null) : w ≠ .null := by
  rintro rfl
  cases h
  exact hv rfl

end Value.Pruned

namespace Value

/-- Neither made of other values nor beyond use. -/
def isScalar : Value → Bool
  | huge | unpaired | arr _ | obj _ => false
  | _ => true

@[simp] theorem isScalar_str (s : String) : (str s).isScalar = true := rfl

theorem isScalar_ofOption {α : Type} {encode : α → Value}
    (h : ∀ a, (encode a).isScalar = true) (o : Option α) : (ofOption encode o).isScalar = true := by
  cases o with
  | none => rfl
  | some a => exact h a

theorem isScalar_ofFloat (x : Float) : (ofFloat x).isScalar = true := by
  rw [ofFloat]
  split <;> rfl

theorem canKeep_of_isScalar {v : Value} (h : v.isScalar = true) {around : Nat}
    (haround : around ≤ keptDepth) : v.canKeep around = true := by
  cases v with
  | huge | unpaired | arr | obj => cases h
  | _ => simpa [canKeep, isUsable, depth] using haround

theorem Pruned.eq_of_isScalar {v w : Value} (h : v.Pruned w) (hv : v.isScalar = true) : w = v := by
  cases h with
  | refl => rfl
  | arr | obj => cases hv

end Value

/-- What of a record is left over: its fields without some of those that are null. -/
structure Fields.Prunes (fields f : Fields) : Prop where
  nodup : (fields.map Prod.fst).Nodup
  thinned : Thinned Value.Pruned fields f

theorem Fields.Prunes.lookup {fields f : Fields} (h : Prunes fields f) {name : String} {v : Value}
    (hv : v ≠ .null) (hmem : (name, v) ∈ fields) : ∃ w, v.Pruned w ∧ f.lookup name = some w := by
  rcases h.thinned.lookup h.nodup hmem with hkept | ⟨hnull, -⟩
  · exact hkept
  · exact absurd hnull hv

theorem Fields.ofMembers?_record {names : List String} {f : Fields}
    (hsublist : (f.map Prod.fst).Sublist names) (hnodup : names.Nodup) :
    ofMembers? names (f.map fun (name, v) => (some name, v)) = some f := by
  have hknown : ((f.map fun (name, v) => (some name, v)).filterMap fun member =>
      member.1.map fun name => (name, member.2)) = f := by
    rw [List.filterMap_map]
    exact List.filterMap_some
  have hkept : (f.filter fun field => names.contains field.1) = f :=
    List.filter_eq_self.mpr fun field hfield =>
      List.contains_iff_mem.mpr (hsublist.subset (List.mem_map_of_mem hfield))
  have hkeys : (f.map fun (name, v) => ((some name : Option String), v)).all
      (fun member => member.1.isSome) = true := by
    simp
  simp only [ofMembers?, hknown, hkept, hkeys, decide_eq_true (hsublist.nodup hnodup)]
  rfl

theorem Value.Pruned.record (names : List String) {fields : Fields} {w : Value}
    (hnames : fields.map Prod.fst = names) (hnodup : names.Nodup)
    (h : (Value.record fields).Pruned w) :
    ∃ f : Fields, w = .record f ∧
      (∀ mayStop, Fields.ofValue? names mayStop (.record f) = some f) ∧
      Fields.Prunes fields f := by
  obtain ⟨members, rfl, hmembers⟩ := h.members
  obtain ⟨f, rfl, hthinned⟩ := hmembers.of_map
  have hsublist := hthinned.sublist_keys
  rw [hnames] at hsublist
  exact ⟨f, rfl, fun _ => Fields.ofMembers?_record hsublist hnodup, hnames ▸ hnodup, hthinned⟩

end VoteTrace.Json
