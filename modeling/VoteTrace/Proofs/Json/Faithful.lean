import VoteTrace.Proofs.Json.Pruning
import VoteTrace.Proofs.Json.Reading

namespace VoteTrace.Json

/-- The float has a number. -/
def FiniteFloat (x : Float) : Prop := x.isFinite = true

instance (x : Float) : Decidable (FiniteFloat x) :=
  inferInstanceAs (Decidable (x.isFinite = true))

theorem Value.ofFloat_eq_real {x : Float} (h : FiniteFloat x) : ofFloat x = real x := if_pos h

/-- An encoding, and how it is undone, for the data of which `P` holds. -/
structure Faithful {α : Type} (P : α → Prop) (encode : α → Value) (decode : Value → Option α) :
    Prop where
  reads : ∀ {a : α}, P a → ∀ {w : Value}, (encode a).Pruned w → decode w = some a
  ne_null : ∀ {a : α}, P a → encode a ≠ .null
  sound : ∀ {v : Value} {a : α}, v.IsStated → decode v = some a → P a

namespace Fields.Prunes

variable {α : Type} {P : α → Prop} {encode : α → Value} {decode : Value → Option α}
variable {fields f : Fields} {name : String}

theorem required (h : Prunes fields f) (hfaithful : Faithful P encode decode) {a : α} (ha : P a)
    (hmem : (name, encode a) ∈ fields) : f.required name decode = some a := by
  obtain ⟨w, hw, hlookup⟩ := h.lookup (hfaithful.ne_null ha) hmem
  rw [Fields.required, hlookup]
  exact hfaithful.reads ha hw

theorem orElse (h : Prunes fields f) (hfaithful : Faithful P encode decode) {a b : α} (ha : P a)
    (hmem : (name, encode a) ∈ fields) : f.orElse name decode b = some a := by
  obtain ⟨w, hw, hlookup⟩ := h.lookup (hfaithful.ne_null ha) hmem
  rw [Fields.orElse, hlookup]
  exact hfaithful.reads ha hw

theorem optional (h : Prunes fields f) (hfaithful : Faithful P encode decode) {o : Option α}
    (ho : ∀ a ∈ o, P a) (hmem : (name, .ofOption encode o) ∈ fields) :
    f.optional name decode = some o := by
  cases o with
  | none =>
      rcases h.thinned.lookup h.nodup hmem with ⟨w, hw, hlookup⟩ | ⟨-, hlookup⟩
      · cases hw
        rw [Fields.optional, hlookup]
        rfl
      · rw [Fields.optional, hlookup]
  | some a =>
      have ha : P a := ho a rfl
      obtain ⟨w, hw, hlookup⟩ := h.lookup (hfaithful.ne_null ha) hmem
      rw [Fields.optional, hlookup]
      have hne : w ≠ .null := hw.ne_null (hfaithful.ne_null ha)
      cases w with
      | null => exact absurd rfl hne
      | _ => exact congrArg (Option.map some) (hfaithful.reads ha hw)

end Fields.Prunes

/-- Every number in the fields is one that a text can state. -/
def Fields.IsStated (f : Fields) : Prop := ∀ field ∈ f, field.2.IsStated

theorem Fields.isStated_of_ofValue? {names : List String} {mayStop : Bool} {v : Value}
    {f : Fields} (hv : v.IsStated) (h : ofValue? names mayStop v = some f) : f.IsStated := by
  cases hv with
  | obj members hmembers =>
      simp only [ofValue?, ofMembers?, Option.ite_none_right_eq_some] at h
      obtain ⟨-, heq⟩ := h
      cases heq
      intro field hfield
      obtain ⟨⟨key, v⟩, hmember, hfield⟩ := List.mem_filterMap.mp (List.mem_filter.mp hfield).1
      obtain ⟨name, -, rfl⟩ := Option.map_eq_some_iff.mp hfield
      exact hmembers (key, v) hmember
  | arr items hitems =>
      simp only [ofValue?, ofItems?, Option.ite_none_right_eq_some] at h
      obtain ⟨-, heq⟩ := h
      cases heq
      exact fun field hfield => hitems field.2 (List.of_mem_zip hfield).2
  | _ => cases h

namespace Fields.IsStated

variable {α : Type} {P : α → Prop} {encode : α → Value} {decode : Value → Option α}
variable {f : Fields} {name : String}

theorem lookup {v : Value} (h : f.IsStated) (hlookup : f.lookup name = some v) : v.IsStated := by
  obtain ⟨l, m, rfl, -⟩ := List.lookup_eq_some_iff.mp hlookup
  exact h (name, v) (List.mem_append_right l List.mem_cons_self)

theorem required {a : α} (h : f.IsStated) (hfaithful : Faithful P encode decode)
    (ha : f.required name decode = some a) : P a := by
  obtain ⟨v, hlookup, hdecode⟩ := Option.bind_eq_some_iff.mp ha
  exact hfaithful.sound (h.lookup hlookup) hdecode

theorem orElse {a b : α} (h : f.IsStated) (hfaithful : Faithful P encode decode) (hb : P b)
    (ha : f.orElse name decode b = some a) : P a := by
  rw [Fields.orElse] at ha
  split at ha
  · cases ha
    exact hb
  · rename_i v hlookup
    exact hfaithful.sound (h.lookup hlookup) ha

theorem optional {o : Option α} (h : f.IsStated) (hfaithful : Faithful P encode decode)
    (ho : f.optional name decode = some o) : ∀ a ∈ o, P a := by
  rw [Fields.optional] at ho
  split at ho
  · cases ho
    exact fun a ha => nomatch ha
  · cases ho
    exact fun a ha => nomatch ha
  · rename_i v hlookup
    obtain ⟨a, ha, rfl⟩ := Option.map_eq_some_iff.mp ho
    rintro b ⟨⟩
    exact hfaithful.sound (h.lookup hlookup) ha

end Fields.IsStated

namespace Faithful

theorem of_isScalar {α : Type} {encode : α → Value} {decode : Value → Option α}
    (hscalar : ∀ a, (encode a).isScalar = true) (hnull : ∀ a, encode a ≠ .null)
    (h : ∀ a, decode (encode a) = some a) : Faithful (fun _ => True) encode decode where
  reads {a} _ w hw := by
    rw [hw.eq_of_isScalar (hscalar a)]
    exact h a
  ne_null {a} _ := hnull a
  sound _ _ := trivial

theorem text : Faithful (fun _ => True) .str Value.toText? :=
  of_isScalar (fun _ => rfl) (fun _ => Value.noConfusion) fun _ => rfl

theorem bool : Faithful (fun _ => True) .bool Value.toBool? :=
  of_isScalar (fun _ => rfl) (fun _ => Value.noConfusion) fun _ => rfl

theorem count : Faithful (fun _ => True) .nat Value.toCount? :=
  of_isScalar (fun _ => rfl) (fun _ => Value.noConfusion) fun _ => rfl

theorem word64 : Faithful (fun _ => True) (fun n : UInt64 => .nat n.toNat) Value.toUInt64? := by
  refine of_isScalar (fun _ => rfl) (fun _ => Value.noConfusion) fun n => ?_
  rw [Value.toUInt64?, Value.toNat?, if_pos n.toNat_lt_size, Option.map_some, UInt64.ofNat_toNat]

theorem word32 : Faithful (fun _ => True) (fun n : UInt32 => .nat n.toNat) Value.toUInt32? := by
  refine of_isScalar (fun _ => rfl) (fun _ => Value.noConfusion) fun n => ?_
  rw [Value.toUInt32?, Value.toNat?, if_pos n.toNat_lt_size, Option.map_some, UInt32.ofNat_toNat]

theorem float : Faithful FiniteFloat .ofFloat Value.toFloat? where
  reads hx w hw := by
    rw [Value.ofFloat_eq_real hx] at hw
    cases hw
    rfl
  ne_null hx := by
    rw [Value.ofFloat_eq_real hx]
    exact Value.noConfusion
  sound hv hx := by
    cases hv with
    | nat n hn =>
        cases hx
        exact Rounding.isFinite_ofScientific hn
    | real x hfinite =>
        cases hx
        exact hfinite
    | _ => cases hx

section List

variable {α : Type} {P : α → Prop} {encode : α → Value} {decode : Value → Option α}

theorem reads_items (h : Faithful P encode decode) {as : List α} (has : ∀ a ∈ as, P a)
    {items : List Value} (hitems : List.Forall₂ Value.Pruned (as.map encode) items) :
    items.mapM decode = some as := by
  induction as generalizing items with
  | nil =>
      cases hitems
      rfl
  | cons a as ih =>
      obtain ⟨ha, has⟩ := List.forall_mem_cons.mp has
      cases hitems with
      | cons hw hrest => rw [List.mapM_cons, h.reads ha hw, ih has hrest]; rfl

theorem sound_items (h : Faithful P encode decode) {items : List Value} {as : List α}
    (hitems : ∀ v ∈ items, v.IsStated) (has : items.mapM decode = some as) : ∀ a ∈ as, P a := by
  induction items generalizing as with
  | nil =>
      cases has
      exact List.forall_mem_nil _
  | cons v items ih =>
      obtain ⟨hv, hitems⟩ := List.forall_mem_cons.mp hitems
      rw [List.mapM_cons] at has
      obtain ⟨a, ha, hbind⟩ := Option.bind_eq_some_iff.mp has
      obtain ⟨rest, hrest, heq⟩ := Option.bind_eq_some_iff.mp hbind
      cases heq
      exact List.forall_mem_cons.mpr ⟨h.sound hv ha, ih hitems hrest⟩

theorem list (h : Faithful P encode decode) :
    Faithful (fun as => ∀ a ∈ as, P a) (.ofList encode) (Value.toList? decode) where
  reads has w hw := by
    obtain ⟨items, rfl, hitems⟩ := hw.items
    exact h.reads_items has hitems
  ne_null _ := Value.noConfusion
  sound hv has := by
    cases hv with
    | arr items hitems => exact h.sound_items hitems has
    | _ => cases has

end List

end Faithful

end VoteTrace.Json
