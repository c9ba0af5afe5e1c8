import Mathlib.Tactic.SplitIfs
import VoteTrace.Json.Reader
import VoteTrace.Proofs.Floats.Finite

namespace VoteTrace.Json

/-- What holds at the start of a run of steps and is kept by each holds at its end. -/
theorem of_foldlM_eq_some {σ α : Type} {step? : σ → α → Option σ} {P : σ → Prop} {Q : α → Prop}
    (hstep : ∀ s a s', P s → Q a → step? s a = some s' → P s') {l : List α} {s s' : σ}
    (hl : ∀ a ∈ l, Q a) (hs : P s) (h : l.foldlM step? s = some s') : P s' := by
  induction l generalizing s with
  | nil =>
      obtain rfl : s = s' := Option.some.inj h
      exact hs
  | cons a l ih =>
      obtain ⟨t, ht, hrest⟩ := Option.bind_eq_some_iff.mp h
      exact ih (fun b hb => hl b (List.mem_cons_of_mem a hb))
        (hstep s a t hs (hl a List.mem_cons_self) ht) hrest

/-- Every number in the value is one that a text can state. -/
inductive Value.IsStated : Value → Prop
  | null : IsStated .null
  | bool (b : Bool) : IsStated (.bool b)
  | nat (n : Nat) (h : n < UInt64.size) : IsStated (.nat n)
  | real (x : Float) (h : x.isFinite = true) : IsStated (.real x)
  | huge : IsStated .huge
  | str (s : String) : IsStated (.str s)
  | unpaired : IsStated .unpaired
  | arr (items : List Value) (h : ∀ v ∈ items, IsStated v) : IsStated (.arr items)
  | obj (members : List (Option String × Value)) (h : ∀ m ∈ members, IsStated m.2) :
      IsStated (.obj members)

namespace Number

open Rounding

theorem isFinite_signed {x : Float} (h : x.isFinite = true) (negative : Bool) :
    (signed negative x).isFinite = true := by
  cases negative with
  | false => exact h
  | true => exact isFinite_neg h

theorem isStated_scientific (negative : Bool) (s : Scientific) : (s.value negative).IsStated := by
  rw [Scientific.value]
  split
  · exact .real _ (isFinite_signed (isFinite_ofScientific (n := 0) (by decide)) negative)
  · split
    · rename_i hfinite
      exact .real _ (isFinite_signed hfinite negative)
    · exact .huge

theorem isStated_value (s : Spelling) : s.value.IsStated := by
  rw [Spelling.value]
  split
  · rename_i h
    exact .nat _ (of_decide_eq_true (Bool.and_eq_true_iff.mp h).2)
  · exact isStated_scientific _ _

end Number

namespace Token

/-- The token is no number, or one that a text can state. -/
def IsStated : Token → Prop
  | scalar v => v.IsStated
  | _ => True

theorem isStated_of_ofWord? {letters : List Char} {t : Token} (h : ofWord? letters = some t) :
    t.IsStated := by
  rw [ofWord?] at h
  split at h
  · cases h
    exact .null
  · cases h
    exact .bool true
  · cases h
    exact .bool false
  · cases h

theorem isStated_of_ofNumber? {chars : List Char} {t : Token} (h : ofNumber? chars = some t) :
    t.IsStated := by
  obtain ⟨v, hv, rfl⟩ := Option.map_eq_some_iff.mp h
  obtain ⟨s, -, rfl⟩ := Option.map_eq_some_iff.mp hv
  exact Number.isStated_value s

end Token

namespace Lexing

open Token

theorem isStated_of_start? {c : Char} {tokens : List Token} {next : Lexing}
    (h : start? c = some (tokens, next)) : ∀ t ∈ tokens, t.IsStated := by
  rw [start?.eq_def] at h
  split at h
  case h_8 =>
    split_ifs at h <;> cases h <;> exact List.forall_mem_nil _
  all_goals
    cases h
    simp [IsStated]

/-- A token that a character ends stands in front of those that the character starts. -/
theorem isStated_of_end {done : Token} (hdone : done.IsStated) {c : Char} {tokens : List Token}
    {next : Lexing} (h : (do
      let (more, next) ← start? c
      return (done :: more, next)) = some (tokens, next)) : ∀ t ∈ tokens, t.IsStated := by
  obtain ⟨⟨more, next⟩, hmore, heq⟩ := Option.bind_eq_some_iff.mp h
  cases heq
  exact List.forall_mem_cons.mpr ⟨hdone, isStated_of_start? hmore⟩

theorem isStated_of_step? {state next : Lexing} {c : Char} {tokens : List Token}
    (h : step? state c = some (tokens, next)) : ∀ t ∈ tokens, t.IsStated := by
  cases state with
  | between => exact isStated_of_start? h
  | word letters =>
      rw [step?] at h
      split at h
      · cases h
        exact List.forall_mem_nil _
      · obtain ⟨done, hdone, hrest⟩ := Option.bind_eq_some_iff.mp h
        exact isStated_of_end (isStated_of_ofWord? hdone) hrest
  | number chars =>
      rw [step?] at h
      split at h
      · cases h
        exact List.forall_mem_nil _
      · obtain ⟨done, hdone, hrest⟩ := Option.bind_eq_some_iff.mp h
        exact isStated_of_end (isStated_of_ofNumber? hdone) hrest
  | text points =>
      rw [step?] at h
      split_ifs at h <;> cases h <;> simp [ofPoints, IsStated]
  | escape points =>
      rw [step?] at h
      split at h
      · cases h
        exact List.forall_mem_nil _
      · obtain ⟨n, -, heq⟩ := Option.map_eq_some_iff.mp h
        cases heq
        exact List.forall_mem_nil _
  | codeUnit points missing value =>
      obtain ⟨digit, -, heq⟩ := Option.map_eq_some_iff.mp h
      split at heq <;> cases heq <;> exact List.forall_mem_nil _

theorem isStated_of_finish? {state : Lexing} {tokens : List Token}
    (h : finish? state = some tokens) : ∀ t ∈ tokens, t.IsStated := by
  cases state with
  | between =>
      cases h
      exact List.forall_mem_nil _
  | word letters =>
      obtain ⟨t, ht, rfl⟩ := Option.map_eq_some_iff.mp h
      exact List.forall_mem_singleton.mpr (isStated_of_ofWord? ht)
  | number chars =>
      obtain ⟨t, ht, rfl⟩ := Option.map_eq_some_iff.mp h
      exact List.forall_mem_singleton.mpr (isStated_of_ofNumber? ht)
  | text | escape | codeUnit => cases h

end Lexing

theorem Token.isStated_of_ofText? {cs : List Char} {tokens : List Token}
    (h : ofText? cs = some tokens) : ∀ t ∈ tokens, t.IsStated := by
  obtain ⟨⟨before, last⟩, hbefore, hlast⟩ := Option.bind_eq_some_iff.mp h
  obtain ⟨more, hmore, heq⟩ := Option.bind_eq_some_iff.mp hlast
  cases heq
  have hkept : ∀ t ∈ before, t.IsStated := by
    refine of_foldlM_eq_some (P := fun s => ∀ t ∈ s.1, t.IsStated) (Q := fun _ => True) ?_
      (fun _ _ => trivial) (List.forall_mem_nil _) hbefore
    rintro ⟨earlier, state⟩ c s' hearlier - hstep
    obtain ⟨⟨new, next⟩, hnew, rfl⟩ := Option.map_eq_some_iff.mp hstep
    have hnew' := Lexing.isStated_of_step? hnew
    simp only [List.mem_append, List.mem_reverse]
    rintro t (ht | ht)
    · exact hnew' t ht
    · exact hearlier t ht
  have hmore' := Lexing.isStated_of_finish? hmore
  simp only [List.mem_append, List.mem_reverse]
  rintro t (ht | ht)
  · exact hmore' t ht
  · exact hkept t ht

/-- All the values in a frame are stated. -/
def Frame.IsStated : Frame → Prop
  | array items => ∀ v ∈ items, v.IsStated
  | member members _ => ∀ m ∈ members, m.2.IsStated

namespace Reading

def IsStated : Reading → Prop
  | value outer | firstItem outer | firstKey outer => ∀ f ∈ outer, f.IsStated
  | afterItem items outer => (∀ v ∈ items, v.IsStated) ∧ ∀ f ∈ outer, f.IsStated
  | nextKey members outer | afterKey members _ outer | afterMember members outer =>
      (∀ m ∈ members, m.2.IsStated) ∧ ∀ f ∈ outer, f.IsStated
  | done v => v.IsStated

theorem isStated_complete {v : Value} {outer : List Frame} (hv : v.IsStated)
    (houter : ∀ f ∈ outer, f.IsStated) : (complete v outer).IsStated := by
  cases outer with
  | nil => exact hv
  | cons f outer =>
      obtain ⟨hf, hrest⟩ := List.forall_mem_cons.mp houter
      cases f with
      | array items => exact ⟨List.forall_mem_cons.mpr ⟨hv, hf⟩, hrest⟩
      | member members key => exact ⟨List.forall_mem_cons.mpr ⟨hv, hf⟩, hrest⟩

theorem isStated_of_begin? {outer : List Frame} {t : Token} {r : Reading}
    (houter : ∀ f ∈ outer, f.IsStated) (ht : t.IsStated) (h : begin? outer t = some r) :
    r.IsStated := by
  cases t with
  | openObject | openArray =>
      cases h
      exact houter
  | text s =>
      cases s with
      | none =>
          cases h
          exact isStated_complete .unpaired houter
      | some s =>
          cases h
          exact isStated_complete (.str s) houter
  | scalar v =>
      cases h
      exact isStated_complete ht houter
  | _ => cases h

theorem isStated_of_step? {r r' : Reading} {t : Token} (hr : r.IsStated) (ht : t.IsStated)
    (h : step? r t = some r') : r'.IsStated := by
  cases r with
  | value outer => exact isStated_of_begin? hr ht h
  | firstItem outer =>
      have hinner : ∀ f ∈ Frame.array [] :: outer, f.IsStated :=
        List.forall_mem_cons.mpr ⟨List.forall_mem_nil _, hr⟩
      cases t with
      | closeArray =>
          cases h
          exact isStated_complete (.arr [] (List.forall_mem_nil _)) hr
      | _ => exact isStated_of_begin? hinner ht h
  | afterItem items outer =>
      obtain ⟨hitems, houter⟩ := hr
      cases t with
      | comma =>
          cases h
          exact List.forall_mem_cons.mpr ⟨hitems, houter⟩
      | closeArray =>
          cases h
          exact isStated_complete (.arr _ fun v hv => hitems v (List.mem_reverse.mp hv)) houter
      | _ => cases h
  | firstKey outer =>
      cases t with
      | closeObject =>
          cases h
          exact isStated_complete (.obj [] (List.forall_mem_nil _)) hr
      | text k =>
          cases h
          exact ⟨List.forall_mem_nil _, hr⟩
      | _ => cases h
  | nextKey members outer =>
      cases t with
      | text k =>
          cases h
          exact hr
      | _ => cases h
  | afterKey members k outer =>
      obtain ⟨hmembers, houter⟩ := hr
      cases t with
      | colon =>
          cases h
          exact List.forall_mem_cons.mpr ⟨hmembers, houter⟩
      | _ => cases h
  | afterMember members outer =>
      obtain ⟨hmembers, houter⟩ := hr
      cases t with
      | comma =>
          cases h
          exact ⟨hmembers, houter⟩
      | closeObject =>
          cases h
          exact isStated_complete (.obj _ fun m hm => hmembers m (List.mem_reverse.mp hm)) houter
      | _ => cases h
  | done v => cases h

end Reading

theorem isStated_of_read? {s : String} {v : Value} (h : read? s = some v) : v.IsStated := by
  obtain ⟨tokens, htokens, hrest⟩ := Option.bind_eq_some_iff.mp h
  obtain ⟨last, hlast, hfinish⟩ := Option.bind_eq_some_iff.mp hrest
  have hstart : (Reading.value []).IsStated := List.forall_mem_nil _
  have hstated : last.IsStated :=
    of_foldlM_eq_some (fun _ _ _ hr ht hstep => Reading.isStated_of_step? hr ht hstep)
      (Token.isStated_of_ofText? htokens) hstart hlast
  cases last with
  | done w =>
      cases hfinish
      exact hstated
  | _ => cases hfinish

end VoteTrace.Json
