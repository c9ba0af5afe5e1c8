import Mathlib.Data.List.Basic
import Mathlib.Data.List.Induction

/-!
Lists told from the entries before each entry.

Some unfold from themselves: some first entries, and behind them what follows from each entry in
turn, given the entries before it. If nothing that follows from an entry is that entry or one
before it, then every entry of such a list has its place before its own turn comes, and the list
is the only one of its kind.

Others keep of a list only the entries that are the first with their key, or stand beside the
places of the entries.
-/

namespace VoteTrace

/-- Each entry beside the entries before it. -/
def withEarlier {α : Type} : List α → List (List α × α)
  | [] => []
  | a :: l => ([], a) :: (withEarlier l).map fun (earlier, b) => (a :: earlier, b)

theorem withEarlier_append {α : Type} (l m : List α) :
    withEarlier (l ++ m) =
      withEarlier l ++ (withEarlier m).map fun (earlier, b) => (l ++ earlier, b) := by
  induction l with
  | nil => simp [withEarlier]
  | cons a l ih => simp [withEarlier, ih, Function.comp_def]

theorem withEarlier_map {α β : Type} (f : α → β) (l : List α) :
    withEarlier (l.map f) =
      (withEarlier l).map fun (earlier, a) => (earlier.map f, f a) := by
  induction l with
  | nil => rfl
  | cons a l ih => simp [withEarlier, ih, Function.comp_def]

theorem mem_withEarlier {α : Type} {l earlier : List α} {a : α} :
    (earlier, a) ∈ withEarlier l ↔ ∃ later, l = earlier ++ a :: later := by
  induction l generalizing earlier with
  | nil => simp [withEarlier]
  | cons b l ih =>
      simp only [withEarlier, List.mem_cons, Prod.mk.injEq, List.mem_map, Prod.exists]
      constructor
      · rintro (⟨rfl, rfl⟩ | ⟨earlier, a, hmem, rfl, rfl⟩)
        · exact ⟨l, rfl⟩
        · obtain ⟨later, rfl⟩ := ih.mp hmem
          exact ⟨later, rfl⟩
      · rintro ⟨later, hl⟩
        rcases earlier with _ | ⟨c, earlier⟩
        · simp only [List.nil_append, List.cons.injEq] at hl
          exact .inl ⟨rfl, hl.1.symm⟩
        · simp only [List.cons_append, List.cons.injEq] at hl
          exact .inr ⟨earlier, a, ih.mpr ⟨later, hl.2⟩, by rw [hl.1], rfl⟩

theorem eq_append_cons_of_getElem? {α : Type} {l : List α} {i : Nat} {a : α}
    (h : l[i]? = some a) : l = l.take i ++ a :: l.drop (i + 1) := by
  obtain ⟨hi, rfl⟩ := List.getElem?_eq_some_iff.mp h
  rw [← List.drop_eq_getElem_cons hi, List.take_append_drop]

/-- What every entry has as soon as all before it have it, all entries have. An entry may stand at
several places, so the induction is on the place. -/
theorem forall_mem_of_forall_earlier {α : Type} {P : α → Prop} {l : List α}
    (h : ∀ earlier a later, l = earlier ++ a :: later → (∀ b ∈ earlier, P b) → P a) :
    ∀ a ∈ l, P a := by
  induction l using List.reverseRecOn with
  | nil => exact fun a ha => absurd ha List.not_mem_nil
  | append_singleton l a ih =>
      have hl : ∀ b ∈ l, P b :=
        ih fun earlier b later hsplit => h earlier b (later ++ [a]) (by simp [hsplit])
      intro b hb
      rcases List.mem_append.mp hb with hb | hb
      · exact hl b hb
      · obtain rfl := List.mem_singleton.mp hb
        exact h l b [] rfl hl

theorem pairwise_withEarlier {α : Type} (l : List α) :
    (withEarlier l).Pairwise fun x y => x.2 ∈ y.1 := by
  induction l with
  | nil => exact .nil
  | cons a l ih =>
      refine List.pairwise_cons.mpr ⟨?_, List.pairwise_map.mpr (ih.imp fun h => ?_)⟩
      · intro y hy
        obtain ⟨x, _, rfl⟩ := List.mem_map.mp hy
        exact List.mem_cons_self
      · exact List.mem_cons_of_mem a h

theorem map_snd_withEarlier {α : Type} (l : List α) : (withEarlier l).map Prod.snd = l := by
  induction l with
  | nil => rfl
  | cons a l ih =>
      simp only [withEarlier, List.map_cons, List.map_map, Function.comp_def]
      exact congrArg (a :: ·) ih

/-- What follows from each entry in turn. -/
def offspring {α β : Type} (next : List α → α → List β) (l : List α) : List β :=
  (withEarlier l).flatMap fun (earlier, a) => next earlier a

theorem offspring_append {α β : Type} (next : List α → α → List β) (l m : List α) :
    offspring next (l ++ m) =
      offspring next l ++ offspring (fun earlier => next (l ++ earlier)) m := by
  rw [offspring, withEarlier_append, List.flatMap_append, List.flatMap_map]
  rfl

theorem offspring_append_singleton {α β : Type} (next : List α → α → List β) (l : List α)
    (a : α) : offspring next (l ++ [a]) = offspring next l ++ next l a := by
  rw [offspring_append]
  simp [offspring, withEarlier]

theorem offspring_append_cons {α β : Type} (next : List α → α → List β) (l m : List α)
    (a : α) :
    offspring next (l ++ a :: m) =
      offspring next l ++ (next l a ++ offspring (fun between => next (l ++ a :: between)) m) := by
  have hsplit : l ++ a :: m = (l ++ [a]) ++ m := by simp
  rw [hsplit, offspring_append, offspring_append_singleton, List.append_assoc]
  simp only [List.append_assoc, List.singleton_append]

theorem mem_offspring {α β : Type} {next : List α → α → List β} {l : List α} {b : β} :
    b ∈ offspring next l ↔
      ∃ earlier a later, l = earlier ++ a :: later ∧ b ∈ next earlier a := by
  simp only [offspring, List.mem_flatMap, Prod.exists, mem_withEarlier]
  constructor
  · rintro ⟨earlier, a, ⟨later, hl⟩, hb⟩
    exact ⟨earlier, a, later, hl, hb⟩
  · rintro ⟨earlier, a, later, hl, hb⟩
    exact ⟨earlier, a, ⟨later, hl⟩, hb⟩

theorem map_offspring {α β γ : Type} (f : β → γ) (next : List α → α → List β)
    (l : List α) :
    (offspring next l).map f = offspring (fun earlier a => (next earlier a).map f) l :=
  List.map_flatMap

/-- Where what follows from an entry are images, the image at a place stands beside what it is the
image of. -/
theorem exists_of_getElem?_offspring_map {α β γ : Type} (next : List α → α → List β)
    (f : α → β → γ) {l : List α} {i : Nat} {c : γ}
    (h : (offspring (fun earlier a => (next earlier a).map (f a)) l)[i]? = some c) :
    ∃ earlier a later b, l = earlier ++ a :: later ∧ b ∈ next earlier a ∧
      (offspring next l)[i]? = some b ∧ c = f a b := by
  -- Both lists are images of one in which every entry still knows where it came from.
  have himages := map_offspring (fun x => f x.1 x.2)
    (fun earlier a => (next earlier a).map fun b => (a, b)) l
  have hentries := map_offspring Prod.snd
    (fun earlier a => (next earlier a).map fun b => (a, b)) l
  simp only [List.map_map, Function.comp_def, List.map_id_fun', id_eq] at himages hentries
  rw [← himages, List.getElem?_map, Option.map_eq_some_iff] at h
  obtain ⟨⟨a, b⟩, hget, rfl⟩ := h
  obtain ⟨earlier, a', later, hl, hmem⟩ := mem_offspring.mp (List.mem_of_getElem? hget)
  obtain ⟨b', hb, heq⟩ := List.mem_map.mp hmem
  cases heq
  refine ⟨earlier, a, later, b, hl, hb, ?_, rfl⟩
  rw [← hentries, List.getElem?_map, hget]
  rfl

theorem offspring_map {α β γ : Type} (f : α → β) (next : List β → β → List γ)
    (l : List α) :
    offspring next (l.map f) = offspring (fun earlier a => next (earlier.map f) (f a)) l := by
  rw [offspring, withEarlier_map, List.flatMap_map]
  rfl

theorem offspring_congr {α β : Type} {next next' : List α → α → List β} {l : List α}
    (h : ∀ earlier a later, l = earlier ++ a :: later → next earlier a = next' earlier a) :
    offspring next l = offspring next' l := by
  apply List.flatMap_congr
  rintro ⟨earlier, a⟩ hmem
  obtain ⟨later, hl⟩ := mem_withEarlier.mp hmem
  exact h earlier a later hl

section Unfolding

variable {α : Type} {firsts : List α} {next : List α → α → List α}

/-- The image of a list that unfolds, if what follows from an image is the image of what
follows. -/
theorem map_eq_of_eq_offspring {β : Type} {next' : List β → β → List β} (f : α → β)
    (hnext : ∀ earlier a, (next earlier a).map f = next' (earlier.map f) (f a))
    {l : List α} (hl : l = firsts ++ offspring next l) :
    l.map f = firsts.map f ++ offspring next' (l.map f) := by
  conv_lhs => rw [hl]
  rw [List.map_append, map_offspring, offspring_map]
  simp only [hnext]

theorem prefix_of_eq_offspring {l earlier later : List α}
    (hl : l = firsts ++ offspring next l) (h : l = earlier ++ later) :
    firsts ++ offspring next earlier <+: l := by
  rw [h, offspring_append] at hl
  rw [h, hl, ← List.append_assoc]
  exact List.prefix_append _ _

/-- What is unfolded so far does not end at an entry whose turn is still to come: the entry
would have to follow from itself or from one behind it. -/
theorem length_ne_of_eq_offspring
    (hnew : ∀ earlier a, ∀ b ∈ next earlier a, b ∉ earlier ∧ b ≠ a)
    {l earlier later : List α} {a : α} (hl : l = firsts ++ offspring next l)
    (h : l = earlier ++ a :: later) :
    earlier.length ≠ (firsts ++ offspring next earlier).length := by
  intro hlength
  have hstuck : firsts ++ offspring next earlier = earlier := by
    have hprefix := List.prefix_of_prefix_length_le (prefix_of_eq_offspring hl h)
      ⟨a :: later, h.symm⟩ (Nat.le_of_eq hlength.symm)
    exact hprefix.eq_of_length hlength.symm
  have hrest : a :: later = offspring (fun before => next (earlier ++ before)) (a :: later) := by
    rw [h, offspring_append, ← List.append_assoc, hstuck] at hl
    exact List.append_cancel_left hl
  have ha : a ∈ offspring (fun before => next (earlier ++ before)) (a :: later) :=
    hrest ▸ List.mem_cons_self
  obtain ⟨before, b, behind, hsplit, hb⟩ := mem_offspring.mp ha
  obtain ⟨hfresh, hne⟩ := hnew _ _ _ hb
  rcases before with _ | ⟨c, before⟩
  · simp only [List.nil_append, List.cons.injEq] at hsplit
    exact hne hsplit.1
  · simp only [List.cons_append, List.cons.injEq] at hsplit
    exact hfresh (by simp [hsplit.1])

theorem length_lt_of_eq_offspring
    (hnew : ∀ earlier a, ∀ b ∈ next earlier a, b ∉ earlier ∧ b ≠ a)
    {l earlier later : List α} {a : α} (hl : l = firsts ++ offspring next l)
    (h : l = earlier ++ a :: later) :
    earlier.length < (firsts ++ offspring next earlier).length := by
  have hne := length_ne_of_eq_offspring hnew hl h
  induction earlier using List.reverseRecOn generalizing a later with
  | nil =>
      rw [List.length_nil] at hne ⊢
      omega
  | append_singleton earlier b ih =>
      have hsplit : l = earlier ++ b :: a :: later := by simp [h]
      have hlt := ih hsplit (length_ne_of_eq_offspring hnew hl hsplit)
      simp only [offspring_append_singleton, List.length_append, List.length_singleton]
        at hlt hne ⊢
      omega

theorem append_singleton_prefix_of_eq_offspring
    (hnew : ∀ earlier a, ∀ b ∈ next earlier a, b ∉ earlier ∧ b ≠ a)
    {l earlier later : List α} {a : α} (hl : l = firsts ++ offspring next l)
    (h : l = earlier ++ a :: later) :
    earlier ++ [a] <+: firsts ++ offspring next earlier := by
  have hlength := length_lt_of_eq_offspring hnew hl h
  -- Both are prefixes of `l`, so the shorter is one of the longer.
  have hprefix : earlier ++ [a] <+: l := ⟨later, by simp [h]⟩
  apply List.prefix_of_prefix_length_le hprefix (prefix_of_eq_offspring hl h)
  rw [List.length_append, List.length_singleton]
  omega

theorem prefix_of_eq_offspring_of_prefix
    (hnew : ∀ earlier a, ∀ b ∈ next earlier a, b ∉ earlier ∧ b ≠ a)
    {l m : List α} (hl : l = firsts ++ offspring next l)
    (hm : m = firsts ++ offspring next m) {t : List α} (ht : t <+: l) : t <+: m := by
  induction t using List.reverseRecOn with
  | nil => exact List.nil_prefix
  | append_singleton t a ih =>
      obtain ⟨later, hlater⟩ := ht
      have hsplit : l = t ++ a :: later := by simp [← hlater]
      obtain ⟨behind, hbehind⟩ := ih ⟨a :: later, hsplit.symm⟩
      exact (append_singleton_prefix_of_eq_offspring hnew hl hsplit).trans
        (prefix_of_eq_offspring hm hbehind.symm)

/-- There is no second list that unfolds from the same first entries. -/
theorem eq_of_eq_offspring
    (hnew : ∀ earlier a, ∀ b ∈ next earlier a, b ∉ earlier ∧ b ≠ a)
    {l m : List α} (hl : l = firsts ++ offspring next l)
    (hm : m = firsts ++ offspring next m) : l = m := by
  have hlm := prefix_of_eq_offspring_of_prefix hnew hl hm (List.prefix_refl l)
  have hml := prefix_of_eq_offspring_of_prefix hnew hm hl (List.prefix_refl m)
  exact hlm.eq_of_length_le hml.length_le

end Unfolding

section Firsts

variable {α κ : Type} [DecidableEq κ] {key : α → κ} {l : List α} {a : α}

/-- The entries whose key no entry before them has. -/
def firstsBy (key : α → κ) (l : List α) : List α :=
  ((withEarlier l).filter fun (earlier, a) => key a ∉ earlier.map key).map Prod.snd

theorem firstsBy_append (key : α → κ) (l m : List α) :
    firstsBy key (l ++ m) =
      firstsBy key l ++ (firstsBy key m).filter fun a => key a ∉ l.map key := by
  simp only [firstsBy, withEarlier_append, List.filter_append, List.map_append, List.filter_map,
    List.map_map, List.filter_filter]
  congr 2
  apply List.filter_congr
  rintro ⟨earlier, a⟩ _
  rw [Bool.eq_iff_iff]
  simp [or_imp, forall_and]

theorem firstsBy_cons (key : α → κ) (a : α) (l : List α) :
    firstsBy key (a :: l) = a :: (firstsBy key l).filter fun b => key b ≠ key a := by
  have happend := firstsBy_append key [a] l
  simpa [firstsBy, withEarlier] using happend

theorem firstsBy_append_singleton (key : α → κ) (l : List α) (a : α) :
    firstsBy key (l ++ [a]) =
      if key a ∈ l.map key then firstsBy key l else firstsBy key l ++ [a] := by
  have hsingleton : firstsBy key [a] = [a] := by simp [firstsBy, withEarlier]
  rw [firstsBy_append, hsingleton]
  split
  · rename_i htaken
    rw [List.filter_cons_of_neg (by simpa using htaken), List.filter_nil, List.append_nil]
  · rename_i hfresh
    rw [List.filter_cons_of_pos (by simpa using hfresh), List.filter_nil]

theorem firstsBy_sublist (key : α → κ) (l : List α) : (firstsBy key l).Sublist l := by
  conv_rhs => rw [← map_snd_withEarlier l]
  exact List.filter_sublist.map _

theorem mem_firstsBy :
    a ∈ firstsBy key l ↔
      ∃ earlier later, l = earlier ++ a :: later ∧ key a ∉ earlier.map key := by
  simp only [firstsBy, List.mem_map, List.mem_filter, decide_eq_true_eq, Prod.exists,
    exists_eq_right, mem_withEarlier]
  constructor
  · rintro ⟨earlier, ⟨later, hl⟩, hnew⟩
    exact ⟨earlier, later, hl, hnew⟩
  · rintro ⟨earlier, later, hl, hnew⟩
    exact ⟨earlier, ⟨later, hl⟩, hnew⟩

theorem nodup_map_firstsBy (key : α → κ) (l : List α) : ((firstsBy key l).map key).Nodup := by
  induction l with
  | nil => exact .nil
  | cons a l ih =>
      rw [firstsBy_cons, List.map_cons, List.nodup_cons]
      refine ⟨by simp, ih.sublist (List.filter_sublist.map key)⟩

theorem exists_mem_firstsBy (key : α → κ) (h : a ∈ l) : ∃ b ∈ firstsBy key l, key b = key a := by
  induction l with
  | nil => simp at h
  | cons c l ih =>
      rw [firstsBy_cons]
      by_cases hc : key a = key c
      · exact ⟨c, List.mem_cons_self, hc.symm⟩
      · have hne : a ≠ c := fun heq => hc (congrArg key heq)
        obtain ⟨b, hb, hkey⟩ := ih ((List.mem_cons.mp h).resolve_left hne)
        exact ⟨b, List.mem_cons_of_mem c (List.mem_filter.mpr ⟨hb, by simpa [hkey] using hc⟩), hkey⟩

end Firsts

section Places

variable {α : Type}

theorem pairwise_lt_map_snd_zipIdx (l : List α) :
    (l.zipIdx.map Prod.snd).Pairwise (· < ·) := by
  rw [List.zipIdx_map_snd]
  exact List.pairwise_lt_range'

theorem nodup_map_snd_zipIdx (l : List α) : (l.zipIdx.map Prod.snd).Nodup :=
  (pairwise_lt_map_snd_zipIdx l).imp Nat.ne_of_lt

/-- What a filter keeps, the last first, stands at falling places. -/
theorem exists_places_reverse_filter (keep : α → Bool) (l : List α) :
    ∃ places : List Nat, places.Pairwise (· > ·) ∧
      (l.filter keep).reverse.map some = places.map (l[·]?) ∧
      ∀ j, j ∈ places ↔ ∃ a, l[j]? = some a ∧ keep a = true := by
  refine ⟨((l.zipIdx.filter fun x => keep x.1).map Prod.snd).reverse, ?_, ?_, ?_⟩
  · rw [List.pairwise_reverse]
    exact (pairwise_lt_map_snd_zipIdx l).sublist (List.filter_sublist.map _)
  · have hentries : l.filter keep = (l.zipIdx.filter fun x => keep x.1).map Prod.fst := by
      conv_lhs => rw [← List.zipIdx_map_fst 0 l, List.filter_map]
      rfl
    rw [hentries, List.map_reverse, List.map_reverse, List.map_map, List.map_map]
    congr 1
    apply List.map_congr_left
    rintro ⟨a, j⟩ hmem
    exact (List.mk_mem_zipIdx_iff_getElem?.mp (List.mem_filter.mp hmem).1).symm
  · intro j
    simp only [List.mem_reverse, List.mem_map, List.mem_filter, Prod.exists, exists_eq_right,
      List.mk_mem_zipIdx_iff_getElem?]

end Places

end VoteTrace
