namespace VoteTrace.Ascending

/-- Puts `a` in front of the first entry above it; an entry equal to `a` stays instead. -/
def insert {α : Type} (cmp : α → α → Ordering) (a : α) : List α → List α
  | [] => [a]
  | b :: rest =>
    match cmp a b with
    | .lt => a :: b :: rest
    | .eq => b :: rest
    | .gt => b :: insert cmp a rest

/-- The entries in order, each once. -/
def ofList {α : Type} (cmp : α → α → Ordering) (entries : List α) : List α :=
  entries.foldr (insert cmp) []

theorem mem_insert {α : Type} {cmp : α → α → Ordering} [Std.LawfulEqCmp cmp]
    {a x : α} {entries : List α} :
    x ∈ insert cmp a entries ↔ x = a ∨ x ∈ entries := by
  induction entries with
  | nil => simp [insert]
  | cons b rest ih =>
      unfold insert
      split
      · simp
      · rename_i h
        have hab : a = b := Std.LawfulEqCmp.eq_of_compare h
        simp [hab]
      · simp only [List.mem_cons, ih]
        exact or_left_comm

theorem eq_or_mem_of_mem_insert {α : Type} {cmp : α → α → Ordering} {a x : α}
    {entries : List α} (h : x ∈ insert cmp a entries) : x = a ∨ x ∈ entries := by
  induction entries with
  | nil => simpa [insert] using h
  | cons b rest ih =>
      unfold insert at h
      split at h
      · exact List.mem_cons.mp h
      · exact .inr h
      · rcases List.mem_cons.mp h with rfl | h
        · exact .inr List.mem_cons_self
        · exact (ih h).imp_right (List.mem_cons_of_mem b)

theorem pairwise_insert {α : Type} {cmp : α → α → Ordering} [Std.TransCmp cmp]
    {a : α} {entries : List α}
    (h : entries.Pairwise fun x y => cmp x y = .lt) :
    (insert cmp a entries).Pairwise fun x y => cmp x y = .lt := by
  induction entries with
  | nil => simp [insert]
  | cons b rest ih =>
      obtain ⟨hb, hrest⟩ := List.pairwise_cons.mp h
      unfold insert
      split
      · rename_i hab
        refine List.pairwise_cons.mpr ⟨fun y hy => ?_, h⟩
        rcases List.mem_cons.mp hy with rfl | hy
        · exact hab
        · exact Std.TransCmp.lt_trans hab (hb y hy)
      · exact h
      · rename_i hab
        refine List.pairwise_cons.mpr ⟨fun y hy => ?_, ih hrest⟩
        rcases eq_or_mem_of_mem_insert hy with rfl | hy
        · exact Std.OrientedCmp.lt_of_gt hab
        · exact hb y hy

theorem mem_ofList {α : Type} {cmp : α → α → Ordering} [Std.LawfulEqCmp cmp]
    {x : α} {entries : List α} :
    x ∈ ofList cmp entries ↔ x ∈ entries := by
  induction entries with
  | nil => simp [ofList]
  | cons a rest ih =>
      change x ∈ insert cmp a (ofList cmp rest) ↔ _
      rw [mem_insert, ih, List.mem_cons]

theorem pairwise_ofList {α : Type} {cmp : α → α → Ordering} [Std.TransCmp cmp]
    (entries : List α) :
    (ofList cmp entries).Pairwise fun x y => cmp x y = .lt := by
  induction entries with
  | nil => simp [ofList]
  | cons a rest ih => exact pairwise_insert ih

theorem nodup_ofList {α : Type} {cmp : α → α → Ordering} [Std.TransCmp cmp]
    (entries : List α) : (ofList cmp entries).Nodup := by
  apply (pairwise_ofList entries).imp
  rintro x y hlt rfl
  have hself : cmp x x = .eq := Std.ReflCmp.compare_self
  simp [hself] at hlt

theorem ofList_eq_ofList_iff {α : Type} {cmp : α → α → Ordering} [Std.TransCmp cmp]
    [Std.LawfulEqCmp cmp] {entries entries' : List α} :
    ofList cmp entries = ofList cmp entries' ↔ ∀ x, x ∈ entries ↔ x ∈ entries' := by
  constructor
  · intro h x
    have hx : x ∈ ofList cmp entries ↔ x ∈ ofList cmp entries' := by rw [h]
    rwa [mem_ofList, mem_ofList] at hx
  · intro h
    have hperm : (ofList cmp entries).Perm (ofList cmp entries') := by
      apply (List.perm_ext_iff_of_nodup (nodup_ofList _) (nodup_ofList _)).mpr
      intro x
      rw [mem_ofList, mem_ofList, h]
    refine hperm.eq_of_pairwise ?_ (pairwise_ofList _) (pairwise_ofList _)
    intro x y _ _ hxy hyx
    exact absurd hyx (Std.OrientedCmp.not_lt_of_lt hxy)

theorem perm_insert {α : Type} {cmp : α → α → Ordering} {a : α} {entries : List α}
    (h : ∀ b ∈ entries, cmp a b ≠ .eq) : (insert cmp a entries).Perm (a :: entries) := by
  induction entries with
  | nil => exact .refl _
  | cons b rest ih =>
      obtain ⟨hb, hrest⟩ := List.forall_mem_cons.mp h
      unfold insert
      split
      · exact .refl _
      · rename_i hab
        exact absurd hab hb
      · exact ((ih hrest).cons b).trans (.swap a b rest)

theorem perm_ofList {α : Type} {cmp : α → α → Ordering} {entries : List α}
    (h : entries.Pairwise fun x y => cmp x y ≠ .eq) : (ofList cmp entries).Perm entries := by
  induction entries with
  | nil => exact .refl _
  | cons a rest ih =>
      obtain ⟨ha, hrest⟩ := List.pairwise_cons.mp h
      have hperm := ih hrest
      refine (perm_insert fun b hb => ha b (hperm.subset hb)).trans (hperm.cons a)

end VoteTrace.Ascending
