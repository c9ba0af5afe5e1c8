import VoteTrace.Proofs.Route.Seed

namespace VoteTrace.Telemetry

theorem earliest?_eq_none_iff {votes : List Vote} : earliest? votes = none ↔ votes = [] := by
  cases votes with
  | nil => simp [earliest?]
  | cons v votes =>
      rw [earliest?]
      split
      · simp
      · split <;> simp

theorem earliest?_append_singleton (votes : List Vote) (v : Vote) :
    earliest? (votes ++ [v]) = match earliest? votes with
      | none => some v
      | some w => if v.timestamp < w.timestamp then some v else some w := by
  induction votes with
  | nil => rfl
  | cons a votes ih =>
      simp only [List.cons_append, earliest?, ih]
      cases earliest? votes with
      | none => rfl
      | some w =>
          -- Of three times it does not matter which two are compared first.
          simp only [UInt64.lt_iff_toNat_lt]
          grind

/-- No vote of the list is earlier, and those in front of it are later. -/
def IsEarliestIn (votes : List Vote) (v : Vote) : Prop :=
  ∃ before after, votes = before ++ v :: after ∧
    (∀ w ∈ before, v.timestamp < w.timestamp) ∧ ∀ w ∈ after, v.timestamp ≤ w.timestamp

theorem IsEarliestIn.mem {votes : List Vote} {v : Vote} (h : IsEarliestIn votes v) :
    v ∈ votes := by
  obtain ⟨before, after, rfl, -⟩ := h
  exact List.mem_append_cons_self

theorem IsEarliestIn.le {votes : List Vote} {v w : Vote} (h : IsEarliestIn votes v)
    (hw : w ∈ votes) : v.timestamp ≤ w.timestamp := by
  obtain ⟨before, after, rfl, hbefore, hafter⟩ := h
  rcases List.mem_append.mp hw with hw | hw
  · exact UInt64.le_of_lt (hbefore w hw)
  · rcases List.mem_cons.mp hw with rfl | hw
    · exact UInt64.le_refl _
    · exact hafter w hw

theorem isEarliestIn_cons {votes : List Vote} {a v : Vote} :
    IsEarliestIn (a :: votes) v ↔
      (a = v ∧ ∀ w ∈ votes, a.timestamp ≤ w.timestamp) ∨
        v.timestamp < a.timestamp ∧ IsEarliestIn votes v := by
  constructor
  · rintro ⟨_ | ⟨b, before⟩, after, heq, hbefore, hafter⟩
    · obtain ⟨rfl, rfl⟩ := List.cons.inj heq
      exact .inl ⟨rfl, hafter⟩
    · obtain ⟨rfl, rfl⟩ := List.cons.inj heq
      obtain ⟨ha, hbefore⟩ := List.forall_mem_cons.mp hbefore
      exact .inr ⟨ha, before, after, rfl, hbefore, hafter⟩
  · rintro (⟨rfl, hafter⟩ | ⟨ha, before, after, rfl, hbefore, hafter⟩)
    · exact ⟨[], votes, rfl, by simp, hafter⟩
    · exact ⟨a :: before, after, rfl, List.forall_mem_cons.mpr ⟨ha, hbefore⟩, hafter⟩

theorem earliest?_eq_some_iff {votes : List Vote} {v : Vote} :
    earliest? votes = some v ↔ IsEarliestIn votes v := by
  induction votes generalizing v with
  | nil => simp [earliest?, IsEarliestIn]
  | cons a votes ih =>
      rw [isEarliestIn_cons, ← ih, earliest?]
      cases hrest : earliest? votes with
      | none =>
          obtain rfl := earliest?_eq_none_iff.mp hrest
          simp
      | some w =>
          have hw : IsEarliestIn votes w := ih.mp hrest
          -- The head is no later than all the rest if it is no later than their earliest.
          have hhead : (∀ x ∈ votes, a.timestamp ≤ x.timestamp) ↔
              ¬w.timestamp < a.timestamp := by
            rw [UInt64.not_lt]
            exact ⟨fun h => h w hw.mem, fun h x hx => UInt64.le_trans h (hw.le hx)⟩
          rw [hhead, Option.some_inj]
          by_cases hlt : w.timestamp < a.timestamp
          · simp only [hlt, if_true, Option.some_inj, not_true, and_false, false_or]
            exact ⟨fun h => ⟨h ▸ hlt, h⟩, fun h => h.2⟩
          · simp only [hlt, if_false, Option.some_inj, not_false_eq_true, and_true]
            refine ⟨.inl, fun h => h.elim id ?_⟩
            rintro ⟨hv, rfl⟩
            exact absurd hv hlt

theorem isEarliestIn_filter {votes : List Vote} {p : Vote → Bool} {v : Vote} :
    IsEarliestIn (votes.filter p) v ↔ ∃ before after, votes = before ++ v :: after ∧ p v ∧
      (∀ w ∈ before, p w → v.timestamp < w.timestamp) ∧
      ∀ w ∈ after, p w → v.timestamp ≤ w.timestamp := by
  constructor
  · rintro ⟨before, after, heq, hbefore, hafter⟩
    obtain ⟨l, m, rfl, rfl, hm⟩ := List.filter_eq_append_iff.mp heq
    obtain ⟨k, n, rfl, hk, hv, rfl⟩ := List.filter_eq_cons_iff.mp hm
    refine ⟨l ++ k, n, by simp, hv, ?_, fun w hw hp => hafter w (List.mem_filter.mpr ⟨hw, hp⟩)⟩
    intro w hw hp
    rcases List.mem_append.mp hw with hw | hw
    · exact hbefore w (List.mem_filter.mpr ⟨hw, hp⟩)
    · exact absurd hp (hk w hw)
  · rintro ⟨before, after, rfl, hv, hbefore, hafter⟩
    refine ⟨before.filter p, after.filter p, ?_, ?_, ?_⟩
    · rw [List.filter_append, List.filter_cons_of_pos hv]
    · intro w hw
      exact hbefore w (List.mem_filter.mp hw).1 (List.mem_filter.mp hw).2
    · intro w hw
      exact hafter w (List.mem_filter.mp hw).1 (List.mem_filter.mp hw).2

variable {t : Telemetry} {round : UInt64} {sender : Option String} {v : Vote}

theorem firstVote?_eq_none_iff :
    t.firstVote? round sender = none ↔ ∀ v ∈ t.votes, ¬v.Certifies round sender := by
  rw [firstVote?, earliest?_eq_none_iff, List.filter_eq_nil_iff]
  simp only [isCandidate_iff]

theorem firstVote?_eq_some_iff :
    t.firstVote? round sender = some v ↔
      ∃ before after, t.votes = before ++ v :: after ∧ v.Certifies round sender ∧
        (∀ w ∈ before, w.Certifies round sender → v.timestamp < w.timestamp) ∧
        ∀ w ∈ after, w.Certifies round sender → v.timestamp ≤ w.timestamp := by
  rw [firstVote?, earliest?_eq_some_iff, isEarliestIn_filter]
  simp only [isCandidate_iff]

theorem firstVote?_addVote (t : Telemetry) (round : UInt64) (sender : Option String) (v : Vote) :
    (t.addVote v).firstVote? round sender =
      if v.Certifies round sender ∧
          ∀ w ∈ t.firstVote? round sender, v.timestamp < w.timestamp then
        some v
      else t.firstVote? round sender := by
  rw [firstVote?, addVote, List.filter_append]
  by_cases hcertifies : v.Certifies round sender
  · rw [List.filter_cons_of_pos (isCandidate_iff.mpr hcertifies), List.filter_nil,
      earliest?_append_singleton, ← firstVote?]
    cases t.firstVote? round sender with
    | none => simp [hcertifies]
    | some w => simp [hcertifies]
  · rw [List.filter_cons_of_neg (mt isCandidate_iff.mp hcertifies), List.filter_nil,
      List.append_nil, ← firstVote?, if_neg fun h => hcertifies h.1]

theorem certifies_of_firstVote? (h : t.firstVote? round sender = some v) :
    v ∈ t.votes ∧ v.Certifies round sender := by
  obtain ⟨before, after, heq, hcertifies, -⟩ := firstVote?_eq_some_iff.mp h
  exact ⟨heq ▸ List.mem_append_cons_self, hcertifies⟩

theorem timestamp_le_of_firstVote? (h : t.firstVote? round sender = some v) {w : Vote}
    (hw : w ∈ t.votes) (hcertifies : w.Certifies round sender) : v.timestamp ≤ w.timestamp := by
  rw [firstVote?, earliest?_eq_some_iff] at h
  exact h.le (List.mem_filter.mpr ⟨hw, isCandidate_iff.mpr hcertifies⟩)

/-- The first vote of all is the first of its sender, as those of the sender are among all. -/
theorem firstVote?_sender (h : t.firstVote? round none = some v) :
    t.firstVote? round (some v.sender) = some v := by
  obtain ⟨before, after, heq, ⟨hround, hstep, -⟩, hbefore, hafter⟩ :=
    firstVote?_eq_some_iff.mp h
  have hall : ∀ {w : Vote}, w.Certifies round (some v.sender) → w.Certifies round none :=
    fun hw => ⟨hw.1, hw.2.1, by simp⟩
  exact firstVote?_eq_some_iff.mpr ⟨before, after, heq, ⟨hround, hstep, by simp⟩,
    fun w hw hcertifies => hbefore w hw (hall hcertifies),
    fun w hw hcertifies => hafter w hw (hall hcertifies)⟩

/-- The first vote of a round is the earliest of its certificate, and of the sender if one is
given; of votes at one time it is the one that arrived first. A vote that arrives later has to be
earlier. The first vote of all is its sender's first, and no other sender has an earlier one. -/
theorem firstVote_is_earliest (t : Telemetry) (round : UInt64) (sender : Option String) :
    (t.firstVote? round sender = none ↔ ∀ v ∈ t.votes, ¬v.Certifies round sender) ∧
      (∀ v, t.firstVote? round sender = some v ↔
        ∃ before after, t.votes = before ++ v :: after ∧ v.Certifies round sender ∧
          (∀ w ∈ before, w.Certifies round sender → v.timestamp < w.timestamp) ∧
          ∀ w ∈ after, w.Certifies round sender → v.timestamp ≤ w.timestamp) ∧
      (∀ v, (t.addVote v).firstVote? round sender =
        if v.Certifies round sender ∧
            ∀ w ∈ t.firstVote? round sender, v.timestamp < w.timestamp then
          some v
        else t.firstVote? round sender) ∧
      ∀ v, t.firstVote? round none = some v →
        t.firstVote? round (some v.sender) = some v ∧
          ∀ name w, t.firstVote? round (some name) = some w → v.timestamp ≤ w.timestamp := by
  refine ⟨firstVote?_eq_none_iff, fun v => firstVote?_eq_some_iff,
    firstVote?_addVote t round sender, fun v hv => ⟨firstVote?_sender hv, ?_⟩⟩
  intro name w hw
  obtain ⟨hmem, hround, hstep, -⟩ := certifies_of_firstVote? hw
  exact timestamp_le_of_firstVote? hv hmem ⟨hround, hstep, by simp⟩

/-- Votes of round 42 out of order, two of them at one time, and an early one of another step. -/
def ballots : Telemetry :=
  { Telemetry.empty with
    votes := [Route.certificateVote 900 "B",
      { Route.certificateVote 1 "A" with step := 1 }, Route.certificateVote 100 "A",
      Route.certificateVote 100 "C", Route.certificateVote 500 "A"] }

theorem firstVote_is_earliest_ballots :
    ballots.firstVote? 42 none = some (Route.certificateVote 100 "A") ∧
      ballots.firstVote? 42 (some "A") = some (Route.certificateVote 100 "A") ∧
      ballots.firstVote? 42 (some "B") = some (Route.certificateVote 900 "B") ∧
      (100 : UInt64) ≤ 900 ∧ ballots.firstVote? 42 (some "D") = none ∧
      (ballots.addVote (Route.certificateVote 100 "D")).firstVote? 42 none =
        some (Route.certificateVote 100 "A") ∧
      (ballots.addVote (Route.certificateVote 99 "D")).firstVote? 42 none =
        some (Route.certificateVote 99 "D") := by
  obtain ⟨-, hsome, hadd, hfirst⟩ := firstVote_is_earliest ballots 42 none
  have hall : ballots.firstVote? 42 none = some (Route.certificateVote 100 "A") :=
    (hsome _).mpr ⟨ballots.votes.take 2, ballots.votes.drop 3, rfl, by decide, by decide,
      by decide⟩
  have hother : ballots.firstVote? 42 (some "B") = some (Route.certificateVote 900 "B") := by
    decide +kernel
  obtain ⟨hsender, hle⟩ := hfirst _ hall
  refine ⟨hall, hsender, hother, hle "B" _ hother,
    (firstVote_is_earliest ballots 42 (some "D")).1.mpr (by decide), ?_, ?_⟩
  · rw [hadd, if_neg (by rw [hall]; decide), hall]
  · rw [hadd, if_pos (by rw [hall]; decide)]

end VoteTrace.Telemetry
