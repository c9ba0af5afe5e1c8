import Mathlib.Data.List.DropRight
import VoteTrace.Telemetry.Route

namespace VoteTrace

namespace Text.Blank

/-- The second text is the first without the blanks at its ends. -/
structure Trims (s t : String) : Prop where
  exists_blanks : ∃ before after, s.toList = before ++ (t.toList ++ after) ∧
    (∀ c ∈ before, isBlank c = true) ∧ ∀ c ∈ after, isBlank c = true
  head_not : ∀ c ∈ t.toList.head?, isBlank c = false
  getLast_not : ∀ c ∈ t.toList.getLast?, isBlank c = false

section DropWhile

variable {α : Type} {p : α → Bool} {l : List α}

theorem not_of_mem_head?_dropWhile : ∀ a ∈ (l.dropWhile p).head?, p a = false := by
  intro a ha
  have hhead := List.head?_dropWhile_not p l
  rwa [Option.mem_def.mp ha] at hhead

theorem dropWhile_eq_self (h : ∀ a ∈ l.head?, p a = false) : l.dropWhile p = l := by
  cases l with
  | nil => rfl
  | cons a l => exact List.dropWhile_cons_of_neg (by simpa using h)

end DropWhile

theorem toList_trim (s : String) :
    (trim s).toList = (s.toList.dropWhile isBlank).rdropWhile isBlank :=
  String.toList_ofList

theorem trims_trim (s : String) : Trims s (trim s) := by
  refine ⟨⟨s.toList.takeWhile isBlank, (s.toList.dropWhile isBlank).rtakeWhile isBlank, ?_,
    fun _ => List.mem_takeWhile_imp, fun _ => List.mem_rtakeWhile_imp⟩, ?_, ?_⟩
  · rw [toList_trim, List.rdropWhile_append_rtakeWhile, List.takeWhile_append_dropWhile]
  · intro c hc
    obtain ⟨after, hafter⟩ := List.rdropWhile_prefix isBlank (s.toList.dropWhile isBlank)
    rw [toList_trim] at hc
    apply not_of_mem_head?_dropWhile (l := s.toList)
    rw [← hafter, List.head?_append, Option.mem_def.mp hc]
    rfl
  · intro c hc
    rw [toList_trim, List.rdropWhile, List.getLast?_reverse] at hc
    exact not_of_mem_head?_dropWhile c hc

/-- There is no other way to trim a text. -/
theorem Trims.trim_eq {s t : String} (h : Trims s t) : trim s = t := by
  obtain ⟨⟨before, after, hs, hbefore, hafter⟩, hhead, hlast⟩ := h
  apply String.ext
  rw [toList_trim, hs, List.dropWhile_append_of_pos hbefore]
  have hlast' : ∀ c ∈ t.toList.reverse.head?, isBlank c = false := by
    rwa [List.head?_reverse]
  cases ht : t.toList with
  | nil => rw [List.nil_append, List.dropWhile_eq_nil_iff.mpr hafter, List.rdropWhile_nil]
  | cons c cs =>
      have hself : (t.toList ++ after).dropWhile isBlank = t.toList ++ after := by
        apply dropWhile_eq_self
        simpa [ht] using hhead
      rw [← ht, hself, List.rdropWhile, List.reverse_append,
        List.dropWhile_append_of_pos (by simpa using hafter), dropWhile_eq_self hlast',
        List.reverse_reverse]

theorem trim_trim (s : String) : trim (trim s) = trim s :=
  have htrims := trims_trim s
  Trims.trim_eq ⟨⟨[], [], by simp, by simp, by simp⟩, htrims.head_not, htrims.getLast_not⟩

end Text.Blank

namespace SourceHost

/-- The text is split at its first colon if it has one. An empty rest is no relay. -/
structure IsNamedBy (host : SourceHost) (t : String) : Prop where
  raw_eq : host.raw = t
  notMem_guid : ':' ∉ host.guid.toList
  of_notMem : ':' ∉ t.toList → host.guid = t ∧ host.relay = none
  of_mem : ':' ∈ t.toList → ∃ rest, t = host.guid ++ ":" ++ rest ∧
    host.relay = if rest = "" then none else some rest

theorem isNamedBy_ofTrimmed (t : String) : (ofTrimmed t).IsNamedBy t := by
  have hguid : (ofTrimmed t).guid.toList = t.toList.takeWhile (· != ':') := String.toList_ofList
  refine ⟨rfl, ?_, ?_, ?_⟩
  · intro hcolon
    rw [hguid] at hcolon
    simpa using List.mem_takeWhile_imp hcolon
  · intro hcolon
    have hall : ∀ c ∈ t.toList, (c != ':') = true := by
      rintro c hc
      simp only [bne_iff_ne, ne_eq]
      rintro rfl
      exact hcolon hc
    constructor
    · apply String.ext
      rw [hguid, List.takeWhile_eq_self_iff.mpr hall]
    · simp [ofTrimmed, List.dropWhile_eq_nil_iff.mpr hall]
  · intro hcolon
    have hbehind : t.toList.dropWhile (· != ':') ≠ [] := by
      rw [Ne, List.dropWhile_eq_nil_iff]
      exact fun hall => absurd (hall ':' hcolon) (by simp)
    obtain ⟨c, rest, hrest⟩ := List.exists_cons_of_ne_nil hbehind
    have hc : c = ':' := by
      have hhead := Text.Blank.not_of_mem_head?_dropWhile (p := (· != ':')) (l := t.toList) c
        (by rw [hrest]; rfl)
      simpa using hhead
    subst hc
    refine ⟨String.ofList rest, ?_, ?_⟩
    · apply String.ext
      have hsplit := List.takeWhile_append_dropWhile (p := (· != ':')) (l := t.toList)
      rw [hrest, ← hguid] at hsplit
      simp [← hsplit]
    · simp [ofTrimmed, hrest]

theorem IsNamedBy.guid_eq_empty_iff {host : SourceHost} {t : String} (h : host.IsNamedBy t) :
    host.guid = "" ↔ t = "" ∨ t.toList.head? = some ':' := by
  by_cases hcolon : ':' ∈ t.toList
  · obtain ⟨rest, ht, -⟩ := h.of_mem hcolon
    have hlist : t.toList = host.guid.toList ++ ':' :: rest.toList := by simp [ht]
    have hne : t ≠ "" := by
      rintro rfl
      simp at hcolon
    rw [or_iff_right hne, hlist]
    cases hguid : host.guid.toList with
    | nil => simpa using hguid
    | cons c cs =>
        have hc : c ≠ ':' := by
          rintro rfl
          exact h.notMem_guid (by simp [hguid])
        have hguid' : host.guid ≠ "" := by
          rintro hempty
          simp [hempty] at hguid
        simp [hc, hguid']
  · have hhead : t.toList.head? ≠ some ':' := fun hhead => hcolon (List.mem_of_mem_head? hhead)
    rw [(h.of_notMem hcolon).1, or_iff_left hhead]

/-- A host that stands for some text is sought by something, and by its guid if it can be. -/
theorem IsNamedBy.key_eq {host : SourceHost} {t : String} (h : host.IsNamedBy t) (ht : t ≠ "") :
    (t.toList.head? ≠ some ':' → host.key = .guid host.guid ∧ host.guid ≠ "") ∧
      (t.toList.head? = some ':' → host.key = .name t) := by
  have hguid := h.guid_eq_empty_iff
  rw [or_iff_right ht] at hguid
  constructor
  · intro hhead
    have hne : host.guid ≠ "" := fun hempty => hhead (hguid.mp hempty)
    exact ⟨if_neg hne, hne⟩
  · intro hhead
    rw [key, if_pos (hguid.mpr hhead), h.raw_eq]

theorem parse_toString_parse (s : String) : parse (toString (parse s)) = parse s :=
  congrArg ofTrimmed (Text.Blank.trim_trim s)

/-- A text without the blanks at its ends is split at its first colon, and shown again it makes the
same host. It is refused if it is empty, in a request too, where then there is no host; and a host
is sought by its guid, which is not empty, unless the text starts with a colon: then the text is
its name. -/
theorem host_of_text (s : String) :
    ∃ t, Text.Blank.Trims s t ∧ (parse s).IsNamedBy t ∧
      parse (toString (parse s)) = parse s ∧
      ((∃ fault, ofText s = .error fault) ↔ t = "") ∧ (t ≠ "" → ofText s = .ok (parse s)) ∧
      (∀ r : RouteRequest, r.withSource s = { r with source := (ofText s).toOption }) ∧
      ∀ host, ofText s = .ok host → t ≠ "" ∧
        (t.toList.head? ≠ some ':' → host.key = .guid host.guid ∧ host.guid ≠ "") ∧
        (t.toList.head? = some ':' → host.key = .name t) := by
  have hnamed : (parse s).IsNamedBy (Text.Blank.trim s) := isNamedBy_ofTrimmed _
  refine ⟨Text.Blank.trim s, Text.Blank.trims_trim s, hnamed, parse_toString_parse s, ?_⟩
  by_cases hempty : Text.Blank.trim s = ""
  · have hrefused : ofText s = .error (.invalidInput "empty source host") := if_pos hempty
    have hnone : parse? s = none := if_pos hempty
    refine ⟨⟨fun _ => hempty, fun _ => ⟨_, hrefused⟩⟩, fun hne => absurd hempty hne, ?_, ?_⟩
    · intro r
      rw [RouteRequest.withSource, hnone, hrefused]
      rfl
    · intro host hhost
      rw [hrefused] at hhost
      cases hhost
  · have haccepted : ofText s = .ok (parse s) := if_neg hempty
    have hsome : parse? s = some (parse s) := if_neg hempty
    refine ⟨⟨?_, fun heq => absurd heq hempty⟩, fun _ => haccepted, ?_, ?_⟩
    · rintro ⟨fault, hfault⟩
      rw [haccepted] at hfault
      cases hfault
    · intro r
      rw [RouteRequest.withSource, hsome, haccepted]
      rfl
    · intro host hhost
      cases haccepted.symm.trans hhost
      exact ⟨hempty, hnamed.key_eq hempty⟩

/-- Blanks around, and a colon behind the first. -/
def spacedText : String := " \tv1:near:4160\u3000"

/-- Nothing in front of the colon. -/
def colonText : String := " :near\n"

theorem host_of_text_spaced :
    ∃ host nameless, ofText spacedText = .ok host ∧ host.relay = some "near:4160" ∧
      parse (toString host) = host ∧ host.key = .guid "v1" ∧
      ofText colonText = .ok nameless ∧ nameless.key = .name ":near" ∧
      (RouteRequest.ofRound 42).withSource " \u00a0" = RouteRequest.ofRound 42 := by
  obtain ⟨t, ht, -, hshown, -, haccepted, -, hkey⟩ := host_of_text spacedText
  obtain ⟨t', ht', -, -, -, haccepted', -, hkey'⟩ := host_of_text colonText
  obtain ⟨t'', ht'', -, -, hrefused, -, hsource, -⟩ := host_of_text " \u00a0"
  have htrimmed : t = "v1:near:4160" := ht.trim_eq.symm.trans (by decide +kernel)
  have htrimmed' : t' = ":near" := ht'.trim_eq.symm.trans (by decide +kernel)
  have htrimmed'' : t'' = "" := ht''.trim_eq.symm.trans (by decide +kernel)
  subst htrimmed htrimmed' htrimmed''
  have hhost := haccepted (by decide)
  have hnameless := haccepted' (by decide)
  obtain ⟨fault, hfault⟩ := hrefused.mpr rfl
  refine ⟨parse spacedText, parse colonText, hhost, by decide +kernel, hshown,
    ((hkey _ hhost).2.1 (by decide)).1.trans (by decide +kernel), hnameless,
    (hkey' _ hnameless).2.2 (by decide), ?_⟩
  rw [hsource, hfault]
  rfl

end SourceHost
end VoteTrace
