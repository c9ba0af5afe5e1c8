import VoteTrace.Proofs.Dashboard.Runs

/-!
Reloads that overlap: each reads the document first, and installs what it read at some later time.
Other requests are answered in between, and the files change.

Main statement: the telemetry is what the last installation brought, and each successful read is
installed once. If nothing was waiting when the last read took place, its document is the one that
stays. If something was, a document that was read earlier can replace one that is newer.
-/

namespace VoteTrace

/-- What a reload has read. -/
structure Load where
  request : Nat
  telemetry : Telemetry

/-- A site with the reloads that have read and have still to install. -/
structure Traffic where
  site : Site
  waiting : List Load

inductive Act where
  | read (l : Load)
  | refuse (status : Nat)
  | install (l : Load)
  | other (e : Event)

namespace Act

def read? : Act → Option Load
  | read l => some l
  | _ => none

def installed? : Act → Option Load
  | install l => some l
  | _ => none

def event? : Act → Option Event
  | other e => some e
  | _ => none

end Act

namespace Traffic

open Dashboard

def reads (acts : List Act) : List Load := acts.filterMap Act.read?

def installs (acts : List Act) : List Load := acts.filterMap Act.installed?

/-- Everything that is no step of a reload. -/
def events (acts : List Act) : List Event := acts.filterMap Act.event?

/-- Nothing keeps a reload from reading while another one waits, nor the one that has read later
from installing first. -/
inductive Step : Traffic → Act → Traffic → Prop
  | read (s : Traffic) (l : Load) (hnew : l.request ∉ s.waiting.map Load.request)
      (hread : reloaded s.site.dashboard.document s.site.files = .ok l.telemetry) :
      Step s (.read l) ⟨s.site, s.waiting ++ [l]⟩
  | refuse (s : Traffic) (status : Nat)
      (hread : reloaded s.site.dashboard.document s.site.files = .error status) :
      Step s (.refuse status) s
  | install (site : Site) (earlier later : List Load) (l : Load) :
      Step ⟨site, earlier ++ l :: later⟩ (.install l)
        ⟨⟨site.dashboard.install l.telemetry, site.files⟩, earlier ++ later⟩
  | other (s : Traffic) (e : Event) (hother : e.isReload = false) :
      Step s (.other e) ⟨s.site.step e, s.waiting⟩

inductive Runs : Traffic → List Act → Traffic → Prop
  | nil (s : Traffic) : Runs s [] s
  | cons {s t u : Traffic} {a : Act} {acts : List Act} (hstep : Step s a t)
      (hruns : Runs t acts u) : Runs s (a :: acts) u

def lastInstalled (s : Traffic) (acts : List Act) : Telemetry :=
  ((installs acts).getLast?.map Load.telemetry).getD s.site.dashboard.telemetry

theorem reads_append (l m : List Act) : reads (l ++ m) = reads l ++ reads m :=
  List.filterMap_append

theorem installs_append (l m : List Act) : installs (l ++ m) = installs l ++ installs m :=
  List.filterMap_append

namespace Step

/-- A reload whose two steps follow each other is a reload in one step. -/
theorem reload_eq {s t u : Traffic} {l : Load} {r : Event} (hr : r.isReload = true)
    (hread : Step s (.read l) t) (hinstall : Step t (.install l) u) :
    s.site.answer? r =
        some (statusOf s.site.dashboard.document l.telemetry) ∧
      u.site = s.site.step r := by
  cases hread with
  | read _ _ hnew hloaded =>
      obtain ⟨hanswer, hstep⟩ := Site.of_reload_loaded hr hloaded
      refine ⟨hanswer, ?_⟩
      generalize s.waiting ++ [l] = waiting at hinstall
      cases hinstall
      rw [hstep, Dashboard.install]

theorem refuse_eq {s t : Traffic} {status : Nat} {r : Event} (hr : r.isReload = true)
    (h : Step s (.refuse status) t) :
    s.site.answer? r = some ⟨status, .text ""⟩ ∧ s.site.step r = t.site := by
  cases h with
  | refuse _ _ hread => exact Site.of_reload_refused hr hread

theorem dashboard_eq {s t : Traffic} {a : Act} (h : Step s a t) :
    t.site.dashboard = ⟨s.lastInstalled [a], s.site.dashboard.document⟩ := by
  cases h with
  | read | refuse | install => rfl
  | other _ e hother =>
      cases e with
      | request method target =>
          exact congrArg Prod.snd
            (handle_of_not_isReload hother s.site.dashboard s.site.files s.site.files)
      | write | remove => rfl

theorem files_eq {s t : Traffic} {a : Act} (h : Step s a t) :
    t.site.files = s.site.files.after (events [a]) := by
  cases h with
  | read | refuse | install => rfl
  | other _ e hother => cases e <;> rfl

/-- Nothing that was read is lost, and nothing is installed twice. -/
theorem perm {s t : Traffic} {a : Act} (h : Step s a t) :
    (installs [a] ++ t.waiting).Perm (reads [a] ++ s.waiting) := by
  cases h with
  | read s l => exact List.perm_append_singleton l s.waiting
  | refuse | other => exact .refl _
  | install site earlier later l =>
      change (l :: (earlier ++ later)).Perm (earlier ++ l :: later)
      exact List.perm_middle.symm

theorem read_eq {s t : Traffic} {l : Load} (h : Step s (.read l) t) :
    reloaded s.site.dashboard.document s.site.files = .ok l.telemetry := by
  cases h with
  | read _ _ _ hread => exact hread

end Step

namespace Runs

theorem of_append {s u : Traffic} {before acts : List Act} (h : Runs s (before ++ acts) u) :
    ∃ t, Runs s before t ∧ Runs t acts u := by
  induction before generalizing s with
  | nil => exact ⟨s, .nil s, h⟩
  | cons a before ih =>
      cases h with
      | cons hstep hruns =>
          obtain ⟨t, hbefore, hacts⟩ := ih hruns
          exact ⟨t, .cons hstep hbefore, hacts⟩

theorem dashboard_eq {s t : Traffic} {acts : List Act} (h : Runs s acts t) :
    t.site.dashboard = ⟨s.lastInstalled acts, s.site.dashboard.document⟩ := by
  induction h with
  | nil s => rfl
  | @cons s t u a acts hstep hruns ih =>
      have hlast : t.lastInstalled acts = s.lastInstalled (a :: acts) := by
        rw [lastInstalled, hstep.dashboard_eq, lastInstalled, lastInstalled,
          show a :: acts = [a] ++ acts from rfl, installs_append, List.getLast?_append,
          Option.map_or, Option.getD_or]
      rw [ih, hlast, hstep.dashboard_eq]

theorem files_eq {s t : Traffic} {acts : List Act} (h : Runs s acts t) :
    t.site.files = s.site.files.after (events acts) := by
  induction h with
  | nil s => rfl
  | @cons s t u a acts hstep hruns ih =>
      rw [ih, hstep.files_eq]
      cases a <;> rfl

theorem perm {s t : Traffic} {acts : List Act} (h : Runs s acts t) :
    (installs acts ++ t.waiting).Perm (reads acts ++ s.waiting) := by
  induction h with
  | nil s => exact .refl _
  | @cons s t u a acts hstep hruns ih =>
      rw [show a :: acts = [a] ++ acts from rfl, installs_append, reads_append]
      calc (installs [a] ++ installs acts ++ u.waiting).Perm
            (installs [a] ++ (reads acts ++ t.waiting)) := by
            rw [List.append_assoc]
            exact ih.append_left _
        _ |>.Perm (reads acts ++ (installs [a] ++ t.waiting)) := by
            rw [← List.append_assoc, ← List.append_assoc]
            exact List.perm_append_comm.append_right _
        _ |>.Perm (reads acts ++ (reads [a] ++ s.waiting)) := hstep.perm.append_left _
        _ |>.Perm (reads [a] ++ reads acts ++ s.waiting) := by
            rw [← List.append_assoc]
            exact List.perm_append_comm.append_right _

theorem telemetry_eq_of_apart {s t : Traffic} {before after : List Act} {l : Load}
    (h : Runs s (before ++ .read l :: after) t) (hquiet : s.waiting = [])
    (hbefore : (installs before).Perm (reads before)) (hafter : reads after = [])
    (hdone : t.waiting = []) : t.site.dashboard.telemetry = l.telemetry := by
  have hperm := h.perm
  rw [installs_append, reads_append, hquiet, hdone, List.append_nil, List.append_nil] at hperm
  have hrest : (installs (.read l :: after)).Perm [l] := by
    have hreads : reads (.read l :: after) = [l] := by
      rw [show Act.read l :: after = [.read l] ++ after from rfl, reads_append, hafter]
      rfl
    rw [hreads] at hperm
    exact (List.perm_append_left_iff _).mp (hperm.trans (hbefore.symm.append_right _))
  rw [h.dashboard_eq, lastInstalled, installs_append, List.perm_singleton.mp hrest,
    List.getLast?_concat]
  rfl

end Runs

/-- The telemetry is what was installed last, each successful read is installed once, and it brings
what the document held when it was read. The last read is what stays when no other reload was under
way as it read. -/
theorem last_installation_stays {s t : Traffic} {acts : List Act} (h : Runs s acts t)
    (hquiet : s.waiting = []) :
    t.site.dashboard = ⟨s.lastInstalled acts, s.site.dashboard.document⟩ ∧
      (installs acts ++ t.waiting).Perm (reads acts) ∧
      (∀ before l after, acts = before ++ .read l :: after →
        reloaded s.site.dashboard.document (s.site.files.after (events before)) =
          .ok l.telemetry) ∧
      ∀ before l after, acts = before ++ .read l :: after → reads after = [] →
        (installs before).Perm (reads before) → t.waiting = [] →
          t.site.dashboard.telemetry = l.telemetry := by
  refine ⟨h.dashboard_eq, ?_, ?_, ?_⟩
  · simpa [hquiet] using h.perm
  · rintro before l after rfl
    obtain ⟨u, hbefore, hafter⟩ := h.of_append
    cases hafter with
    | cons hread _ =>
        have hloaded := hread.read_eq
        rwa [hbefore.dashboard_eq, hbefore.files_eq] at hloaded
  · rintro before l after rfl hafter hbefore hdone
    exact h.telemetry_eq_of_apart hquiet hbefore hafter hdone

/-- One round in the telemetry, and an empty document to reload. -/
def desk : Site :=
  ⟨⟨{ Telemetry.empty with rounds := [⟨7, 3, 20, 0, 2⟩] }, some "telemetry.json"⟩,
    Files.empty.write "telemetry.json" [0x7B, 0x7D]⟩

def early : Load := ⟨0, .empty⟩

def late : Load := ⟨1, { Telemetry.empty with rounds := [⟨0, 0, 0, 0, 0⟩] }⟩

/-- The octets of a document with one round of which nothing is told. -/
def lateOctets : List UInt8 :=
  [0x7B, 0x22, 0x72, 0x6F, 0x75, 0x6E, 0x64, 0x73, 0x22, 0x3A, 0x5B, 0x7B, 0x7D, 0x5D, 0x7D]

def published : Act := .other (.write "telemetry.json" lateOctets)

def deskWith (l : Load) : Traffic :=
  ⟨⟨⟨l.telemetry, some "telemetry.json"⟩, desk.files.write "telemetry.json" lateOctets⟩, []⟩

theorem early_read : reloaded (some "telemetry.json") desk.files = .ok early.telemetry := by
  decide +kernel

theorem late_read :
    reloaded (some "telemetry.json") (deskWith early).site.files = .ok late.telemetry := by
  decide +kernel

def apart : List Act :=
  [.read early, .install early, published, .read late, .install late]

theorem runs_apart : Runs ⟨desk, []⟩ apart (deskWith late) :=
  .cons (.read ⟨desk, []⟩ early List.not_mem_nil early_read)
    (.cons (.install desk [] [] early)
      (.cons (.other _ (.write "telemetry.json" lateOctets) rfl)
        (.cons (.read (deskWith early) late List.not_mem_nil late_read)
          (.cons (.install (deskWith early).site [] [] late) (.nil _)))))

theorem last_installation_stays_apart :
    (deskWith late).site.dashboard = ⟨late.telemetry, some "telemetry.json"⟩ ∧
      reloaded (some "telemetry.json") (deskWith early).site.files = .ok late.telemetry ∧
      (deskWith late).site.dashboard.telemetry = late.telemetry := by
  obtain ⟨hdashboard, -, hread, hlast⟩ := last_installation_stays runs_apart rfl
  refine ⟨hdashboard, ?_, ?_⟩
  · exact hread [.read early, .install early, published] late [.install late] rfl
  · exact hlast [.read early, .install early, published] late [.install late] rfl rfl
      (.refl [early]) rfl

/-- The document changes between two reads, and the reload that read the old one is the last to
install, after the new one was served. -/
def overtaking : List Act :=
  [.read early, published, .read late, .install late, .other (.request .get "/api/status"),
    .install early]

theorem runs_overtaking : Runs ⟨desk, []⟩ overtaking (deskWith early) :=
  .cons (.read ⟨desk, []⟩ early List.not_mem_nil early_read)
    (.cons (.other _ (.write "telemetry.json" lateOctets) rfl)
      (.cons (.read _ late (by decide) late_read)
        (.cons (.install _ [early] [] late)
          (.cons (.other ⟨(deskWith late).site, [early]⟩ (.request .get "/api/status") rfl)
            (.cons (.install (deskWith late).site [] [] early) (.nil _))))))

theorem not_last_read_stays :
    ¬ ∀ (s t : Traffic) (acts : List Act) (l : Load), Runs s acts t → s.waiting = [] →
      t.waiting = [] → (reads acts).getLast? = some l →
        t.site.dashboard.telemetry = l.telemetry := by
  intro hclaim
  have hstays := hclaim _ _ _ late runs_overtaking rfl rfl rfl
  exact absurd hstays (by decide)

end Traffic
end VoteTrace
