import VoteTrace.Dashboard.Service
import VoteTrace.Proofs.Earlier

namespace VoteTrace

/-- What happens to a dashboard or to the files around it. -/
inductive Event where
  | request (method : Method) (target : String)
  | write (name : String) (octets : List UInt8)
  | remove (name : String)

def Target.resource? (target : String) : Option Resource :=
  Resource.ofPath? (Target.ofText target).path

namespace Event

def isReload : Event → Bool
  | request .post target => Target.resource? target = some .reload
  | _ => false

/-- Requests leave the files alone. -/
def change (files : Files) : Event → Files
  | request _ _ => files
  | write name octets => files.write name octets
  | remove name => files.remove name

end Event

namespace Files

def after (files : Files) (events : List Event) : Files :=
  events.foldl Event.change files

end Files

namespace Dashboard

/-- The answer that tells how things stand: the document, and how many rows of each kind there are
in the telemetry. -/
def statusOf (document : Option String) (t : Telemetry) : Response where
  status := 200
  body := .json (.obj
    [(some "status", .str "ok"),
     (some "telemetry_path", document.elim .null .str),
     (some "counts", .obj
      [(some "votes", .nat t.votes.length),
       (some "connections", .nat t.connections.length),
       (some "relay_connections", .nat t.relayConnections.length),
       (some "sightings", .nat t.sightings.length),
       (some "rounds", .nat t.rounds.length)])])

theorem ok_statusJson (document : Option String) (t : Telemetry) :
    Response.ok (statusJson document t.counts) = statusOf document t := by
  cases document <;> rfl

/-- What a reload reads: telemetry, or the status with which it is refused. -/
def reloaded (document : Option String) (files : Files) : Except Nat Telemetry :=
  match document with
  | none => .error 409
  | some name =>
    match files.read? name with
    | none => .error 500
    | some octets =>
      match Text.Utf8.toText? octets with
      | none => .error 500
      | some text => (Telemetry.ofText text).mapError fun _ => 500

theorem reloaded_some (files : Files) (name : String) :
    reloaded (some name) files = (reread files name).mapError fun _ => 500 := by
  simp only [reloaded, reread, Telemetry.ofOctets]
  cases files.read? name with
  | none => rfl
  | some octets =>
      simp only [Option.bind_some]
      cases Text.Utf8.toText? octets <;> rfl

theorem reload_eq (d : Dashboard) (files : Files) :
    d.reload files =
      match reloaded d.document files with
      | .error status => (⟨status, .text ""⟩, d)
      | .ok t => (statusOf d.document t, ⟨t, d.document⟩) := by
  cases hdocument : d.document with
  | none =>
      simp only [reload, hdocument, reloaded]
      rfl
  | some name =>
      simp only [reload, hdocument, reloaded_some]
      cases reread files name with
      | error fault => rfl
      | ok t => simp only [install, hdocument, Except.mapError, ok_statusJson]

theorem handle_of_isReload {method : Method} {target : String}
    (h : (Event.request method target).isReload = true) (d : Dashboard) (files : Files) :
    d.handle files method target = d.reload files := by
  cases method with
  | get => simp [Event.isReload] at h
  | post =>
      have hresource : Resource.ofPath? (Target.ofText target).path = some .reload :=
        of_decide_eq_true h
      simp [handle, hresource, Resource.method]

/-- A request that is no reload leaves the dashboard as it is, and does not see the files. -/
theorem handle_of_not_isReload {method : Method} {target : String}
    (h : (Event.request method target).isReload = false) (d : Dashboard) (files files' : Files) :
    d.handle files method target = ((d.handle files' method target).1, d) := by
  simp only [handle]
  cases hresource : Resource.ofPath? (Target.ofText target).path with
  | none => rfl
  | some resource =>
      simp only
      split
      · rfl
      · rename_i hmethod
        cases resource with
        | reload =>
            obtain rfl : Method.post = method := not_not.mp hmethod
            simp [Event.isReload, Target.resource?, hresource] at h
        | _ => rfl

theorem handle_status {target : String} (h : Target.resource? target = some .status)
    (d : Dashboard) (files : Files) :
    (d.handle files .get target).1 = statusOf d.document d.telemetry := by
  rw [Target.resource?] at h
  simp [handle, h, Resource.method, view, ok_statusJson]

/-- The telemetry that a reload brings. -/
def loaded? (document : Option String) (files : Files) (e : Event) : Option Telemetry :=
  if e.isReload then (reloaded document files).toOption else none

/-- What the reloads that succeed bring, one after another. -/
def loads (document : Option String) (files : Files) (events : List Event) : List Telemetry :=
  (withEarlier events).filterMap fun (earlier, e) => loaded? document (files.after earlier) e

theorem loads_append_singleton (document : Option String) (files : Files) (events : List Event)
    (e : Event) :
    loads document files (events ++ [e]) =
      loads document files events ++ (loaded? document (files.after events) e).toList := by
  rw [loads, withEarlier_append, List.filterMap_append]
  cases h : loaded? document (files.after events) e with
  | none => simp [loads, withEarlier, h]
  | some t => simp [loads, withEarlier, h]

end Dashboard

/-- A dashboard with the files around it. -/
structure Site where
  dashboard : Dashboard
  files : Files

namespace Site

open Dashboard

def step (s : Site) : Event → Site
  | .request method target => ⟨(s.dashboard.handle s.files method target).2, s.files⟩
  | e => ⟨s.dashboard, e.change s.files⟩

/-- Only requests are answered. -/
def answer? (s : Site) : Event → Option Response
  | .request method target => some (s.dashboard.handle s.files method target).1
  | _ => none

def run (s : Site) (events : List Event) : Site :=
  events.foldl step s

def answers (s : Site) : List Event → List (Option Response)
  | [] => []
  | e :: events => s.answer? e :: answers (s.step e) events

/-- What the last reload that succeeded has read. -/
def lastLoad (s : Site) (events : List Event) : Telemetry :=
  (loads s.dashboard.document s.files events).getLast?.getD s.dashboard.telemetry

theorem answers_append (s : Site) (l m : List Event) :
    s.answers (l ++ m) = s.answers l ++ (s.run l).answers m := by
  induction l generalizing s with
  | nil => rfl
  | cons e l ih =>
      rw [List.cons_append, answers, ih]
      rfl

theorem step_eq (s : Site) (e : Event) :
    s.step e =
      ⟨⟨(loaded? s.dashboard.document s.files e).getD s.dashboard.telemetry,
        s.dashboard.document⟩, e.change s.files⟩ := by
  cases e with
  | request method target =>
      cases hreload : (Event.request method target).isReload with
      | false =>
          rw [step, handle_of_not_isReload hreload s.dashboard s.files s.files, loaded?, hreload]
          rfl
      | true =>
          rw [step, handle_of_isReload hreload, reload_eq, loaded?, if_pos hreload]
          cases reloaded s.dashboard.document s.files <;> rfl
  | write name octets => rfl
  | remove name => rfl

theorem run_eq (s : Site) (events : List Event) :
    s.run events = ⟨⟨s.lastLoad events, s.dashboard.document⟩, s.files.after events⟩ := by
  induction events using List.reverseRecOn with
  | nil => rfl
  | append_singleton events e ih =>
      have hrun : s.run (events ++ [e]) = (s.run events).step e := by
        simp only [run, List.foldl_append, List.foldl_cons, List.foldl_nil]
      have hfiles : s.files.after (events ++ [e]) = e.change (s.files.after events) := by
        simp only [Files.after, List.foldl_append, List.foldl_cons, List.foldl_nil]
      rw [hrun, ih, step_eq, lastLoad, lastLoad, loads_append_singleton, hfiles]
      cases loaded? s.dashboard.document (s.files.after events) e with
      | none => simp
      | some t => simp

@[simp] theorem document_run (s : Site) (events : List Event) :
    (s.run events).dashboard.document = s.dashboard.document := by rw [run_eq]

@[simp] theorem files_run (s : Site) (events : List Event) :
    (s.run events).files = s.files.after events := by rw [run_eq]

theorem run_append_cons (s : Site) (l m : List Event) (e : Event) :
    s.run (l ++ e :: m) = ((s.run l).step e).run m := by
  rw [run, List.foldl_append, List.foldl_cons]
  rfl

theorem of_isReload {r : Event} (hr : r.isReload = true) (s : Site) :
    s.answer? r = some (s.dashboard.reload s.files).1 ∧
      s.step r = ⟨(s.dashboard.reload s.files).2, s.files⟩ := by
  cases r with
  | request method target =>
      rw [answer?, step, handle_of_isReload hr]
      exact ⟨rfl, rfl⟩
  | write name octets => cases hr
  | remove name => cases hr

theorem of_reload_refused {s : Site} {r : Event} {status : Nat} (hr : r.isReload = true)
    (h : reloaded s.dashboard.document s.files = .error status) :
    s.answer? r = some ⟨status, .text ""⟩ ∧ s.step r = s := by
  have hreload := of_isReload hr s
  rwa [reload_eq, h] at hreload

theorem of_reload_loaded {s : Site} {r : Event} {t : Telemetry} (hr : r.isReload = true)
    (h : reloaded s.dashboard.document s.files = .ok t) :
    s.answer? r = some (statusOf s.dashboard.document t) ∧
      s.step r = ⟨⟨t, s.dashboard.document⟩, s.files⟩ := by
  have hreload := of_isReload hr s
  rwa [reload_eq, h] at hreload

theorem answer?_status (s : Site) (events : List Event) {target : String}
    (htarget : Target.resource? target = some .status) :
    (s.run events).answer? (.request .get target) =
      some (statusOf s.dashboard.document (s.lastLoad events)) := by
  rw [run_eq, answer?, handle_status htarget]

/-- A reload that succeeds is what the rest of the run starts from. -/
theorem lastLoad_append_cons {s : Site} {r : Event} {t : Telemetry} {events between : List Event}
    (hr : r.isReload = true)
    (hloaded : reloaded s.dashboard.document (s.files.after events) = .ok t)
    (hnone : loads s.dashboard.document (s.files.after events) between = []) :
    s.lastLoad (events ++ r :: between) = t := by
  rw [← document_run s events, ← files_run] at hloaded
  have hend := congrArg Site.dashboard (run_append_cons s events between r)
  rw [(of_reload_loaded hr hloaded).2, run_eq, run_eq, document_run, files_run] at hend
  refine (congrArg Dashboard.telemetry hend).trans ?_
  rw [lastLoad, hnone]
  rfl

/-- Along a run the telemetry is what the last reload that succeeded has read, and a GET is
answered as by a dashboard that has just started with that: one of the status with the number of
its rows. A reload that fails changes nothing, and one that succeeds is answered like every GET of
the status before the next. -/
theorem run_keeps_last_load (s : Site) (events : List Event) :
    (s.run events).dashboard = ⟨s.lastLoad events, s.dashboard.document⟩ ∧
      (∀ target files, (s.run events).dashboard.handle (s.run events).files .get target =
        ((Dashboard.handle ⟨s.lastLoad events, s.dashboard.document⟩ files .get target).1,
          (s.run events).dashboard)) ∧
      (∀ target, Target.resource? target = some .status →
        (s.run events).answer? (.request .get target) =
          some (statusOf s.dashboard.document (s.lastLoad events))) ∧
      (∀ r status, r.isReload = true →
        reloaded s.dashboard.document (s.files.after events) = .error status →
          (s.run events).step r = s.run events ∧
            ∀ later, s.answers (events ++ r :: later) =
              s.answers events ++ some ⟨status, .text ""⟩ :: (s.run events).answers later) ∧
      ∀ r t, r.isReload = true →
        reloaded s.dashboard.document (s.files.after events) = .ok t →
          (s.run events).answer? r = some (statusOf s.dashboard.document t) ∧
            ∀ between, loads s.dashboard.document (s.files.after events) between = [] →
              s.lastLoad (events ++ r :: between) = t ∧
                ∀ target, Target.resource? target = some .status →
                  (s.run (events ++ r :: between)).answer? (.request .get target) =
                    (s.run events).answer? r := by
  have hdashboard : (s.run events).dashboard = ⟨s.lastLoad events, s.dashboard.document⟩ := by
    rw [run_eq]
  refine ⟨hdashboard, ?_, fun target htarget => answer?_status s events htarget, ?_, ?_⟩
  · intro target files
    rw [← hdashboard]
    exact handle_of_not_isReload rfl _ _ files
  · intro r status hr hrefused
    rw [← document_run s events, ← files_run] at hrefused
    obtain ⟨hanswer, hstep⟩ := of_reload_refused hr hrefused
    refine ⟨hstep, fun later => ?_⟩
    rw [answers_append, answers, hanswer, hstep]
  · intro r t hr hloaded
    have hread := hloaded
    rw [← document_run s events, ← files_run] at hread
    have hanswer := (of_reload_loaded hr hread).1
    rw [document_run] at hanswer
    refine ⟨hanswer, fun between hnone => ?_⟩
    have hlast := lastLoad_append_cons hr hloaded hnone
    refine ⟨hlast, fun target htarget => ?_⟩
    rw [answer?_status s _ htarget, hlast, hanswer]

/-- A document with rows of every kind but one. -/
def editionText : String :=
  "\x7b\"votes\":[\x7b\"round\":7,\"step\":2\x7d]," ++
    "\"connections\":[\x7b\"guid\":\"a\"\x7d,\x7b\"timestamp\":5\x7d]," ++
    "\"authenticators\":[[\"r1\",7,\"A\"],[\"r2\",7,\"A\"],[\"r2\",7,\"B\"]]," ++
    "\"rounds\":[\x7b\"round\":7\x7d]\x7d"

/-- The telemetry that `editionText` states. -/
def edition : Telemetry where
  votes := [⟨"", 0, "", 7, 0, 2, 0, none, none⟩]
  connections :=
    [⟨0, ⟨⟨"a", "", none, none, none⟩, ⟨"", "", none, none, none⟩⟩⟩,
      ⟨5, ⟨⟨"", "", none, none, none⟩, ⟨"", "", none, none, none⟩⟩⟩]
  relayConnections := []
  sightings := [⟨"r1", 7, "A"⟩, ⟨"r2", 7, "A"⟩, ⟨"r2", 7, "B"⟩]
  rounds := [⟨7, 0, 0, 0, 0⟩]

/-- A dashboard that has started with nothing, before its document was written. -/
def newsroom : Site :=
  ⟨⟨.empty, some "telemetry.json"⟩,
    Files.empty.write "telemetry.json" (Text.Utf8.ofText editionText)⟩

def reloadRequest : Event := .request .post "/api/reload"

/-- The document breaks off, then is no text, and then is gone. -/
def outage : List Event :=
  [.write "telemetry.json" (Text.Utf8.ofText "\x7b\"votes\":["), reloadRequest,
    .write "telemetry.json" [0xFF], reloadRequest, .remove "telemetry.json", reloadRequest]

theorem run_keeps_last_load_outage :
    (newsroom.run (reloadRequest :: outage)).dashboard = ⟨edition, some "telemetry.json"⟩ ∧
      (newsroom.answers (reloadRequest :: outage)).map (Option.map Response.status) =
        [some 200, none, some 500, none, some 500, none, some 500] ∧
      (newsroom.run (reloadRequest :: outage.take 1)).step reloadRequest =
        newsroom.run (reloadRequest :: outage.take 1) ∧
      (newsroom.run (reloadRequest :: outage)).answer? (.request .get "/api/status") =
        some ⟨200, .json (.obj
          [(some "status", .str "ok"), (some "telemetry_path", .str "telemetry.json"),
           (some "counts", .obj
            [(some "votes", .nat 1), (some "connections", .nat 2),
             (some "relay_connections", .nat 0), (some "sightings", .nat 3),
             (some "rounds", .nat 1)])])⟩ ∧
      ∀ files, Site.answers ⟨⟨edition, none⟩, files⟩ [reloadRequest] = [some ⟨409, .text ""⟩] := by
  have hread : reloaded (some "telemetry.json") newsroom.files = .ok edition := by decide +kernel
  have htorn : reloaded (some "telemetry.json")
      (newsroom.files.after (reloadRequest :: outage.take 1)) = .error 500 := by decide +kernel
  obtain ⟨-, -, -, -, hloaded⟩ := run_keeps_last_load newsroom []
  obtain ⟨hanswer, hnext⟩ := hloaded reloadRequest edition (by decide +kernel) hread
  obtain ⟨hlast, hstatus⟩ := hnext outage (by decide +kernel)
  obtain ⟨hdashboard, -⟩ := run_keeps_last_load newsroom (reloadRequest :: outage)
  obtain ⟨-, -, -, hrefused, -⟩ := run_keeps_last_load newsroom (reloadRequest :: outage.take 1)
  refine ⟨?_, ?_, (hrefused reloadRequest 500 (by decide +kernel) htorn).1, ?_, ?_⟩
  · rw [hdashboard]
    exact congrArg (Dashboard.mk · _) hlast
  · rw [answers, (of_reload_loaded (by decide +kernel) hread).2]
    refine congrArg₂ List.cons (congrArg (Option.map Response.status) hanswer) ?_
    decide +kernel
  · exact (hstatus "/api/status" (by decide +kernel)).trans hanswer
  · intro files
    obtain ⟨-, -, -, hnoDocument, -⟩ := run_keeps_last_load ⟨⟨edition, none⟩, files⟩ []
    exact (hnoDocument reloadRequest 409 (by decide +kernel) rfl).2 []

end Site
end VoteTrace
