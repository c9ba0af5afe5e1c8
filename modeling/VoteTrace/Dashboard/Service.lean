import VoteTrace.Dashboard.Config
import VoteTrace.Dashboard.Files
import VoteTrace.Dashboard.Response
import VoteTrace.Dashboard.Target
import VoteTrace.Wire.Route
import VoteTrace.Wire.Shares

/-!
The dashboard: telemetry, the document it came from, and answers to requests.

Only a reload changes the telemetry. It reads the document first, and installs what it read
only if that is telemetry.
-/

namespace VoteTrace

open Json

def Telemetry.ofOctets (octets : Option (List UInt8)) : Except QueryFault Telemetry :=
  match octets.bind Text.Utf8.toText? with
  | none => .error .unavailable
  | some text => Telemetry.ofText text

structure Dashboard where
  telemetry : Telemetry
  document : Option String

namespace Dashboard

def pageSize : Nat := 3349

/-- A dashboard over its document, of which the octets are given. -/
def ofDocument (c : Config) (octets : Option (List UInt8)) : Except StartFault Dashboard :=
  match c.document with
  | none => .ok ⟨.empty, none⟩
  | some name =>
    match Telemetry.ofOctets octets with
    | .ok t => .ok ⟨t, some name⟩
    | .error fault => .error (.telemetry fault)

def start (files : Files) (c : Config) : Except StartFault Dashboard :=
  ofDocument c (c.document.bind files.read?)

def statusJson (document : Option String) (counts : RowCounts) : Value :=
  .record
    [("status", .str "ok"),
     ("telemetry_path", .ofOption .str document),
     ("counts", counts.toJson)]

def parameter (name spelling : String) : Except RequestFault String :=
  match Text.Percent.decode? spelling with
  | some text => .ok text
  | none => .error (.notUtf8 name)

def roundParameter (spelling : String) : Except RequestFault UInt64 := do
  let text ← parameter "round" spelling
  match Text.Numeral.uint64? text with
  | some round => .ok round
  | none => .error (.notNumber text)

def answer (found : Except RequestFault Value) : Response :=
  match found with
  | .ok v => .ok v
  | .error fault => .badRequest fault

/-- That there is nothing to show is an answer too; other faults are not told. -/
def routeResponse (found : Except QueryFault Route) : Response :=
  match found with
  | .ok route => .ok (.record [("status", .str "ok"), ("route", route.toJson)])
  | .error fault =>
    if fault.isNoData then
      .ok (.record [("status", .str "no_data"), ("reason", .str fault.message)])
    else ⟨500, .text "telemetry query failed"⟩

def routeFor (t : Telemetry) (q : RouteQuery) : Response :=
  match q.toRequest with
  | .ok request => routeResponse (Route.resolve t request)
  | .error fault => .badRequest fault

def routeOf (t : Telemetry) (query : List Char) : Response :=
  match RouteQuery.ofPairs (Text.Percent.query query) with
  | .ok q => routeFor t q
  | .error fault => .badRequest fault

def view (d : Dashboard) (query : List Char) : Resource → Response
  | .page => ⟨200, .page pageSize⟩
  | .status => .ok (statusJson d.document d.telemetry.counts)
  | .rounds =>
    .ok (.ofList RoundRow.toJson (d.telemetry.latestRounds Telemetry.dashboardRounds))
  | .authenticators round =>
    answer ((roundParameter round).map fun r =>
      .ofList Share.toJson (d.telemetry.authenticators r))
  | .relays round =>
    answer ((roundParameter round).map fun r =>
      .ofList RelayLoad.toJson (d.telemetry.relayLoads r))
  | .matrix round =>
    answer ((roundParameter round).map fun r => (d.telemetry.matrix r).toJson)
  | .history auth =>
    answer ((parameter "auth" auth).map fun a => (d.telemetry.history a).toJson)
  | .route => routeOf d.telemetry query
  | .reload => .refused 405

/-- The first step of a reload: what the document holds now. -/
def reread (files : Files) (name : String) : Except QueryFault Telemetry :=
  Telemetry.ofOctets (files.read? name)

/-- The second step: new telemetry takes the place of the old. -/
def install (d : Dashboard) (t : Telemetry) : Dashboard :=
  { d with telemetry := t }

/-- A reload needs a document, and it fails without a trace if that is missing or broken. -/
def reload (d : Dashboard) (files : Files) : Response × Dashboard :=
  match d.document with
  | none => (.refused 409, d)
  | some name =>
    match reread files name with
    | .error _ => (.refused 500, d)
    | .ok t => (.ok (statusJson d.document t.counts), d.install t)

def handle (d : Dashboard) (files : Files) (method : Method) (target : String) :
    Response × Dashboard :=
  let t := Target.ofText target
  match Resource.ofPath? t.path with
  | none => (.refused 404, d)
  | some resource =>
    if resource.method ≠ method then (.refused 405, d)
    else
      match resource with
      | .reload => d.reload files
      | resource => (d.view t.query resource, d)

end Dashboard
end VoteTrace
