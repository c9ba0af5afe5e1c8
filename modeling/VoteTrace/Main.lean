import VoteTrace.Dashboard.Service

/-!
The command line. Arguments are a telemetry document and the number that ends the address to
listen on; what they leave open comes from the environment. The program checks both, loads the
document, and tells where the dashboard listens and how many rows it has.
-/

namespace VoteTrace.Main

def documentOctets (c : Config) : IO (Option (List UInt8)) := do
  match c.document with
  | none => return none
  | some name =>
    try
      let octets ← IO.FS.readBinFile name
      return some octets.toList
    catch _ => return none

def environment : IO (String → Option String) := do
  let address ← IO.getEnv Config.addressVariable
  let document ← IO.getEnv Config.documentVariable
  return fun name =>
    if name = Config.addressVariable then address
    else if name = Config.documentVariable then document
    else none

def report (c : Config) (d : Dashboard) : String :=
  let counts := d.telemetry.counts
  c.address.text ++ ": " ++ toString counts.votes ++ " votes, " ++
    toString counts.connections ++ " connections, " ++
    toString counts.relayConnections ++ " relay connections, " ++
    toString counts.sightings ++ " sightings, " ++ toString counts.rounds ++ " rounds"

def load (args : List String) : IO (Except StartFault (Config × Dashboard)) := do
  match Config.ofEnvironment (← environment) >>= fun c => c.withArguments args with
  | .error fault => return .error fault
  | .ok c => return (Dashboard.ofDocument c (← documentOctets c)).map fun d => (c, d)

end VoteTrace.Main

def main (args : List String) : IO UInt32 := do
  match ← VoteTrace.Main.load args with
  | .ok (c, d) =>
    IO.println (VoteTrace.Main.report c d)
    return 0
  | .error fault =>
    IO.eprintln fault.message
    return 1
