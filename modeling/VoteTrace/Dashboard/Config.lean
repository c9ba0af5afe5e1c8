import VoteTrace.Dashboard.Address
import VoteTrace.Fault
import VoteTrace.Text.Blank

namespace VoteTrace

structure Config where
  address : SocketAddress
  /-- Without a document the dashboard has nothing to show. -/
  document : Option String
deriving DecidableEq

namespace Config

def addressVariable : String := "CERTMON_API_ADDR"

def documentVariable : String := "CERTMON_TELEMETRY"

def standard : Config := ⟨⟨.v4 0 0 0 0, 3000⟩, none⟩

def ofEnvironment (lookup : String → Option String) : Except StartFault Config :=
  let document := (lookup documentVariable).filter fun path => Text.Blank.trim path != ""
  match lookup addressVariable with
  | none => .ok { standard with document := document }
  | some text =>
    match SocketAddress.parse? text with
    | some address => .ok ⟨address, document⟩
    | none => .error (.badSetting ("invalid " ++ addressVariable ++ ": " ++ text))

def withPortNumber (c : Config) (text : String) : Except StartFault Config :=
  match Text.Numeral.uint16? text with
  | some number => .ok { c with address := { c.address with portNumber := number } }
  | none => .error (.badSetting ("invalid port: " ++ text))

/-- The first argument names the document, whatever it is; the second is the number that ends
the address; others are not looked at. -/
def withArguments (c : Config) : List String → Except StartFault Config
  | [] => .ok c
  | [path] => .ok { c with document := some path }
  | path :: number :: _ => withPortNumber { c with document := some path } number

end Config
end VoteTrace
