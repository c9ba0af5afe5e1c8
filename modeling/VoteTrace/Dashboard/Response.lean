import VoteTrace.Fault
import VoteTrace.Json.Value

namespace VoteTrace

open Json

inductive Body where
  | json (v : Value)
  /-- The page of the dashboard, with its size in octets. -/
  | page (size : Nat)
  | text (s : String)

structure Response where
  status : Nat
  body : Body

namespace Response

def ok (v : Value) : Response := ⟨200, .json v⟩

def refused (status : Nat) : Response := ⟨status, .text ""⟩

def badRequest (fault : RequestFault) : Response := ⟨400, .text fault.message⟩

end Response

end VoteTrace
