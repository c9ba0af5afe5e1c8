import VoteTrace.Json.Value

namespace VoteTrace.Json

abbrev Fields := List (String × Value)

namespace Fields

/-- The known members of an object whose keys can all be used. No known member may be repeated. -/
def ofMembers? (names : List String) (members : List (Option String × Value)) :
    Option Fields :=
  let known := (members.filterMap fun (key, v) => key.map fun name => (name, v)).filter
    fun field => names.contains field.1
  if members.all (fun member => member.1.isSome) && decide (known.map Prod.fst).Nodup then
    some known
  else none

/-- The items of an array under the names of their places; an array may end early only if
`mayStop` is set. -/
def ofItems? (names : List String) (mayStop : Bool) (items : List Value) : Option Fields :=
  if items.length = names.length ∨ (mayStop ∧ items.length < names.length) then
    some (names.zip items)
  else none

def ofValue? (names : List String) (mayStop : Bool) : Value → Option Fields
  | .obj members => ofMembers? names members
  | .arr items => ofItems? names mayStop items
  | _ => none

def required {α : Type} (f : Fields) (name : String) (decode : Value → Option α) :
    Option α :=
  (f.lookup name).bind decode

def orElse {α : Type} (f : Fields) (name : String) (decode : Value → Option α) (a : α) :
    Option α :=
  match f.lookup name with
  | none => some a
  | some v => decode v

def optional {α : Type} (f : Fields) (name : String) (decode : Value → Option α) :
    Option (Option α) :=
  match f.lookup name with
  | none => some none
  | some .null => some none
  | some v => (decode v).map some

end Fields
end VoteTrace.Json
