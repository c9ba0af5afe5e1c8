import VoteTrace.Json.Token

namespace VoteTrace.Json

/-- A value that is still open around the one being read. Parts stand latest first. -/
inductive Frame where
  | array (items : List Value)
  | member (members : List (Option String × Value)) (key : Option String)

/-- What has been read, and so what may follow. -/
inductive Reading where
  | value (outer : List Frame)
  | firstItem (outer : List Frame)
  | afterItem (items : List Value) (outer : List Frame)
  | firstKey (outer : List Frame)
  | nextKey (members : List (Option String × Value)) (outer : List Frame)
  | afterKey (members : List (Option String × Value)) (key : Option String)
      (outer : List Frame)
  | afterMember (members : List (Option String × Value)) (outer : List Frame)
  | done (v : Value)

namespace Reading

def complete (v : Value) : List Frame → Reading
  | [] => done v
  | .array items :: outer => afterItem (v :: items) outer
  | .member members key :: outer => afterMember ((key, v) :: members) outer

def begin? (outer : List Frame) : Token → Option Reading
  | .openArray => some (firstItem outer)
  | .openObject => some (firstKey outer)
  | .scalar v => some (complete v outer)
  | .text (some s) => some (complete (.str s) outer)
  | .text none => some (complete .unpaired outer)
  | _ => none

def step? : Reading → Token → Option Reading
  | value outer, t => begin? outer t
  | firstItem outer, .closeArray => some (complete (.arr []) outer)
  | firstItem outer, t => begin? (.array [] :: outer) t
  | afterItem items outer, .comma => some (value (.array items :: outer))
  | afterItem items outer, .closeArray => some (complete (.arr items.reverse) outer)
  | firstKey outer, .closeObject => some (complete (.obj []) outer)
  | firstKey outer, .text k => some (afterKey [] k outer)
  | nextKey members outer, .text k => some (afterKey members k outer)
  | afterKey members k outer, .colon => some (value (.member members k :: outer))
  | afterMember members outer, .comma => some (nextKey members outer)
  | afterMember members outer, .closeObject =>
      some (complete (.obj members.reverse) outer)
  | _, _ => none

def finish? : Reading → Option Value
  | done v => some v
  | _ => none

end Reading

/-- The value that a text states; none if the text is not JSON. -/
def read? (s : String) : Option Value := do
  let tokens ← Token.ofText? s.toList
  let last ← tokens.foldlM Reading.step? (Reading.value [])
  last.finish?

end VoteTrace.Json
