namespace VoteTrace.Text.Pieces

/-- The pieces between separators; there is always one more of them than of separators. -/
def split (separator : Char) : List Char → List (List Char)
  | [] => [[]]
  | c :: rest =>
    if c = separator then [] :: split separator rest
    else
      match split separator rest with
      | [] => [[c]]
      | piece :: pieces => (c :: piece) :: pieces

end VoteTrace.Text.Pieces
