/-!
Lines of a text. A line ends at a line feed, and a carriage return directly before the line feed belongs
to the line's end; a carriage return elsewhere is part of the line. The last line needs no end.
-/

namespace DecodePipeline.Text

/-- The pieces between line feeds; there is always one more piece than line feeds. -/
def splitLineFeeds : List Char → List (List Char)
  | [] => [[]]
  | c :: cs =>
    if c = '\n' then [] :: splitLineFeeds cs
    else
      match splitLineFeeds cs with
      | [] => [[c]]
      | piece :: rest => (c :: piece) :: rest

/-- Drops one carriage return at the end. -/
def dropFinalReturn (line : List Char) : List Char :=
  if line.getLast? = some '\r' then line.dropLast else line

/-- Every piece but the last was ended by a line feed; an empty last piece is no line. -/
def linesOfPieces : List (List Char) → List (List Char)
  | [] => []
  | [last] => if last.isEmpty then [] else [last]
  | piece :: rest => dropFinalReturn piece :: linesOfPieces rest

def lines (text : List Char) : List (List Char) :=
  linesOfPieces (splitLineFeeds text)

end DecodePipeline.Text
