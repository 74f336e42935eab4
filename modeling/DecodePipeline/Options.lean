import DecodePipeline.Text.Blank
import DecodePipeline.Text.Lines

/-!
Decode options from a text: one option a line. Blank lines and lines that begin with `#` are skipped,
and an option that lacks its two leading dashes gets them.
-/

namespace DecodePipeline.Options

def dashes : List Char := ['-', '-']

/-- The option on one line, if the line holds one. -/
def ofLine (line : List Char) : Option (List Char) :=
  match Text.trimChars line with
  | [] => none
  | '#' :: _ => none
  | option => some (if dashes.isPrefixOf option then option else dashes ++ option)

def parse (text : String) : List String :=
  ((Text.lines text.toList).filterMap ofLine).map String.ofList

end DecodePipeline.Options
