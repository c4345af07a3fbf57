import AccessPolicy.Toml.Scanner

/-!
# Layout of a document

What stands between the parts of a document and means nothing: blanks within a
line, comments to its end, and line breaks.
-/

namespace AccessPolicy.Toml

/-- A character that may stand in a comment and, with exceptions, in a quoted
text: a tab or any character that is not a control of the basic Latin range. -/
def isTextual (c : Char) : Bool :=
  c == '\t' || (' ' ≤ c && c != '\x7f')

/-- A blank within a line. -/
def isSpace (c : Char) : Bool :=
  c == ' ' || c == '\t'

namespace Scanner

/-- Skip blanks within a line. -/
def spaces : Scanner Unit := do
  let _ ← runOf isSpace

/-- Skip a comment, up to the end of its line. -/
def comment : Scanner Unit := do
  char '#'
  let _ ← runOf isTextual

/-- Skip a line break, which is a line feed, perhaps after a carriage
return. -/
def lineBreak : Scanner Unit :=
  char '\n' <|> word ['\r', '\n']

/-- Skip what may stand behind the content of a line. -/
def lineTail : Scanner Unit := do
  spaces
  let _ ← optional comment

/-- Skip blanks, comments and line breaks. -/
def gap : Scanner Unit := do
  let _ ← separatedBy lineBreak lineTail

end Scanner

end AccessPolicy.Toml
