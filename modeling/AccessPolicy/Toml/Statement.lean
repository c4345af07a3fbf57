import AccessPolicy.Toml.Value.Reader

/-!
# Statements

A text is a list of lines.  A line gives a value to a key, opens a table, opens
one more table of an array, or says nothing.
-/

namespace AccessPolicy.Toml

open Scanner

/-- What a line says. -/
inductive Statement where
  | assignment (key : DottedKey) (value : Value)
  /-- A header between single brackets. -/
  | header (key : DottedKey)
  /-- A header between double brackets. -/
  | elementHeader (key : DottedKey)

namespace Statement

def scanAssignment : Scanner Statement := do
  let (key, value) ← Toml.scanAssignment (Value.scan Value.nestingLimit)
  pure (.assignment key value)

def scanHeader : Scanner Statement := do
  char '['
  let key ← DottedKey.scan
  char ']'
  pure (.header key)

def scanElementHeader : Scanner Statement := do
  word ['[', '[']
  let key ← DottedKey.scan
  word [']', ']']
  pure (.elementHeader key)

/-- Take a statement of any kind. -/
def scan : Scanner Statement :=
  scanElementHeader <|> scanHeader <|> scanAssignment

end Statement

/-- Take the content of a line, which is a statement or nothing. -/
def scanLine : Scanner (Option Statement) := do
  spaces
  let statement ← optional Statement.scan
  lineTail
  pure statement

/-- A text without the mark of the byte order, if it begins with it. -/
def dropByteOrderMark : List Char → List Char
  | '\ufeff' :: rest => rest
  | text => text

/-- The statements of a text. -/
def statements? (text : List Char) : Option (List Statement) :=
  ((separatedBy lineBreak scanLine).readAll? (dropByteOrderMark text)).map
    (·.filterMap id)

end AccessPolicy.Toml
