import AccessPolicy.Toml.Table

/-!
# Reading values

Values are texts, truth values, dates, numbers, arrays and tables between
braces.  Line breaks and comments may stand between the elements of an array,
but not within a table between braces.  Arrays and such tables are nested to a
limited depth.
-/

namespace AccessPolicy.Toml

open Scanner

/-- Take a key and the value given to it. -/
def scanAssignment (value : Scanner Value) : Scanner (DottedKey × Value) := do
  let key ← DottedKey.scan
  char '='
  spaces
  let taken ← value
  spaces
  pure (key, taken)

namespace Value

/-- How deep arrays and tables between braces may be nested. -/
def nestingLimit : Nat := 79

/-- Take a truth value. -/
def scanBoolean : Scanner Bool :=
  (do word "true".toList; pure true) <|> (do word "false".toList; pure false)

/-- Take a value that holds no others. -/
def scanScalar : Scanner Value :=
  (.string <$> Quoted.text) <|> (.boolean <$> scanBoolean) <|>
    (.dateTime <$> DateTime.scan) <|> (.float <$> Number.float) <|>
    (.integer <$> Number.integer)

/-- Take an element of an array and what stands around it. -/
def scanElement (value : Scanner Value) : Scanner Value := do
  gap
  let taken ← value
  gap
  pure taken

/-- Take an array.  A comma may stand behind its last element. -/
def scanArray (value : Scanner Value) : Scanner Value := do
  char '['
  let elements ← optional (separatedBy (char ',') (scanElement value))
  if elements.isSome then
    let _ ← optional (char ',')
  gap
  char ']'
  pure (.array (elements.getD []))

/-- Take a table between braces. -/
def scanInlineTable (value : Scanner Value) : Scanner Value := do
  char '\x7b'
  let assignments ← optional (separatedBy (char ',') (scanAssignment value))
  spaces
  char '\x7d'
  let entries ← Table.ofAssignments? (assignments.getD [])
  pure (.inlineTable entries)

/-- Take a value in which others are nested at most so deep. -/
def scan : Nat → Scanner Value
  | 0 => scanScalar
  | depth + 1 =>
      scanScalar <|> scanArray (scan depth) <|> scanInlineTable (scan depth)

end Value

end AccessPolicy.Toml
