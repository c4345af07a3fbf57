import AccessPolicy.Toml.Quoted

/-!
# Keys

A key is one part or several with dots between them.  A part is a word of
letters, digits, underscores and hyphens, or a quoted text.  Blanks may stand
around each part, and the number of parts is limited.
-/

namespace AccessPolicy.Toml

/-- A key of one or more parts: those that lead to a table, and the name in
it. -/
structure DottedKey where
  path : List String
  name : String
  deriving DecidableEq, Repr

namespace DottedKey

/-- All parts of a key. -/
def parts (key : DottedKey) : List String :=
  key.path ++ [key.name]

/-- The key with a first part and others behind it. -/
def ofParts : String → List String → DottedKey
  | first, [] => { path := [], name := first }
  | first, second :: rest =>
      let key := ofParts second rest
      { key with path := first :: key.path }

/-- How many parts a key may have. -/
def partLimit : Nat := 79

/-- A character of a part without quotes. -/
def isPartCharacter (c : Char) : Bool :=
  c.isAlphanum || c == '_' || c == '-'

open Scanner

/-- Take one part of a key. -/
def scanPart : Scanner String :=
  (String.ofList <$> nonemptyRunOf isPartCharacter) <|> Quoted.key

/-- Take one part of a key and the blanks around it. -/
def scanSpacedPart : Scanner String := do
  spaces
  let part ← scanPart
  spaces
  pure part

/-- Take a key and the blanks around it. -/
def scan : Scanner DottedKey := do
  match ← separatedBy (char '.') scanSpacedPart with
  | [] => failure
  | first :: rest =>
      guard (rest.length < partLimit)
      pure (ofParts first rest)

end DottedKey

end AccessPolicy.Toml
