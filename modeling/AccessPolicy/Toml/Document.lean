import AccessPolicy.Toml.Statement

/-!
# Documents

The table that a document stands for is filled statement by statement.  A
statement that contradicts an earlier one makes the document void.
-/

namespace AccessPolicy.Toml

/-- The table that a document stands for so far, and the path to the table that
was opened last. -/
structure Draft where
  root : Table := []
  current : List String := []

namespace Draft

/-- Follow one statement, if it does not contradict the earlier ones. -/
def follow (draft : Draft) : Statement → Option Draft
  | .assignment key value => do
      let root ← draft.root.within (Table.assign key.name value key.path)
        draft.current
      some { draft with root := root }
  | .header key => do
      let root ← draft.root.within (Table.openTable key.name) key.path
      some { root := root, current := key.parts }
  | .elementHeader key => do
      let root ← draft.root.within (Table.openElement key.name) key.path
      some { root := root, current := key.parts }

end Draft

/-- The table that some statements stand for. -/
def Table.ofStatements? (statements : List Statement) : Option Table :=
  (statements.foldlM Draft.follow {}).map (·.root)

/-- The table that a text stands for, if the text is a document. -/
def Table.ofText? (text : List Char) : Option Table :=
  (statements? text).bind Table.ofStatements?

end AccessPolicy.Toml
