import AccessPolicy.Toml.DateTime
import AccessPolicy.Toml.Number

/-!
# Values

What a document gives to its keys.  A table is a list of entries; how it came
to be decides what may still be put into it, and is kept with it.
-/

namespace AccessPolicy.Toml

/-- How a table came to be. -/
inductive Origin where
  /-- It has a header of its own. -/
  | header
  /-- It was passed through by the header of another table. -/
  | implied
  /-- It was passed through by a dotted key. -/
  | dotted
  deriving DecidableEq, Repr

/-- What a key may be given. -/
inductive Value where
  | string (text : String)
  | integer (number : Int)
  | float (number : Decimal)
  | boolean (truth : Bool)
  | dateTime (moment : DateTime)
  /-- An array between brackets. -/
  | array (elements : List Value)
  /-- A table between braces. -/
  | inlineTable (entries : List (String × Value))
  /-- A table made by headers or dotted keys. -/
  | table (origin : Origin) (entries : List (String × Value))
  /-- An array of tables made by headers: the latest of them, and those before
  it. -/
  | tables (earlier : List (List (String × Value)))
      (latest : List (String × Value))

/-- Values under keys, each key once. -/
abbrev Table := List (String × Value)

/-- The entries of a value that is a table, however it was written. -/
def Value.entries? : Value → Option Table
  | .inlineTable entries => some entries
  | .table _ entries => some entries
  | _ => none

/-! ## Equality

Values hold lists of values, and lists of tables, so their equality is decided
together with that of these lists.
-/

mutual

/-- Whether two values are equal, arrays and tables in the same order. -/
def Value.equals : Value → Value → Bool
  | .string text, .string other => text = other
  | .integer number, .integer other => number = other
  | .float number, .float other => number = other
  | .boolean truth, .boolean other => truth = other
  | .dateTime moment, .dateTime other => moment = other
  | .array elements, .array others => Value.allEqual elements others
  | .inlineTable entries, .inlineTable others => Table.equals entries others
  | .table origin entries, .table other others =>
      origin = other && Table.equals entries others
  | .tables earlier latest, .tables others other =>
      Table.allEqual earlier others && Table.equals latest other
  | _, _ => false

def Value.allEqual : List Value → List Value → Bool
  | [], [] => true
  | value :: rest, other :: others => value.equals other && Value.allEqual rest others
  | _, _ => false

def Table.equals : List (String × Value) → List (String × Value) → Bool
  | [], [] => true
  | (key, value) :: rest, (otherKey, other) :: others =>
      key = otherKey && value.equals other && Table.equals rest others
  | _, _ => false

def Table.allEqual : List (List (String × Value)) → List (List (String × Value)) → Bool
  | [], [] => true
  | table :: rest, other :: others => Table.equals table other && Table.allEqual rest others
  | _, _ => false

end

mutual

theorem Value.equals_iff : (value other : Value) → (value.equals other = true ↔ value = other)
  | .string _, other => by cases other <;> simp [Value.equals]
  | .integer _, other => by cases other <;> simp [Value.equals]
  | .float _, other => by cases other <;> simp [Value.equals]
  | .boolean _, other => by cases other <;> simp [Value.equals]
  | .dateTime _, other => by cases other <;> simp [Value.equals]
  | .array elements, other => by
      cases other <;> simp [Value.equals, Value.allEqual_iff elements]
  | .inlineTable entries, other => by
      cases other <;> simp [Value.equals, Table.equals_iff entries]
  | .table _ entries, other => by
      cases other <;> simp [Value.equals, Table.equals_iff entries]
  | .tables earlier latest, other => by
      cases other <;> simp [Value.equals, Table.allEqual_iff earlier, Table.equals_iff latest]

theorem Value.allEqual_iff :
    (values others : List Value) → (Value.allEqual values others = true ↔ values = others)
  | [], others => by cases others <;> simp [Value.allEqual]
  | value :: rest, others => by
      cases others <;> simp [Value.allEqual, value.equals_iff, Value.allEqual_iff rest]

theorem Table.equals_iff :
    (table other : List (String × Value)) → (Table.equals table other = true ↔ table = other)
  | [], other => by cases other <;> simp [Table.equals]
  | (key, value) :: rest, other => by
      rcases other with _ | ⟨⟨otherKey, other⟩, others⟩ <;>
        simp [Table.equals, value.equals_iff, Table.equals_iff rest]

theorem Table.allEqual_iff : (tables others : List (List (String × Value))) →
    (Table.allEqual tables others = true ↔ tables = others)
  | [], others => by cases others <;> simp [Table.allEqual]
  | table :: rest, others => by
      cases others <;> simp [Table.allEqual, Table.equals_iff table, Table.allEqual_iff rest]

end

instance : DecidableEq Value := fun value other =>
  decidable_of_iff _ (value.equals_iff other)

end AccessPolicy.Toml
