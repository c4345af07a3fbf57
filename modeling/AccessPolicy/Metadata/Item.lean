import AccessPolicy.Metadata.FieldName

/-!
# Items and their values

An item holds a list of values, each in one field.  A value may carry a level,
which restricts who sees it; a value without a level, or at the level of
everyone, is open.  Values added one after the other to a field are numbered by
their place in it.
-/

namespace AccessPolicy

/-- A degree of restriction, from 0 to 255. -/
structure Level where
  rank : UInt8
  deriving DecidableEq, Repr

namespace Level

/-- The level that restricts nothing. -/
def everyone : Level := ⟨0⟩

/-- The level meant for administrators who own the item. -/
def ownerAdministrators : Level := ⟨2⟩

/-- Every level, in ascending order. -/
def all : List Level :=
  (List.range 256).map fun rank => ⟨UInt8.ofNat rank⟩

theorem mem_all (level : Level) : level ∈ all := by
  apply List.mem_map.mpr
  exact ⟨level.rank.toNat, List.mem_range.mpr level.rank.toNat_lt,
    congrArg mk UInt8.ofNat_toNat⟩

theorem pairwise_all :
    all.Pairwise fun lower higher => lower.rank.toNat < higher.rank.toNat := by
  rw [all, List.pairwise_map]
  apply List.pairwise_lt_range.imp_of_mem
  intro lower higher lowerMember higherMember less
  rw [UInt8.toNat_ofNat_of_lt' (List.mem_range.mp lowerMember),
    UInt8.toNat_ofNat_of_lt' (List.mem_range.mp higherMember)]
  exact less

end Level

/-- One value of one field. -/
structure FieldValue where
  field : FieldName
  text : String
  language : Option String := none
  /-- Who vouches for the value; in the owner field, who the owner is. -/
  authority : Option String := none
  /-- The position of the value among those of its field. -/
  place : Nat := 0
  confidence : Option Int := none
  level : Option Level := none
  deriving DecidableEq, Repr

namespace FieldValue

/-- The level that restricts a value; none for an open value. -/
def restriction? (value : FieldValue) : Option Level :=
  value.level.filter (· ≠ Level.everyone)

theorem restriction?_eq_none_iff {value : FieldValue} :
    value.restriction? = none ↔
      value.level = none ∨ value.level = some Level.everyone := by
  rcases h : value.level with _ | level <;> simp [restriction?, h]

theorem restriction?_eq_some_iff {value : FieldValue} {level : Level} :
    value.restriction? = some level ↔
      value.level = some level ∧ level ≠ Level.everyone := by
  rcases h : value.level with _ | other
  · simp [restriction?, h]
  · simp only [restriction?, h, Option.filter_eq_some_iff, Option.some.injEq,
      decide_eq_true_eq]

end FieldValue

/-- The thing described by metadata. -/
structure Item where
  id : String
  /-- The values, in the order in which they were added. -/
  values : List FieldValue := []
  deriving DecidableEq, Repr

namespace Item

/-- The number of values in a field, qualifier included. -/
def countIn (item : Item) (field : FieldName) : Nat :=
  item.values.countP (·.field = field)

/-- The value that is next in a field: its place is behind those that the
field has already. -/
def nextValue (item : Item) (field : FieldName) (text : String) : FieldValue where
  field := field
  text := text
  place := item.countIn field

/-- Put a value behind all others, as it is. -/
def append (item : Item) (value : FieldValue) : Item :=
  { item with values := item.values ++ [value] }

/-- Add a value to a field. -/
def addValue (item : Item) (field : FieldName) (text : String) : Item :=
  item.append (item.nextValue field text)

/-- The value that records an owner: shown by a text, known by an
authority. -/
def ownerValue (item : Item) (display owner : String) : FieldValue :=
  { item.nextValue FieldName.owner display with authority := some owner }

/-- Record an owner of the item. -/
def addOwner (item : Item) (display owner : String) : Item :=
  item.append (item.ownerValue display owner)

/-- Take out the value at an index. -/
def removeAt (item : Item) (index : Nat) : Item :=
  { item with values := item.values.eraseIdx index }

/-- The values of a schema and an element, whatever their qualifier, by
ascending place; values of one place keep the item's order. -/
def valuesOf (item : Item) (schema element : String) : List FieldValue :=
  (item.values.filter (·.field.belongsTo schema element)).mergeSort
    (fun first second => decide (first.place ≤ second.place))

@[simp]
theorem values_append (item : Item) (value : FieldValue) :
    (item.append value).values = item.values ++ [value] :=
  rfl

@[simp]
theorem values_addValue (item : Item) (field : FieldName) (text : String) :
    (item.addValue field text).values =
      item.values ++ [item.nextValue field text] :=
  rfl

@[simp]
theorem values_addOwner (item : Item) (display owner : String) :
    (item.addOwner display owner).values =
      item.values ++ [item.ownerValue display owner] :=
  rfl

/-- A look-up finds the values of its schema and element, and no others. -/
theorem mem_valuesOf_iff {item : Item} {schema element : String}
    {value : FieldValue} :
    value ∈ item.valuesOf schema element ↔
      value ∈ item.values ∧ value.field.schema = schema ∧
        value.field.element = element := by
  simp [valuesOf]

end Item

end AccessPolicy
