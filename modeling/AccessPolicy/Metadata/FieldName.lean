import AccessPolicy.Text.Segments

/-!
# Field names

A metadata field is named by a schema, an element and perhaps a qualifier, and
is written with dots between them.  Any three texts make a field name; only
those whose parts are not empty and hold no dot are read back from their
dotted form.
-/

namespace AccessPolicy

/-- The name of a metadata field. -/
structure FieldName where
  schema : String
  element : String
  qualifier : Option String := none
  deriving DecidableEq, Repr

namespace FieldName

/-- The schema of the field that names the owners of an item. -/
def ownerSchema : String := "cris"

/-- The element of the field that names the owners of an item. -/
def ownerElement : String := "owner"

/-- The field that names the owners of an item. -/
def owner : FieldName where
  schema := ownerSchema
  element := ownerElement

/-- Whether a field belongs to a schema and an element, whatever its
qualifier. -/
def belongsTo (field : FieldName) (schema element : String) : Bool :=
  field.schema == schema && field.element == element

@[simp]
theorem belongsTo_eq_true_iff {field : FieldName} {schema element : String} :
    field.belongsTo schema element = true ↔
      field.schema = schema ∧ field.element = element := by
  simp [belongsTo]

/-- The dotted form of a field name.  A qualifier that is present but empty
leaves a dot at the end. -/
def dotted (field : FieldName) : String :=
  match field.qualifier with
  | none => field.schema ++ "." ++ field.element
  | some qualifier =>
      field.schema ++ "." ++ field.element ++ "." ++ qualifier

/-- The field name that a list of parts stands for: two or three of them, none
empty. -/
def ofParts? (parts : List (List Char)) : Option FieldName :=
  if parts.any (·.isEmpty) then none
  else
    match parts with
    | [schema, element] =>
        some ⟨String.ofList schema, String.ofList element, none⟩
    | [schema, element, qualifier] =>
        some ⟨String.ofList schema, String.ofList element,
          some (String.ofList qualifier)⟩
    | _ => none

/-- Read a field name from its dotted form. -/
def parse? (text : String) : Option FieldName :=
  ofParts? (Text.segments '.' text.toList)

/-- The parts of a field name, as they stand between the dots. -/
def parts (field : FieldName) : List (List Char) :=
  [field.schema.toList, field.element.toList] ++
    (field.qualifier.map String.toList).toList

theorem toList_dotted (field : FieldName) :
    field.dotted.toList = Text.joined '.' field.parts := by
  rcases field with ⟨schema, element, _ | qualifier⟩ <;>
    simp [dotted, parts, Text.joined, List.intercalate]

/-- Parts that stand for a field name are the parts of that name. -/
theorem ofParts?_eq_some_iff {texts : List (List Char)} {field : FieldName} :
    ofParts? texts = some field ↔
      texts = field.parts ∧ ∀ part ∈ texts, part ≠ [] := by
  constructor
  · intro found
    simp only [ofParts?] at found
    split at found
    · simp at found
    · rename_i full
      have nonempty : ∀ part ∈ texts, part ≠ [] := by
        intro part member empty
        exact full (List.any_eq_true.mpr ⟨part, member, by simp [empty]⟩)
      refine ⟨?_, nonempty⟩
      split at found
      · obtain rfl := Option.some.inj found
        simp [parts]
      · obtain rfl := Option.some.inj found
        simp [parts]
      · simp at found
  · rintro ⟨rfl, nonempty⟩
    rcases field with ⟨schema, element, _ | qualifier⟩
    · simp [parts] at nonempty
      simp [ofParts?, parts, nonempty]
    · simp [parts] at nonempty
      simp [ofParts?, parts, nonempty]

end FieldName

end AccessPolicy
