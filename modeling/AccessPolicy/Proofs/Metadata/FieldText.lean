import AccessPolicy.Metadata.FieldName

/-!
# The written form of field names

A text is the written form of a field name when it consists of two or three
segments with single dots between them.  Reading accepts these texts and no
others, and gives the segments back as the parts of the name; so a name that has
been read is written as it was.
-/

namespace AccessPolicy

/-- A part of a written field name: not empty, and without a dot. -/
def IsSegment (part : String) : Prop :=
  part ≠ "" ∧ '.' ∉ part.toList

namespace FieldName

/-- The grammar of written field names: a schema and an element, or a schema, an
element and a qualifier, with a dot between two parts. -/
inductive Spells : FieldName → String → Prop
  | unqualified {schema element : String} (isSchema : IsSegment schema)
      (isElement : IsSegment element) :
      Spells { schema, element } (schema ++ "." ++ element)
  | qualified {schema element qualifier : String} (isSchema : IsSegment schema)
      (isElement : IsSegment element) (isQualifier : IsSegment qualifier) :
      Spells { schema, element, qualifier := some qualifier }
        (schema ++ "." ++ element ++ "." ++ qualifier)

/-- All parts of a field name are segments. -/
def IsPlain (field : FieldName) : Prop :=
  IsSegment field.schema ∧ IsSegment field.element ∧
    ∀ qualifier, field.qualifier = some qualifier → IsSegment qualifier

variable {field : FieldName} {text : String}

theorem spells_iff : field.Spells text ↔ field.IsPlain ∧ field.dotted = text := by
  constructor
  · intro spells
    cases spells with
    | unqualified isSchema isElement =>
        exact ⟨⟨isSchema, isElement, nofun⟩, rfl⟩
    | qualified isSchema isElement isQualifier =>
        constructor
        · refine ⟨isSchema, isElement, ?_⟩
          intro qualifier given
          obtain rfl := Option.some.inj given
          exact isQualifier
        · rfl
  · rintro ⟨⟨isSchema, isElement, isQualifier⟩, rfl⟩
    rcases field with ⟨schema, element, _ | qualifier⟩
    · exact .unqualified isSchema isElement
    · exact .qualified isSchema isElement (isQualifier qualifier rfl)

/-- A field name is plain when none of its parts, as they stand between the dots, is
empty or holds a dot. -/
theorem isPlain_iff :
    field.IsPlain ↔ ∀ part ∈ field.parts, part ≠ [] ∧ '.' ∉ part := by
  rcases field with ⟨schema, element, _ | qualifier⟩ <;>
    simp [IsPlain, IsSegment, parts]

/-- The dotted form of a plain field name is cut into the parts of the name. -/
theorem IsPlain.segments_dotted (isPlain : field.IsPlain) :
    Text.segments '.' field.dotted.toList = field.parts := by
  rw [toList_dotted]
  apply Text.segments_joined
  · simp [parts]
  · exact fun part member => (isPlain_iff.mp isPlain part member).2

/-- A text is read as the plain field name of which it is the written form. -/
theorem parse?_eq_some_iff :
    parse? text = some field ↔ field.IsPlain ∧ field.dotted = text := by
  rw [parse?, ofParts?_eq_some_iff]
  constructor
  · rintro ⟨cut, nonempty⟩
    constructor
    · rw [isPlain_iff]
      intro part member
      rw [← cut] at member
      exact ⟨nonempty part member, Text.not_mem_of_mem_segments member⟩
    · apply String.toList_injective
      rw [toList_dotted, ← cut, Text.joined_segments]
  · rintro ⟨isPlain, rfl⟩
    rw [isPlain.segments_dotted]
    exact ⟨rfl, fun part member => (isPlain_iff.mp isPlain part member).1⟩

theorem parse?_eq_some_iff_spells : parse? text = some field ↔ field.Spells text := by
  rw [parse?_eq_some_iff, spells_iff]

/-- A text can be read exactly when it consists of two or three segments with
single dots between them.  The segments are then the parts of the name that is
read, in order, and there is a qualifier when there are three.

The name that is read is written as the text it was read from, so that no other
text is read as this name. -/
theorem parse?_two_or_three_segments (text : String) :
    ((parse? text).isSome = true ↔
        (∃ schema element, IsSegment schema ∧ IsSegment element ∧
          text = schema ++ "." ++ element) ∨
        ∃ schema element qualifier, IsSegment schema ∧ IsSegment element ∧
          IsSegment qualifier ∧ text = schema ++ "." ++ element ++ "." ++ qualifier) ∧
      (∀ field, parse? text = some field ↔ field.Spells text) ∧
      ∀ field, parse? text = some field →
        field.dotted = text ∧ ∀ other, parse? other = some field → other = text := by
  refine ⟨?_, fun _ => parse?_eq_some_iff_spells, ?_⟩
  · rw [Option.isSome_iff_exists]
    simp only [parse?_eq_some_iff_spells]
    constructor
    · rintro ⟨field, spells⟩
      cases spells with
      | unqualified isSchema isElement => exact .inl ⟨_, _, isSchema, isElement, rfl⟩
      | qualified isSchema isElement isQualifier =>
          exact .inr ⟨_, _, _, isSchema, isElement, isQualifier, rfl⟩
    · rintro (⟨schema, element, isSchema, isElement, rfl⟩ |
        ⟨schema, element, qualifier, isSchema, isElement, isQualifier, rfl⟩)
      · exact ⟨_, .unqualified isSchema isElement⟩
      · exact ⟨_, .qualified isSchema isElement isQualifier⟩
  · intro field found
    have written := (parse?_eq_some_iff.mp found).2
    constructor
    · exact written
    · intro other foundToo
      exact (parse?_eq_some_iff.mp foundToo).2.symm.trans written

/-- A blank is a segment as good as another; a text with two dots in a row is not
made of segments. -/
theorem parse?_blank_element :
    let text := "dc. .é"
    let field : FieldName := { schema := "dc", element := " ", qualifier := some "é" }
    parse? text = some field ∧ field.Spells text ∧ field.dotted = text ∧
      (∀ other, parse? other = some field → other = text) ∧
      ∀ schema element, IsSegment schema → IsSegment element →
        "dc..title" ≠ schema ++ "." ++ element := by
  intro text field
  have found : parse? text = some field := by
    decide +kernel
  have refused : parse? "dc..title" = none := by
    decide +kernel
  rcases parse?_two_or_three_segments text with ⟨-, spelled, faithful⟩
  rcases parse?_two_or_three_segments "dc..title" with ⟨isRead, -, -⟩
  rw [refused] at isRead
  refine ⟨found, (spelled field).mp found, (faithful field found).1, (faithful field found).2, ?_⟩
  intro schema element isSchema isElement made
  exact Bool.false_ne_true (isRead.mpr (.inl ⟨schema, element, isSchema, isElement, made⟩))

end FieldName

end AccessPolicy
