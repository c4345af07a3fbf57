import AccessPolicy.Proofs.Metadata.FieldText
import AccessPolicy.Proofs.Text.Entries

/-!
# Field names read back

A plain field name is read back from its dotted form, and no other name is.  The
dotted form of any other name is refused, or it is the dotted form of a plain name
as well, and that one is read.

There is one way to be taken for another name: there is no qualifier, and a dot
inside the schema or the element makes three segments of the two parts.
-/

namespace AccessPolicy

namespace Text

variable {separator : Char} {parts : List (List Char)}

/-- Every part has a segment. -/
theorem length_le_length_flatMap_segments (separator : Char) (parts : List (List Char)) :
    parts.length ≤ (parts.flatMap (segments separator)).length := by
  induction parts with
  | nil => exact Nat.le_refl 0
  | cons first rest ih =>
      have some_segment := List.length_pos_iff.mpr (segments_ne_nil separator first)
      rw [List.flatMap_cons, List.length_append, List.length_cons]
      omega

/-- Where there are no more segments than parts, each part is its only segment. -/
theorem flatMap_segments_eq_self
    (sameLength : (parts.flatMap (segments separator)).length = parts.length) :
    parts.flatMap (segments separator) = parts := by
  induction parts with
  | nil => rfl
  | cons first rest ih =>
      have some_segment := List.length_pos_iff.mpr (segments_ne_nil separator first)
      have later := length_le_length_flatMap_segments separator rest
      rw [List.flatMap_cons, List.length_append, List.length_cons] at sameLength
      obtain ⟨only, single⟩ := List.length_eq_one_iff.mp
        (show (segments separator first).length = 1 by omega)
      have isFirst : only = first := by
        rw [← joined_segments separator first, single, joined_singleton]
      rw [List.flatMap_cons, single, isFirst, ih (by omega), List.singleton_append]

/-- Three segments of two parts: one of the parts has two of them. -/
theorem divided_of_segments_append {left right first second third : List Char}
    (cut : segments separator left ++ segments separator right = [first, second, third]) :
    left = first ++ separator :: second ∧ right = third ∨
      left = first ∧ right = second ++ separator :: third := by
  have written {text : List Char} {pieces : List (List Char)}
      (isCut : segments separator text = pieces) : text = joined separator pieces := by
    rw [← isCut, joined_segments]
  rcases List.append_eq_cons_iff.mp cut with ⟨nothing, -⟩ | ⟨others, ofLeft, later⟩
  · exact absurd nothing (segments_ne_nil separator left)
  · rcases List.append_eq_cons_iff.mp later.symm with
      ⟨rfl, ofRight⟩ | ⟨others, rfl, later⟩
    · right
      exact ⟨by simpa using written ofLeft, by simpa using written ofRight⟩
    · rcases List.append_eq_singleton_iff.mp (List.cons.inj later).2.symm with
        ⟨rfl, ofRight⟩ | ⟨-, nothing⟩
      · left
        exact ⟨by simpa using written ofLeft, by simpa using written ofRight⟩
      · exact absurd nothing (segments_ne_nil separator right)

end Text

namespace FieldName

open Text

/-- An unqualified name is taken for a qualified one when a dot divides its schema,
or its element, into two segments. -/
inductive IsTakenFor : FieldName → FieldName → Prop
  | dividedSchema {first second third : String} (isFirst : IsSegment first)
      (isSecond : IsSegment second) (isThird : IsSegment third) :
      IsTakenFor { schema := first ++ "." ++ second, element := third }
        { schema := first, element := second, qualifier := some third }
  | dividedElement {first second third : String} (isFirst : IsSegment first)
      (isSecond : IsSegment second) (isThird : IsSegment third) :
      IsTakenFor { schema := first, element := second ++ "." ++ third }
        { schema := first, element := second, qualifier := some third }

variable {field other : FieldName}

theorem isPlain_of_segments {schema element qualifier : String} (isSchema : IsSegment schema)
    (isElement : IsSegment element) (isQualifier : IsSegment qualifier) :
    IsPlain { schema, element, qualifier := some qualifier } := by
  refine ⟨isSchema, isElement, ?_⟩
  intro given same
  obtain rfl := Option.some.inj same
  exact isQualifier

theorem IsTakenFor.isPlain (taken : field.IsTakenFor other) : other.IsPlain := by
  cases taken with
  | dividedSchema isFirst isSecond isThird =>
      exact isPlain_of_segments isFirst isSecond isThird
  | dividedElement isFirst isSecond isThird =>
      exact isPlain_of_segments isFirst isSecond isThird

theorem IsTakenFor.dotted_eq (taken : field.IsTakenFor other) :
    other.dotted = field.dotted := by
  cases taken with
  | dividedSchema => rfl
  | dividedElement => simp only [dotted, String.append_assoc]

theorem IsTakenFor.ne (taken : field.IsTakenFor other) : other ≠ field := by
  intro same
  have sameQualifier := congrArg qualifier same
  cases taken <;> contradiction

theorem parts_injective : Function.Injective parts := by
  intro field other same
  rcases field with ⟨schema, element, _ | qualifier⟩ <;>
    rcases other with ⟨schema', element', _ | qualifier'⟩ <;>
    simp_all [parts, String.toList_inj]

/-- The segments of a dotted form are those of the parts, one part after the other. -/
theorem segments_dotted (field : FieldName) :
    segments '.' field.dotted.toList = field.parts.flatMap (segments '.') := by
  rw [toList_dotted]
  apply segments_joined_eq_flatMap
  simp [parts]

/-- A plain name with the dotted form of another name has one part more, since there
are as many segments as it has parts. -/
theorem isTakenFor_of_dotted_eq (isPlain : other.IsPlain) (differs : other ≠ field)
    (same : other.dotted = field.dotted) : field.IsTakenFor other := by
  have cut : field.parts.flatMap (segments '.') = other.parts := by
    rw [← FieldName.segments_dotted, ← same, isPlain.segments_dotted]
  have fewer := length_le_length_flatMap_segments '.' field.parts
  have different : (field.parts.flatMap (segments '.')).length ≠ field.parts.length := by
    intro sameLength
    have sameParts := flatMap_segments_eq_self sameLength
    exact differs (parts_injective (cut.symm.trans sameParts))
  rw [cut] at fewer different
  -- There are two or three parts on either side, so the other name has the qualifier.
  rcases field with ⟨schema, element, _ | qualifier⟩ <;>
    rcases other with ⟨first, second, _ | third⟩
  case none.none => exact absurd rfl different
  case some.none => exact absurd fewer (Nat.not_succ_le_self 2)
  case some.some => exact absurd rfl different
  case none.some =>
    have cutThree : segments '.' schema.toList ++ segments '.' element.toList =
        [first.toList, second.toList, third.toList] := by
      simpa [parts] using cut
    obtain ⟨isFirst, isSecond, isQualifier⟩ := isPlain
    have isThird := isQualifier third rfl
    rcases divided_of_segments_append cutThree with
      ⟨dividedSchema, whole⟩ | ⟨whole, dividedElement⟩
    · obtain rfl : element = third := String.toList_injective whole
      obtain rfl : schema = first ++ "." ++ second := by
        apply String.toList_injective
        simpa using dividedSchema
      exact .dividedSchema isFirst isSecond isThird
    · obtain rfl : schema = first := String.toList_injective whole
      obtain rfl : element = second ++ "." ++ third := by
        apply String.toList_injective
        simpa using dividedElement
      exact .dividedElement isFirst isSecond isThird

theorem isTakenFor_iff :
    field.IsTakenFor other ↔ parse? field.dotted = some other ∧ other ≠ field := by
  rw [parse?_eq_some_iff]
  constructor
  · intro taken
    exact ⟨⟨taken.isPlain, taken.dotted_eq⟩, taken.ne⟩
  · rintro ⟨⟨isPlain, same⟩, differs⟩
    exact isTakenFor_of_dotted_eq isPlain differs same

/-- The dotted form of a field name is read as the name itself exactly when the name
is plain: its schema, its element and its qualifier, if there is one, are not empty
and hold no dot.  So no two plain names are written alike.

The dotted form of any other name is refused or read as a different name, which is
written in the same way.  The latter happens exactly when a dot in the schema or in
the element of an unqualified name divides this part into two segments. -/
theorem parse?_dotted (field : FieldName) :
    (parse? field.dotted = some field ↔ field.IsPlain) ∧
      (¬field.IsPlain → parse? field.dotted = none ∨
        ∃ other, parse? field.dotted = some other ∧ other ≠ field ∧
          other.dotted = field.dotted) ∧
      (∀ other, parse? field.dotted = some other ∧ other ≠ field ↔
        field.IsTakenFor other) ∧
      ∀ other, field.IsPlain → other.IsPlain → field.dotted = other.dotted →
        field = other := by
  have readBack : ∀ name : FieldName, parse? name.dotted = some name ↔ name.IsPlain := by
    intro name
    rw [parse?_eq_some_iff]
    exact and_iff_left rfl
  refine ⟨readBack field, ?_, fun _ => isTakenFor_iff.symm, ?_⟩
  · intro notPlain
    cases found : parse? field.dotted with
    | none => exact .inl rfl
    | some other =>
        right
        obtain ⟨isPlain, written⟩ := parse?_eq_some_iff.mp found
        refine ⟨other, rfl, ?_, written⟩
        rintro rfl
        exact notPlain isPlain
  · intro other isPlain isPlainToo same
    have read := (readBack field).mpr isPlain
    have readToo := (readBack other).mpr isPlainToo
    rw [same] at read
    exact Option.some.inj (read.symm.trans readToo)

/-- A divided schema takes the name for a qualified one; an empty qualifier leaves a
dot at the end, and nothing is read. -/
theorem parse?_dotted_of_divided_schema :
    let divided : FieldName := { schema := "dc.title", element := "alternative" }
    let trailing : FieldName := { schema := "dc", element := "title", qualifier := some "" }
    let plain : FieldName :=
      { schema := "dc", element := "title", qualifier := some "alternative" }
    divided.IsTakenFor plain ∧ ¬divided.IsPlain ∧ ¬trailing.IsPlain ∧
      (∃ other, parse? divided.dotted = some other ∧ other ≠ divided ∧
        other.dotted = divided.dotted) ∧
      parse? trailing.dotted = none ∧ plain.IsPlain ∧
      ∀ other, other.IsPlain → plain.dotted = other.dotted → plain = other := by
  intro divided trailing plain
  have readDivided : parse? divided.dotted = some plain := by
    decide +kernel
  have readTrailing : parse? trailing.dotted = none := by
    decide +kernel
  have readPlain : parse? plain.dotted = some plain := by
    decide +kernel
  have differs : plain ≠ divided := by
    decide
  obtain ⟨isReadBack, otherwise, isTaken, -⟩ := parse?_dotted divided
  have notPlain : ¬divided.IsPlain := by
    rw [← isReadBack, readDivided]
    exact fun same => differs (Option.some.inj same)
  have notPlainToo : ¬trailing.IsPlain := by
    rw [← (parse?_dotted trailing).1, readTrailing]
    exact (Option.some_ne_none trailing).symm
  have isPlain := (parse?_dotted plain).1.mp readPlain
  refine ⟨(isTaken plain).mp ⟨readDivided, differs⟩, notPlain, notPlainToo, ?_,
    readTrailing, isPlain, ?_⟩
  · apply (otherwise notPlain).resolve_left
    rw [readDivided]
    exact Option.some_ne_none plain
  · intro other isPlainToo
    exact (parse?_dotted plain).2.2.2 other isPlain isPlainToo

end FieldName

end AccessPolicy
