import AccessPolicy.Proofs.Metadata.Lookup

/-!
# Places of added values

A value that is added to a field gets the number of values in the field as its
place.  As long as nothing is taken out, the values of every field are numbered
from 0 on in the order in which they were added, whatever is added to other
fields in between and whatever is said about the values later.  A look-up then
lists the values of each field in that order.
-/

namespace AccessPolicy

/-! ## Edits of an item -/

/-- The field and the place of a value. -/
def FieldValue.slot (value : FieldValue) : FieldName × Nat :=
  (value.field, value.place)

/-- The value that says the same as another one, in its own slot. -/
def FieldValue.restatedAs (value other : FieldValue) : FieldValue :=
  { other with field := value.field, place := value.place }

namespace Item

/-- One edit of an item. -/
inductive Edit where
  | addValue (field : FieldName) (text : String)
  | addOwner (display owner : String)
  /-- Set the text, the language, the authority, the confidence and the level of
  the value at an index to those of another value. -/
  | restate (index : Nat) (other : FieldValue)
  | removeAt (index : Nat)

/-- The field to which an edit adds a value, if it adds one. -/
def Edit.field? : Edit → Option FieldName
  | .addValue field _ => some field
  | .addOwner _ _ => some FieldName.owner
  | .restate _ _ => none
  | .removeAt _ => none

/-- An edit that takes a value out. -/
def Edit.IsRemoval (edit : Edit) : Prop :=
  ∃ index, edit = .removeAt index

/-- The item after one edit. -/
def edited (item : Item) : Edit → Item
  | .addValue field text => item.addValue field text
  | .addOwner display owner => item.addOwner display owner
  | .restate index other =>
      { item with values := item.values.modify index (·.restatedAs other) }
  | .removeAt index => item.removeAt index

/-- The item after several edits, made one after the other. -/
def after (item : Item) (edits : List Edit) : Item :=
  edits.foldl edited item

/-- The slots of the values, in item order. -/
def slots (item : Item) : List (FieldName × Nat) :=
  item.values.map FieldValue.slot

/-- The places of the values of a field, in item order. -/
def placesIn (item : Item) (field : FieldName) : List Nat :=
  (item.values.filter (·.field = field)).map FieldValue.place

variable {item : Item} {edit : Edit} {edits : List Edit} {field : FieldName}

@[simp]
theorem after_nil (item : Item) : item.after [] = item :=
  rfl

@[simp]
theorem after_cons (item : Item) (edit : Edit) (edits : List Edit) :
    item.after (edit :: edits) = (item.edited edit).after edits :=
  rfl

theorem slots_restate (item : Item) (index : Nat) (other : FieldValue) :
    (item.edited (.restate index other)).slots = item.slots := by
  apply List.ext_getElem?
  intro position
  rw [slots, slots, edited, List.getElem?_map, List.getElem?_map, List.getElem?_modify]
  cases item.values[position]? with
  | none => rfl
  | some value =>
      by_cases there : index = position <;>
        simp [there, FieldValue.slot, FieldValue.restatedAs]

/-- An edit either puts one value behind the others, whose place is the number of
values in its field, or keeps all slots, or takes a value out. -/
theorem edited_cases (item : Item) (edit : Edit) :
    (∃ value, edit.field? = some value.field ∧ value.place = item.countIn value.field ∧
        (item.edited edit).values = item.values ++ [value]) ∨
      (edit.field? = none ∧ (item.edited edit).slots = item.slots) ∨
      (edit.field? = none ∧ edit.IsRemoval ∧
        (item.edited edit).values.Sublist item.values) := by
  cases edit with
  | addValue field text => exact .inl ⟨item.nextValue field text, rfl, rfl, rfl⟩
  | addOwner display owner => exact .inl ⟨item.ownerValue display owner, rfl, rfl, rfl⟩
  | restate index other => exact .inr (.inl ⟨rfl, slots_restate item index other⟩)
  | removeAt index => exact .inr (.inr ⟨rfl, ⟨index, rfl⟩, List.eraseIdx_sublist _ _⟩)

/-! ## The places of a field -/

theorem length_placesIn (item : Item) (field : FieldName) :
    (item.placesIn field).length = item.countIn field := by
  rw [placesIn, List.length_map, countIn, List.countP_eq_length_filter]

theorem mem_placesIn_iff {place : Nat} :
    place ∈ item.placesIn field ↔
      ∃ value ∈ item.values, value.field = field ∧ value.place = place := by
  simp [placesIn, and_assoc]

theorem placesIn_eq_of_slots (item : Item) (field : FieldName) :
    item.placesIn field = (item.slots.filter (·.1 = field)).map Prod.snd := by
  rw [slots, List.filter_map, List.map_map]
  rfl

theorem placesIn_congr {other : Item} (same : other.slots = item.slots) (field : FieldName) :
    other.placesIn field = item.placesIn field := by
  rw [placesIn_eq_of_slots, placesIn_eq_of_slots, same]

theorem placesIn_of_values_append {other : Item} {value : FieldValue}
    (grown : other.values = item.values ++ [value]) (field : FieldName) :
    other.placesIn field =
      item.placesIn field ++ if value.field = field then [value.place] else [] := by
  rw [placesIn, placesIn, grown, List.filter_append, List.map_append]
  by_cases there : value.field = field <;> simp [there]

/-- The values of every field are numbered in item order. -/
def IsNumbered (item : Item) : Prop :=
  ∀ field, item.placesIn field = List.range (item.countIn field)

theorem IsNumbered.edited (numbered : item.IsNumbered) (keeps : ¬edit.IsRemoval) :
    (item.edited edit).IsNumbered := by
  intro field
  rw [← length_placesIn]
  rcases item.edited_cases edit with ⟨value, -, next, grown⟩ | ⟨-, same⟩ | ⟨-, removes, -⟩
  · rw [placesIn_of_values_append grown]
    by_cases there : value.field = field
    · subst there
      rw [if_pos rfl, next, numbered, List.length_append, List.length_range,
        List.length_singleton, List.range_succ]
    · rw [if_neg there, List.append_nil, length_placesIn]
      exact numbered field
  · rw [placesIn_congr same, length_placesIn]
    exact numbered field
  · exact absurd removes keeps

theorem IsNumbered.after (numbered : item.IsNumbered)
    (keep : ∀ edit ∈ edits, ¬edit.IsRemoval) : (item.after edits).IsNumbered := by
  induction edits generalizing item with
  | nil => exact numbered
  | cons edit rest ih =>
      rcases List.forall_mem_cons.mp keep with ⟨keeps, keepRest⟩
      exact ih (numbered.edited keeps) keepRest

theorem isNumbered_empty (id : String) : IsNumbered { id } :=
  fun _ => rfl

/-! ## The order of additions -/

theorem fields_edited (keeps : ¬edit.IsRemoval) :
    (item.edited edit).values.map FieldValue.field =
      item.values.map FieldValue.field ++ edit.field?.toList := by
  have fields (item : Item) : item.values.map FieldValue.field = item.slots.map Prod.fst := by
    rw [slots, List.map_map]
    rfl
  rcases item.edited_cases edit with ⟨value, adds, -, grown⟩ | ⟨addsNone, same⟩ | ⟨-, removes, -⟩
  · rw [grown, adds, List.map_append]
    rfl
  · rw [fields, fields, same, addsNone, Option.toList_none, List.append_nil]
  · exact absurd removes keeps

/-- The fields of the values stand in the order in which the values were added. -/
theorem fields_after (keep : ∀ edit ∈ edits, ¬edit.IsRemoval) :
    (item.after edits).values.map FieldValue.field =
      item.values.map FieldValue.field ++ edits.filterMap Edit.field? := by
  induction edits generalizing item with
  | nil => rw [after_nil, List.filterMap_nil, List.append_nil]
  | cons edit rest ih =>
      rcases List.forall_mem_cons.mp keep with ⟨keeps, keepRest⟩
      rw [after_cons, ih keepRest, fields_edited keeps, List.append_assoc]
      cases adds : edit.field? with
      | none => rw [List.filterMap_cons_none adds, Option.toList_none, List.nil_append]
      | some field =>
          rw [List.filterMap_cons_some adds, Option.toList_some, List.singleton_append]

/-- Additions leave the values alone that are there. -/
theorem values_isPrefix_after (add : ∀ edit ∈ edits, edit.field? ≠ none) :
    item.values <+: (item.after edits).values := by
  induction edits generalizing item with
  | nil => exact List.prefix_rfl
  | cons edit rest ih =>
      rcases List.forall_mem_cons.mp add with ⟨adds, addRest⟩
      apply List.IsPrefix.trans _ (ih addRest)
      rcases item.edited_cases edit with ⟨value, -, -, grown⟩ | ⟨addsNone, -⟩ | ⟨addsNone, -⟩
      · rw [grown]
        exact List.prefix_append _ _
      · exact absurd addsNone adds
      · exact absurd addsNone adds

/-! ## Look-ups after additions -/

/-- Numbered values of a field stand by ascending place. -/
theorem IsNumbered.ascends (numbered : item.IsNumbered) (field : FieldName) :
    Ascends (item.values.filter (·.field = field)) := by
  have ascending : (item.placesIn field).Pairwise (· ≤ ·) := by
    rw [numbered]
    exact List.pairwise_le_range
  rwa [placesIn, List.pairwise_map] at ascending

/-- A look-up finds the values of a field in item order if they stand there by
ascending place. -/
theorem filter_valuesOf_of_ascends (ascends : Ascends (item.values.filter (·.field = field))) :
    (item.valuesOf field.schema field.element).filter (·.field = field) =
      item.values.filter (·.field = field) := by
  have sorts := (item.sorts_valuesOf field.schema field.element).filter (·.field = field)
  rw [filter_valuesUnder] at sorts
  exact sorts.unique ascends.sorts_self

/-- Build an item by adding values and owners in any order, and say about the
values what you like, without changing their fields and places.

The values stand in the order of the additions, and in each field, qualifier
included, their places are 0, 1 and so on in that order.  Further additions leave
them alone.  A look-up lists the values of each field in the order of their
addition, and so it does with values that share a place. -/
theorem places_after_additions (id : String) (edits : List Edit)
    (keep : ∀ edit ∈ edits, ¬edit.IsRemoval) :
    let item := Item.after { id } edits
    item.values.map FieldValue.field = edits.filterMap Edit.field? ∧
      (∀ field, (item.values.filter (·.field = field)).map FieldValue.place =
        List.range (item.countIn field)) ∧
      (∀ later : List Edit, (∀ edit ∈ later, edit.field? ≠ none) →
        item.values <+: (item.after later).values) ∧
      (∀ field : FieldName,
        (item.valuesOf field.schema field.element).filter (·.field = field) =
          item.values.filter (·.field = field)) ∧
      ∀ schema element place,
        (item.valuesOf schema element).filter (·.place = place) =
          (valuesUnder schema element item.values).filter (·.place = place) := by
  intro item
  have numbered : item.IsNumbered := (isNumbered_empty id).after keep
  refine ⟨fields_after keep, numbered, ?_, ?_, ?_⟩
  · exact fun later add => values_isPrefix_after add
  · exact fun field => filter_valuesOf_of_ascends (numbered.ascends field)
  · exact fun schema element => (item.sorts_valuesOf schema element).stable

/-- Two titles, an alternative title between them and an owner.  The first title is
restated in the end and keeps its place.  The alternative title is numbered by
itself, shares the place 0 with the first title and is found behind it. -/
theorem places_of_two_qualifiers :
    let title : FieldName := { schema := "dc", element := "title" }
    let alternative : FieldName := { title with qualifier := some "alternative" }
    let hidden : FieldValue := { field := title, text := "A*", level := some ⟨2⟩ }
    let edits : List Edit :=
      [.addValue title "A", .addValue alternative "B", .addOwner "Alice" "7",
        .addValue title "C", .restate 0 hidden]
    let item := Item.after { id := "item" } edits
    (∀ edit ∈ edits, ¬edit.IsRemoval) ∧
      item.values.map FieldValue.field = [title, alternative, .owner, title] ∧
      (item.values.filter (·.field = title)).map FieldValue.place = [0, 1] ∧
      (item.values.filter (·.field = alternative)).map FieldValue.place = [0] ∧
      item.values <+: (item.addValue alternative "D").values ∧
      ((item.valuesOf "dc" "title").filter (·.field = title)).map FieldValue.text =
        ["A*", "C"] ∧
      ((item.valuesOf "dc" "title").filter (·.place = 0)).map FieldValue.text =
        ["A*", "B"] := by
  intro title alternative hidden edits item
  have keep : ∀ edit ∈ edits, ¬edit.IsRemoval := by
    simp [edits, Edit.IsRemoval]
  rcases places_after_additions "item" edits keep with
    ⟨fields, numbered, untouched, inOrder, stable⟩
  have adds : ∀ edit ∈ [Edit.addValue alternative "D"], edit.field? ≠ none := by
    simp [Edit.field?]
  refine ⟨keep, fields, numbered title, numbered alternative,
    untouched [.addValue alternative "D"] adds, ?_, ?_⟩
  · exact congrArg (List.map FieldValue.text) (inOrder title)
  · exact congrArg (List.map FieldValue.text) (stable "dc" "title" 0)

end Item

end AccessPolicy
