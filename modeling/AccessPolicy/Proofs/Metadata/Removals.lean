import AccessPolicy.Proofs.Metadata.Places

/-!
# Additions after removals

The place of a new value is the number of values in its field, which need not be
greater than their places: where values have been taken out, those that are left
keep the places they were given.  A look-up lists a new value before all values of
its field that have a greater place.

So a new value is listed behind the older ones of its field exactly when none of
their places is greater than their number.  This is certain as long as no more
than one of the values that were added to the field has been taken out.
-/

namespace AccessPolicy

variable {values : List FieldValue}

/-- A list by ascending place can be cut behind a place. -/
theorem Ascends.exists_cut (ascends : Ascends values) (place : Nat) :
    ∃ before after, values = before ++ after ∧ (∀ value ∈ before, value.place ≤ place) ∧
      ∀ value ∈ after, place < value.place := by
  induction values with
  | nil => exact ⟨[], [], rfl, nofun, nofun⟩
  | cons head rest ih =>
      by_cases reached : head.place ≤ place
      · rcases ih ascends.of_cons with ⟨before, after, rfl, below, above⟩
        refine ⟨head :: before, after, rfl, ?_, above⟩
        exact List.forall_mem_cons.mpr ⟨reached, below⟩
      · refine ⟨[], head :: rest, rfl, nofun, ?_⟩
        intro value member
        exact Nat.lt_of_lt_of_le (Nat.lt_of_not_le reached) (ascends.place_le member)

theorem atPlace_eq_nil_of_lt {place : Nat} (above : ∀ value ∈ values, place < value.place) :
    atPlace place values = [] := by
  apply List.eq_nil_iff_forall_not_mem.mpr
  intro value member
  rcases mem_atPlace_iff.mp member with ⟨isValue, there⟩
  exact Nat.lt_irrefl place (there ▸ above value isValue)

/-- One more value is sorted in behind the values that have a place as great. -/
theorem Sorts.insert {before after : List FieldValue} {value : FieldValue}
    (sorts : Sorts (before ++ after) values)
    (below : ∀ other ∈ before, other.place ≤ value.place)
    (above : ∀ other ∈ after, value.place < other.place) :
    Sorts (before ++ value :: after) (values ++ [value]) := by
  constructor
  · exact List.perm_middle.trans
      ((sorts.perm.cons value).trans (List.perm_append_singleton value values).symm)
  · rcases List.pairwise_append.mp sorts.ascends with ⟨beforeAscends, afterAscends, between⟩
    apply List.pairwise_append.mpr
    refine ⟨beforeAscends, List.pairwise_cons.mpr ⟨?_, afterAscends⟩, ?_⟩
    · exact fun other member => Nat.le_of_lt (above other member)
    · intro first firstMember
      exact List.forall_mem_cons.mpr ⟨below first firstMember, between first firstMember⟩
  · intro place
    have stable := sorts.stable place
    rw [atPlace_append] at stable
    rw [atPlace_append, atPlace_append, ← stable]
    by_cases there : value.place = place
    · subst there
      rw [atPlace_cons_self, atPlace_cons_self, atPlace_eq_nil_of_lt above, List.append_nil]
      rfl
    · rw [atPlace_cons_of_ne there, atPlace_cons_of_ne there]
      exact (List.append_nil _).symm

namespace Item

variable {item : Item} {field : FieldName} {text : String}

/-- A value added to a field is listed behind those that the field has already:
the new look-up is the old one with the new value put in, and none of the old
values behind it is of the field. -/
def AddsBehind (item : Item) (field : FieldName) (text : String) : Prop :=
  ∃ before after,
    item.valuesOf field.schema field.element = before ++ after ∧
    (item.addValue field text).valuesOf field.schema field.element =
      before ++ item.nextValue field text :: after ∧
    ∀ value ∈ after, value.field ≠ field

/-- A look-up lists a new value behind the values whose places are not greater than
the number of values in its field, and before the others. -/
theorem exists_valuesOf_addValue (item : Item) (field : FieldName) (text : String) :
    ∃ before after,
      item.valuesOf field.schema field.element = before ++ after ∧
      (item.addValue field text).valuesOf field.schema field.element =
        before ++ item.nextValue field text :: after ∧
      (∀ value ∈ before, value.place ≤ item.countIn field) ∧
      ∀ value ∈ after, item.countIn field < value.place := by
  have sorts := item.sorts_valuesOf field.schema field.element
  rcases sorts.ascends.exists_cut (item.countIn field) with ⟨before, after, cut, below, above⟩
  refine ⟨before, after, cut, ?_, below, above⟩
  have sortsGrown := (item.addValue field text).sorts_valuesOf field.schema field.element
  have grown : valuesUnder field.schema field.element (item.addValue field text).values =
      valuesUnder field.schema field.element item.values ++ [item.nextValue field text] := by
    rw [values_addValue, valuesUnder_append]
    simp [valuesUnder, nextValue]
  rw [grown] at sortsGrown
  rw [cut] at sorts
  have inserted : Sorts (before ++ item.nextValue field text :: after)
      (valuesUnder field.schema field.element item.values ++ [item.nextValue field text]) :=
    sorts.insert below above
  exact sortsGrown.unique inserted

theorem mem_valuesOf_of_mem {value : FieldValue} (member : value ∈ item.values)
    (isIn : value.field = field) : value ∈ item.valuesOf field.schema field.element :=
  mem_valuesOf_iff.mpr ⟨member, congrArg FieldName.schema isIn, congrArg FieldName.element isIn⟩

/-- A new value is listed behind the older ones of its field exactly when none of
their places is greater than their number. -/
theorem addsBehind_iff :
    item.AddsBehind field text ↔
      ∀ value ∈ item.values, value.field = field → value.place ≤ item.countIn field := by
  constructor
  · rintro ⟨before, after, old, new, others⟩ value member isIn
    have found := mem_valuesOf_of_mem member isIn
    rw [old, List.mem_append] at found
    have ascends := ((item.addValue field text).sorts_valuesOf field.schema field.element).ascends
    rw [new] at ascends
    -- Copies of the new value may stand on either side of this cut, so it need not
    -- be the one between the places; that the new look-up ascends is enough.
    rcases found with isBefore | isAfter
    · exact (List.pairwise_append.mp ascends).2.2 value isBefore _ List.mem_cons_self
    · exact absurd isIn (others value isAfter)
  · intro small
    rcases item.exists_valuesOf_addValue field text with ⟨before, after, old, new, -, above⟩
    refine ⟨before, after, old, new, ?_⟩
    intro value isAfter isIn
    have found : value ∈ item.valuesOf field.schema field.element := by
      rw [old]
      exact List.mem_append_right before isAfter
    have place := small value (mem_valuesOf_iff.mp found).1 isIn
    exact Nat.not_lt.mpr place (above value isAfter)

/-! ## Places after removals -/

/-- How many of some edits add a value to a field. -/
def additionsTo (field : FieldName) (edits : List Edit) : Nat :=
  edits.countP fun edit => edit.field? = some field

/-- The values of a field are no more than a count, and their places are smaller. -/
def IsWithin (item : Item) (field : FieldName) (count : Nat) : Prop :=
  item.countIn field ≤ count ∧ ∀ place ∈ item.placesIn field, place < count

theorem isWithin_empty (id : String) (field : FieldName) : IsWithin { id } field 0 :=
  ⟨Nat.le_refl 0, nofun⟩

theorem IsWithin.mono {other : Item} {count more : Nat} (within : item.IsWithin field count)
    (fewer : (other.placesIn field).Sublist (item.placesIn field)) (grows : count ≤ more) :
    other.IsWithin field more := by
  rcases within with ⟨bounded, smaller⟩
  constructor
  · rw [← length_placesIn] at bounded ⊢
    exact Nat.le_trans fewer.length_le (Nat.le_trans bounded grows)
  · intro place member
    exact Nat.lt_of_lt_of_le (smaller place (fewer.subset member)) grows

/-- One more value of the field, numbered by those that are there, raises the bound
by one. -/
theorem IsWithin.add {other : Item} {count : Nat} (within : item.IsWithin field count)
    (places : other.placesIn field = item.placesIn field ++ [item.countIn field]) :
    other.IsWithin field (count + 1) := by
  rcases within with ⟨bounded, smaller⟩
  constructor
  · rw [← length_placesIn, places, List.length_append, length_placesIn]
    exact Nat.succ_le_succ bounded
  · intro place member
    rw [places, List.mem_append, List.mem_singleton] at member
    rcases member with older | rfl
    · exact Nat.lt_succ_of_lt (smaller place older)
    · exact Nat.lt_succ_of_le bounded

/-- Only an addition to the field raises the bound. -/
theorem IsWithin.edited {count : Nat} (within : item.IsWithin field count) (edit : Edit) :
    (item.edited edit).IsWithin field (count + additionsTo field [edit]) := by
  rcases item.edited_cases edit with ⟨value, adds, next, grown⟩ | ⟨-, same⟩ | ⟨-, -, fewer⟩
  · have places := placesIn_of_values_append grown field
    by_cases there : value.field = field
    · subst there
      have counted : additionsTo value.field [edit] = 1 := by
        simp [additionsTo, adds]
      rw [if_pos rfl, next] at places
      rw [counted]
      exact within.add places
    · rw [if_neg there, List.append_nil] at places
      apply within.mono _ (Nat.le_add_right _ _)
      rw [places]
  · apply within.mono _ (Nat.le_add_right _ _)
    rw [placesIn_congr same]
  · exact within.mono ((fewer.filter _).map _) (Nat.le_add_right _ _)

theorem IsWithin.after {count : Nat} (within : item.IsWithin field count) (edits : List Edit) :
    (item.after edits).IsWithin field (count + additionsTo field edits) := by
  induction edits generalizing item count with
  | nil => exact within
  | cons edit rest ih =>
      have split : additionsTo field (edit :: rest) =
          additionsTo field [edit] + additionsTo field rest := by
        rw [additionsTo, ← List.singleton_append, List.countP_append]
        rfl
      rw [split, ← Nat.add_assoc]
      exact ih (within.edited edit)

/-- Edit an item by adding values and owners, restating values and taking values
out in any order, and add one more value to a field.

A look-up then shows the old values as before, and the new one behind those whose
place is not greater than the number of values in the field.  So it is listed
behind all older values of its field exactly when none of them has a greater
place, which is certain while at most one of the values ever added to the field is
missing. -/
theorem addsBehind_after (id : String) (edits : List Edit) (field : FieldName) (text : String) :
    let item := Item.after { id } edits
    (∃ before after,
        item.valuesOf field.schema field.element = before ++ after ∧
        (item.addValue field text).valuesOf field.schema field.element =
          before ++ item.nextValue field text :: after ∧
        (∀ value ∈ before, value.place ≤ item.countIn field) ∧
        ∀ value ∈ after, item.countIn field < value.place) ∧
      (item.AddsBehind field text ↔
        ∀ value ∈ item.values, value.field = field → value.place ≤ item.countIn field) ∧
      (additionsTo field edits ≤ item.countIn field + 1 → item.AddsBehind field text) := by
  intro item
  refine ⟨item.exists_valuesOf_addValue field text, addsBehind_iff, ?_⟩
  intro fewMissing
  have within : item.IsWithin field (0 + additionsTo field edits) :=
    (isWithin_empty id field).after edits
  rw [Nat.zero_add] at within
  apply addsBehind_iff.mpr
  intro value member isIn
  have smaller := within.2 value.place (mem_placesIn_iff.mpr ⟨value, member, isIn, rfl⟩)
  exact Nat.le_of_lt_succ (Nat.lt_of_lt_of_le smaller fewMissing)

/-- One of two titles has been taken out.  The title that is left has place 1, and
so has a new title, which is listed behind it. -/
theorem addsBehind_after_one_removal :
    let title : FieldName := { schema := "dc", element := "title" }
    let edits : List Edit := [.addValue title "A", .addValue title "B", .removeAt 0]
    let item := Item.after { id := "item" } edits
    item.values = [{ field := title, text := "B", place := 1 }] ∧
      (item.nextValue title "C").place = 1 ∧
      additionsTo title edits ≤ item.countIn title + 1 ∧
      item.AddsBehind title "C" := by
  intro title edits item
  have fewMissing : additionsTo title edits ≤ item.countIn title + 1 := by
    decide
  exact ⟨rfl, rfl, fewMissing, (addsBehind_after "item" edits title "C").2.2 fewMissing⟩

/-- Two of three titles have been taken out.  The title that is left has place 2, a
new title gets place 1, and a look-up lists it before the older one. -/
theorem not_addsBehind_after_two_removals :
    let title : FieldName := { schema := "dc", element := "title" }
    let edits : List Edit :=
      [.addValue title "A", .addValue title "B", .addValue title "C", .removeAt 0, .removeAt 0]
    let item := Item.after { id := "item" } edits
    let older : FieldValue := { field := title, text := "C", place := 2 }
    let newer : FieldValue := { field := title, text := "D", place := 1 }
    item.values = [older] ∧ item.nextValue title "D" = newer ∧
      (item.addValue title "D").valuesOf "dc" "title" = [newer, older] ∧
      ¬item.AddsBehind title "D" := by
  intro title edits item older newer
  have listed : (item.addValue title "D").valuesOf "dc" "title" = [newer, older] :=
    Item.valuesOf_eq_iff.mpr (by decide)
  refine ⟨rfl, rfl, listed, ?_⟩
  intro behind
  have small : older.place ≤ item.countIn title :=
    addsBehind_iff.mp behind older (List.mem_singleton_self older) rfl
  exact absurd small (by decide)

end Item

end AccessPolicy
