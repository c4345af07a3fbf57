import AccessPolicy.Visibility.Ownership
import Mathlib.Data.List.Nodup
import Mathlib.Logic.Relation

/-!
# Looking values up

A look-up takes the values of one schema and element and lists them by place.
The listing is stable: at each place stand the values of that place, in the
order of the item.  This determines it, since a list by ascending place is known
by what it holds at each place.

So a look-up depends on the values of its schema and element alone, and on their
order only as far as they share places.
-/

namespace AccessPolicy

/-! ## Lists by place -/

/-- The values of a list that have a certain place, in their order. -/
def atPlace (place : Nat) (values : List FieldValue) : List FieldValue :=
  values.filter (·.place = place)

/-- The places of a list never descend. -/
def Ascends (values : List FieldValue) : Prop :=
  values.Pairwise fun first second => first.place ≤ second.place

/-- A list sorts some values by place: it holds these values as they are and no
others, its places never descend, and values of one place keep their order. -/
structure Sorts (sorted values : List FieldValue) : Prop where
  perm : sorted.Perm values
  ascends : Ascends sorted
  stable : ∀ place, atPlace place sorted = atPlace place values

theorem mem_atPlace_iff {place : Nat} {values : List FieldValue} {value : FieldValue} :
    value ∈ atPlace place values ↔ value ∈ values ∧ value.place = place := by
  simp [atPlace]

theorem atPlace_cons_self (value : FieldValue) (rest : List FieldValue) :
    atPlace value.place (value :: rest) = value :: atPlace value.place rest := by
  simp [atPlace]

theorem atPlace_cons_of_ne {place : Nat} {value : FieldValue} (elsewhere : value.place ≠ place)
    (rest : List FieldValue) : atPlace place (value :: rest) = atPlace place rest := by
  simp [atPlace, elsewhere]

theorem atPlace_append (place : Nat) (first second : List FieldValue) :
    atPlace place (first ++ second) = atPlace place first ++ atPlace place second :=
  List.filter_append first second

variable {first second : List FieldValue}

theorem mem_iff_of_atPlace (same : ∀ place, atPlace place first = atPlace place second)
    (value : FieldValue) : value ∈ first ↔ value ∈ second := by
  have sameThere : value ∈ atPlace value.place first ↔ value ∈ atPlace value.place second := by
    rw [same]
  simpa only [mem_atPlace_iff, and_true] using sameThere

/-- A value with which a list by ascending place begins is of the least place. -/
theorem Ascends.place_le {head : FieldValue} {rest : List FieldValue}
    (ascends : Ascends (head :: rest)) {value : FieldValue} (member : value ∈ head :: rest) :
    head.place ≤ value.place := by
  rcases List.mem_cons.mp member with rfl | later
  · exact Nat.le_refl _
  · exact List.rel_of_pairwise_cons ascends later

/-- Lists by ascending place are equal when they are equal at each place. -/
theorem Ascends.eq_of_atPlace (firstAscends : Ascends first) (secondAscends : Ascends second)
    (same : ∀ place, atPlace place first = atPlace place second) : first = second := by
  induction first generalizing second with
  | nil =>
      symm
      apply List.eq_nil_iff_forall_not_mem.mpr
      intro value member
      exact List.not_mem_nil ((mem_iff_of_atPlace same value).mpr member)
  | cons head rest ih =>
      cases second with
      | nil => exact absurd ((mem_iff_of_atPlace same head).mp List.mem_cons_self) List.not_mem_nil
      | cons other others =>
          -- Both lists begin at the least place, and what they hold there fixes the
          -- first value; without it they still are equal at each place.
          have samePlace : head.place = other.place := by
            apply Nat.le_antisymm
            · exact firstAscends.place_le ((mem_iff_of_atPlace same other).mpr List.mem_cons_self)
            · exact secondAscends.place_le ((mem_iff_of_atPlace same head).mp List.mem_cons_self)
          have sameThere := same head.place
          rw [atPlace_cons_self, samePlace, atPlace_cons_self] at sameThere
          rcases List.cons_eq_cons.mp sameThere with ⟨rfl, -⟩
          apply congrArg (head :: ·)
          apply ih firstAscends.of_cons secondAscends.of_cons
          intro place
          have sameAt := same place
          by_cases there : head.place = place
          · subst there
            rw [atPlace_cons_self, atPlace_cons_self] at sameAt
            exact List.tail_eq_of_cons_eq sameAt
          · rwa [atPlace_cons_of_ne there, atPlace_cons_of_ne there] at sameAt

/-- There is one way to sort values by place. -/
theorem Sorts.unique {values : List FieldValue} (firstSorts : Sorts first values)
    (secondSorts : Sorts second values) : first = second := by
  apply firstSorts.ascends.eq_of_atPlace secondSorts.ascends
  intro place
  rw [firstSorts.stable, secondSorts.stable]

/-- Only the places that the values have need to be compared. -/
theorem sorts_iff {sorted values : List FieldValue} :
    Sorts sorted values ↔ sorted.Perm values ∧ Ascends sorted ∧
      ∀ value ∈ values, atPlace value.place sorted = atPlace value.place values := by
  constructor
  · rintro ⟨perm, ascends, stable⟩
    exact ⟨perm, ascends, fun value _ => stable value.place⟩
  · rintro ⟨perm, ascends, stable⟩
    refine ⟨perm, ascends, ?_⟩
    intro place
    by_cases occurs : ∃ value ∈ values, value.place = place
    · rcases occurs with ⟨value, member, rfl⟩
      exact stable value member
    · have nothing (value : FieldValue) (member : value ∈ values) : value.place ≠ place :=
        fun there => occurs ⟨value, member, there⟩
      have nothingThere : atPlace place values = [] := by
        simpa [atPlace] using nothing
      rw [nothingThere, ← List.perm_nil, ← nothingThere]
      exact perm.filter _

instance (sorted values : List FieldValue) : Decidable (Sorts sorted values) :=
  have : Decidable (Ascends sorted) := inferInstanceAs (Decidable (List.Pairwise _ sorted))
  decidable_of_iff _ sorts_iff.symm

/-- Values that stand by ascending place are sorted already. -/
theorem Ascends.sorts_self {values : List FieldValue} (ascends : Ascends values) :
    Sorts values values :=
  ⟨.refl values, ascends, fun _ => rfl⟩

theorem Sorts.filter {sorted values : List FieldValue} (sorts : Sorts sorted values)
    (keeps : FieldValue → Bool) : Sorts (sorted.filter keeps) (values.filter keeps) := by
  constructor
  · exact sorts.perm.filter keeps
  · exact List.Pairwise.filter keeps sorts.ascends
  · intro place
    rw [atPlace, atPlace, List.filter_comm, List.filter_comm _ keeps values]
    exact congrArg (List.filter keeps) (sorts.stable place)

/-- Where places are not shared, the order of the values is of no account. -/
theorem Sorts.eq_of_perm {values others : List FieldValue} (firstSorts : Sorts first values)
    (secondSorts : Sorts second others) (permuted : others.Perm values)
    (distinct : (values.map FieldValue.place).Nodup) : first = second := by
  have samePerm : first.Perm second :=
    firstSorts.perm.trans (permuted.symm.trans secondSorts.perm.symm)
  apply samePerm.eq_of_pairwise _ firstSorts.ascends secondSorts.ascends
  intro value other member otherMember below above
  apply List.inj_on_of_nodup_map distinct
  · exact firstSorts.perm.mem_iff.mp member
  · exact permuted.mem_iff.mp (secondSorts.perm.mem_iff.mp otherMember)
  · exact Nat.le_antisymm below above

/-! ## Look-ups -/

/-- The values of a schema and an element, whatever their qualifier, in the
order of the list. -/
def valuesUnder (schema element : String) (values : List FieldValue) : List FieldValue :=
  values.filter fun value => value.field.schema = schema ∧ value.field.element = element

theorem filter_belongsTo_eq_valuesUnder (schema element : String) (values : List FieldValue) :
    values.filter (·.field.belongsTo schema element) = valuesUnder schema element values := by
  apply List.filter_congr
  intro value _
  rw [Bool.eq_iff_iff, FieldName.belongsTo_eq_true_iff, decide_eq_true_iff]

/-- The values of one field are all under its schema and its element. -/
theorem filter_valuesUnder (field : FieldName) (values : List FieldValue) :
    (valuesUnder field.schema field.element values).filter (·.field = field) =
      values.filter (·.field = field) := by
  rw [valuesUnder, List.filter_filter]
  apply List.filter_congr
  intro value _
  rw [← Bool.decide_and]
  apply decide_eq_decide.mpr
  constructor
  · exact And.left
  · rintro rfl
    exact ⟨rfl, rfl, rfl⟩

theorem sorts_mergeSort (values : List FieldValue) :
    Sorts (values.mergeSort fun first second => decide (first.place ≤ second.place)) values := by
  have transitive (first second third : FieldValue)
      (firstBelow : decide (first.place ≤ second.place) = true)
      (secondBelow : decide (second.place ≤ third.place) = true) :
      decide (first.place ≤ third.place) = true :=
    decide_eq_true (Nat.le_trans (of_decide_eq_true firstBelow) (of_decide_eq_true secondBelow))
  have total (first second : FieldValue) :
      (decide (first.place ≤ second.place) || decide (second.place ≤ first.place)) = true := by
    simpa using Nat.le_total first.place second.place
  have permuted := List.mergeSort_perm values fun first second =>
    decide (first.place ≤ second.place)
  constructor
  · exact permuted
  · simpa only [Ascends, decide_eq_true_eq] using List.pairwise_mergeSort transitive total values
  · intro place
    -- The values of one place are a list in order already, and as such they are
    -- found again among the sorted ones.
    have inOrder : (atPlace place values).Pairwise fun first second =>
        decide (first.place ≤ second.place) = true := by
      apply List.pairwise_of_forall_mem_list
      intro value member other otherMember
      rw [(mem_atPlace_iff.mp member).2, (mem_atPlace_iff.mp otherMember).2]
      exact decide_eq_true (Nat.le_refl place)
    have kept := (List.sublist_mergeSort transitive total inOrder List.filter_sublist).filter
      (·.place = place)
    have onlyThere : (atPlace place values).filter (·.place = place) = atPlace place values := by
      rw [atPlace, List.filter_filter]
      simp only [Bool.and_self]
    rw [onlyThere] at kept
    exact (kept.eq_of_length (permuted.filter _).length_eq.symm).symm

/-- A look-up sorts the values of its schema and element by place. -/
theorem Item.sorts_valuesOf (item : Item) (schema element : String) :
    Sorts (item.valuesOf schema element) (valuesUnder schema element item.values) := by
  rw [← filter_belongsTo_eq_valuesUnder]
  exact sorts_mergeSort _

/-- A look-up is known by what it has to be. -/
theorem Item.valuesOf_eq_iff {item : Item} {schema element : String}
    {sorted : List FieldValue} :
    item.valuesOf schema element = sorted ↔
      Sorts sorted (valuesUnder schema element item.values) := by
  constructor
  · rintro rfl
    exact item.sorts_valuesOf schema element
  · exact (item.sorts_valuesOf schema element).unique

theorem valuesUnder_append (schema element : String) (first second : List FieldValue) :
    valuesUnder schema element (first ++ second) =
      valuesUnder schema element first ++ valuesUnder schema element second :=
  List.filter_append first second

theorem valuesUnder_cons_of_elsewhere {schema element : String} {value : FieldValue}
    (elsewhere : ¬(value.field.schema = schema ∧ value.field.element = element))
    (rest : List FieldValue) :
    valuesUnder schema element (value :: rest) = valuesUnder schema element rest := by
  simp [valuesUnder, elsewhere]

/-- One edit of a list of values that touches only values of other schemas and
elements. -/
inductive EditElsewhere (schema element : String) : List FieldValue → List FieldValue → Prop
  | insert {before after : List FieldValue} {value : FieldValue}
      (elsewhere : ¬(value.field.schema = schema ∧ value.field.element = element)) :
      EditElsewhere schema element (before ++ after) (before ++ value :: after)
  | change {before after : List FieldValue} {value other : FieldValue}
      (elsewhere : ¬(value.field.schema = schema ∧ value.field.element = element))
      (stays : ¬(other.field.schema = schema ∧ other.field.element = element)) :
      EditElsewhere schema element (before ++ value :: after) (before ++ other :: after)
  | delete {before after : List FieldValue} {value : FieldValue}
      (elsewhere : ¬(value.field.schema = schema ∧ value.field.element = element)) :
      EditElsewhere schema element (before ++ value :: after) (before ++ after)

theorem EditElsewhere.valuesUnder_eq {schema element : String} {values others : List FieldValue}
    (edit : EditElsewhere schema element values others) :
    valuesUnder schema element others = valuesUnder schema element values := by
  cases edit with
  | insert elsewhere =>
      rw [valuesUnder_append, valuesUnder_append, valuesUnder_cons_of_elsewhere elsewhere]
  | change elsewhere stays =>
      rw [valuesUnder_append, valuesUnder_append, valuesUnder_cons_of_elsewhere elsewhere,
        valuesUnder_cons_of_elsewhere stays]
  | delete elsewhere =>
      rw [valuesUnder_append, valuesUnder_append, valuesUnder_cons_of_elsewhere elsewhere]

theorem valuesUnder_of_edits {schema element : String} {values others : List FieldValue}
    (edits : Relation.ReflTransGen (EditElsewhere schema element) values others) :
    valuesUnder schema element others = valuesUnder schema element values := by
  induction edits with
  | refl => rfl
  | tail _ last ih => exact last.valuesUnder_eq.trans ih

/-- Looking values up on an item always gives an answer: the values of the schema
and the element, in a stable sort by place.

Whatever is put in, changed and taken out elsewhere on the item, the answer stays
the same; and where the places in it are distinct, it is the same for every order
of the item's values. -/
theorem ValueStore.loaded_eq_sorted (item : Item) (schema element : String) :
    ∃ found, ValueStore.loaded item schema element = .ok found ∧
      Sorts found (valuesUnder schema element item.values) ∧
      (∀ others, Relation.ReflTransGen (EditElsewhere schema element) item.values others →
        ValueStore.loaded { item with values := others } schema element = .ok found) ∧
      (((valuesUnder schema element item.values).map FieldValue.place).Nodup →
        ∀ others : List FieldValue, others.Perm item.values →
          ValueStore.loaded { item with values := others } schema element = .ok found) := by
  have sorts := item.sorts_valuesOf schema element
  refine ⟨item.valuesOf schema element, rfl, sorts, ?_, ?_⟩
  · intro others edits
    have otherSorts := Item.sorts_valuesOf { item with values := others } schema element
    rw [valuesUnder_of_edits edits] at otherSorts
    exact congrArg Except.ok (otherSorts.unique sorts)
  · intro distinct others permuted
    have otherSorts := Item.sorts_valuesOf { item with values := others } schema element
    have sameUnder := permuted.filter fun value =>
      decide (value.field.schema = schema ∧ value.field.element = element)
    exact congrArg Except.ok (sorts.eq_of_perm otherSorts sameUnder distinct).symm

/-- Bob and Carol share a place in two fields of one element, and Bob, who comes
first in the item, is found before Carol.  Taking out a title changes nothing for
the owners, and the titles, whose places are apart, may stand in any order. -/
theorem ValueStore.loaded_of_shared_and_distinct_places :
    let title : FieldName := { schema := "dc", element := "title" }
    let main : FieldName := { schema := "cris", element := "owner", qualifier := some "main" }
    let alice : FieldValue := { field := .owner, text := "Alice" }
    let bob : FieldValue := { field := main, text := "Bob", place := 1 }
    let carol : FieldValue := { field := .owner, text := "Carol", place := 1 }
    let early : FieldValue := { field := title, text := "early", place := 3 }
    let late : FieldValue := { field := title, text := "late", place := 18446744073709551615 }
    let item : Item := { id := "item", values := [bob, late, alice, early, carol] }
    let untitled : Item := { item with values := [bob, alice, early, carol] }
    let reversed : Item := { item with values := [carol, early, alice, late, bob] }
    ValueStore.loaded item "cris" "owner" = .ok [alice, bob, carol] ∧
      EditElsewhere "cris" "owner" item.values untitled.values ∧
      ValueStore.loaded untitled "cris" "owner" = .ok [alice, bob, carol] ∧
      ((valuesUnder "dc" "title" item.values).map FieldValue.place).Nodup ∧
      ValueStore.loaded reversed "dc" "title" = .ok [early, late] := by
  intro title main alice bob carol early late item untitled reversed
  have owners : ValueStore.loaded item "cris" "owner" = .ok [alice, bob, carol] :=
    congrArg Except.ok (Item.valuesOf_eq_iff.mpr (by decide))
  have titles : ValueStore.loaded item "dc" "title" = .ok [early, late] :=
    congrArg Except.ok (Item.valuesOf_eq_iff.mpr (by decide))
  have deleted : EditElsewhere "cris" "owner" item.values untitled.values :=
    @EditElsewhere.delete "cris" "owner" [bob] [alice, early, carol] late (by decide)
  have distinct : ((valuesUnder "dc" "title" item.values).map FieldValue.place).Nodup := by
    decide
  have permuted : reversed.values.Perm item.values :=
    item.values.reverse_perm
  rcases ValueStore.loaded_eq_sorted item "cris" "owner" with ⟨found, answer, -, undisturbed, -⟩
  obtain rfl := Except.ok.inj (owners.symm.trans answer)
  rcases ValueStore.loaded_eq_sorted item "dc" "title" with ⟨found, answer, -, -, anyOrder⟩
  obtain rfl := Except.ok.inj (titles.symm.trans answer)
  exact ⟨owners, deleted, undisturbed _ (.single deleted), distinct,
    anyOrder distinct _ permuted⟩

end AccessPolicy
