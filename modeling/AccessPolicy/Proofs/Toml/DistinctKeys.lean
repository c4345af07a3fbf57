import AccessPolicy.Toml.Document
import AccessPolicy.Proofs.Toml.Yields
import Mathlib.Data.List.Nodup
import Mathlib.Data.Option.Basic

/-!
# Keys are distinct

No table of a document has a key twice, at whatever depth it stands.  A value is
read with distinct keys in all its tables; each way of filling a table gives a
value only to a key that has none, or replaces the value of one; so each
statement keeps the keys distinct, and a document does.

What a table gives to a key may therefore be looked up or found among the
entries: it is the same, and the order of the entries does not matter.
-/

namespace AccessPolicy.Toml

/-- No table within a value has a key twice. -/
inductive Value.HasDistinctKeys : Value → Prop
  | string (text : String) : HasDistinctKeys (.string text)
  | integer (number : Int) : HasDistinctKeys (.integer number)
  | float (number : Decimal) : HasDistinctKeys (.float number)
  | boolean (truth : Bool) : HasDistinctKeys (.boolean truth)
  | dateTime (moment : DateTime) : HasDistinctKeys (.dateTime moment)
  | array {elements : List Value} :
      (∀ element ∈ elements, HasDistinctKeys element) → HasDistinctKeys (.array elements)
  | inlineTable {entries : Table} : (entries.map Prod.fst).Nodup →
      (∀ entry ∈ entries, HasDistinctKeys entry.2) → HasDistinctKeys (.inlineTable entries)
  | table {origin : Origin} {entries : Table} : (entries.map Prod.fst).Nodup →
      (∀ entry ∈ entries, HasDistinctKeys entry.2) → HasDistinctKeys (.table origin entries)
  | tables {earlier : List Table} {latest : Table} :
      (∀ entries ∈ latest :: earlier, (entries.map Prod.fst).Nodup) →
      (∀ entries ∈ latest :: earlier, ∀ entry ∈ entries, HasDistinctKeys entry.2) →
      HasDistinctKeys (.tables earlier latest)

namespace Table

/-- No table within a table has a key twice, nor has the table itself. -/
structure HasDistinctKeys (table : Table) : Prop where
  nodup : (table.map Prod.fst).Nodup
  values : ∀ entry ∈ table, entry.2.HasDistinctKeys

end Table

namespace Value

variable {origin : Origin} {entries latest : Table} {earlier : List Table}

theorem hasDistinctKeys_inlineTable_iff :
    (inlineTable entries).HasDistinctKeys ↔ Table.HasDistinctKeys entries := by
  constructor
  · rintro (_ | _ | _ | _ | _ | _ | ⟨nodup, values⟩)
    exact ⟨nodup, values⟩
  · rintro ⟨nodup, values⟩
    exact .inlineTable nodup values

theorem hasDistinctKeys_table_iff :
    (table origin entries).HasDistinctKeys ↔ Table.HasDistinctKeys entries := by
  constructor
  · rintro (_ | _ | _ | _ | _ | _ | _ | ⟨nodup, values⟩)
    exact ⟨nodup, values⟩
  · rintro ⟨nodup, values⟩
    exact .table nodup values

theorem hasDistinctKeys_tables_iff :
    (tables earlier latest).HasDistinctKeys ↔
      ∀ entries ∈ latest :: earlier, Table.HasDistinctKeys entries := by
  constructor
  · rintro (_ | _ | _ | _ | _ | _ | _ | _ | ⟨nodup, values⟩)
    exact fun entries member => ⟨nodup entries member, values entries member⟩
  · intro distinct
    exact .tables (fun entries member => (distinct entries member).nodup)
      (fun entries member => (distinct entries member).values)

/-- A value that is a table has distinct keys when the table has. -/
theorem HasDistinctKeys.of_entries? {value : Value} (distinct : value.HasDistinctKeys)
    (isTable : value.entries? = some entries) : Table.HasDistinctKeys entries := by
  cases value with
  | inlineTable inner =>
      obtain rfl := Option.some.inj isTable
      exact hasDistinctKeys_inlineTable_iff.mp distinct
  | table origin inner =>
      obtain rfl := Option.some.inj isTable
      exact hasDistinctKeys_table_iff.mp distinct
  | _ => contradiction

end Value

namespace Table

variable {table result : Table} {name : String} {value : Value}

/-! ## Looking a key up -/

theorem lookup_eq_none_iff : table.lookup name = none ↔ name ∉ table.map Prod.fst := by
  rw [List.lookup_eq_none_iff, List.mem_map]
  constructor
  · rintro absent ⟨entry, member, rfl⟩
    simpa using absent entry member
  · intro absent entry member
    refine bne_iff_ne.mpr fun same => absent ⟨entry, member, same.symm⟩

theorem mem_of_lookup (found : table.lookup name = some value) : (name, value) ∈ table := by
  obtain ⟨before, after, rfl, -⟩ := List.lookup_eq_some_iff.mp found
  simp

/-- Where no key occurs twice, an entry is what its key is given. -/
theorem lookup_eq_some_iff_mem (nodup : (table.map Prod.fst).Nodup) :
    table.lookup name = some value ↔ (name, value) ∈ table := by
  refine ⟨mem_of_lookup, ?_⟩
  intro member
  obtain ⟨before, after, rfl⟩ := List.append_of_mem member
  refine List.lookup_eq_some_iff.mpr ⟨before, after, rfl, ?_⟩
  intro entry earlier
  rw [List.map_append, List.map_cons] at nodup
  have fresh := (List.nodup_middle.mp nodup).notMem
  refine bne_iff_ne.mpr fun same => fresh ?_
  rw [List.mem_append]
  exact .inl (List.mem_map.mpr ⟨entry, earlier, same.symm⟩)

/-- The entries of a table whose keys are distinct may stand in any order. -/
theorem lookup_eq_of_perm {other : Table} (nodup : (table.map Prod.fst).Nodup)
    (reordered : table.Perm other) (name : String) :
    table.lookup name = other.lookup name := by
  have nodupToo : (other.map Prod.fst).Nodup := (reordered.map Prod.fst).nodup nodup
  ext value
  rw [lookup_eq_some_iff_mem nodup, lookup_eq_some_iff_mem nodupToo, reordered.mem_iff]

theorem map_fst_replace (name : String) (value : Value) (table : Table) :
    (table.replace name value).map Prod.fst = table.map Prod.fst := by
  rw [replace, List.map_map]
  apply List.map_congr_left
  intro entry _
  by_cases same : entry.1 = name <;> simp [same]

/-! ## Filling a table -/

/-- What every step keeps, all of them keep. -/
theorem foldlM_preserves {α β : Type} {step : β → α → Option β} {invariant : β → Prop}
    {entries : List α}
    (keeps : ∀ entry ∈ entries, ∀ {before after : β}, invariant before →
      step before entry = some after → invariant after)
    {start last : β} (holds : invariant start) (done : entries.foldlM step start = some last) :
    invariant last := by
  induction entries generalizing start with
  | nil =>
      obtain rfl := Option.some.inj done
      exact holds
  | cons entry rest ih =>
      rw [List.foldlM_cons] at done
      obtain ⟨next, stepped, doneRest⟩ := Option.bind_eq_some_iff.mp done
      obtain ⟨keepsFirst, keepsRest⟩ := List.forall_mem_cons.mp keeps
      exact ih keepsRest (keepsFirst holds stepped) doneRest

namespace HasDistinctKeys

theorem nil : HasDistinctKeys [] :=
  ⟨List.nodup_nil, by simp⟩

theorem of_lookup (distinct : table.HasDistinctKeys)
    (found : table.lookup name = some value) : value.HasDistinctKeys :=
  distinct.values _ (mem_of_lookup found)

/-- A key that has no value may be given one. -/
theorem append (distinct : table.HasDistinctKeys) (absent : table.lookup name = none)
    (distinctValue : value.HasDistinctKeys) :
    HasDistinctKeys (table ++ [(name, value)]) where
  nodup := by
    rw [List.map_append, List.map_singleton, ← List.concat_eq_append]
    exact distinct.nodup.concat (lookup_eq_none_iff.mp absent)
  values := by
    intro entry member
    rcases List.mem_append.mp member with earlier | last
    · exact distinct.values entry earlier
    · obtain rfl := List.mem_singleton.mp last
      exact distinctValue

theorem replace (distinct : table.HasDistinctKeys) (distinctValue : value.HasDistinctKeys)
    (name : String) : (table.replace name value).HasDistinctKeys where
  nodup := by
    rw [map_fst_replace]
    exact distinct.nodup
  values := by
    intro entry member
    obtain ⟨before, earlier, rfl⟩ := List.mem_map.mp member
    split
    · exact distinctValue
    · exact distinct.values before earlier

/-- A new table may be put under a key that has no value. -/
theorem appendTable {inner : Table} (distinct : table.HasDistinctKeys)
    (absent : table.lookup name = none) (origin : Origin) (filled : inner.HasDistinctKeys) :
    HasDistinctKeys (table ++ [(name, .table origin inner)]) :=
  distinct.append absent (Value.hasDistinctKeys_table_iff.mpr filled)

/-- A table under a key may be changed, and may count as made in another way. -/
theorem replaceTable {inner entries : Table} {origin : Origin}
    (distinct : table.HasDistinctKeys)
    (found : table.lookup name = some (.table origin entries)) (newOrigin : Origin)
    (keeps : entries.HasDistinctKeys → inner.HasDistinctKeys) :
    HasDistinctKeys (table.replace name (.table newOrigin inner)) := by
  apply distinct.replace
  rw [Value.hasDistinctKeys_table_iff]
  exact keeps (Value.hasDistinctKeys_table_iff.mp (distinct.of_lookup found))

/-- An array of tables under a key may be changed, if its tables keep their keys
distinct. -/
theorem replaceTables {inner latest : Table} {earlier newEarlier : List Table}
    (distinct : table.HasDistinctKeys)
    (found : table.lookup name = some (.tables earlier latest))
    (keeps : (∀ entries ∈ latest :: earlier, entries.HasDistinctKeys) →
      ∀ entries ∈ inner :: newEarlier, entries.HasDistinctKeys) :
    HasDistinctKeys (table.replace name (.tables newEarlier inner)) := by
  apply distinct.replace
  rw [Value.hasDistinctKeys_tables_iff]
  exact keeps (Value.hasDistinctKeys_tables_iff.mp (distinct.of_lookup found))

/-- The latest table of an array may be changed. -/
theorem replaceLatest {inner latest : Table} {earlier : List Table}
    (distinct : table.HasDistinctKeys)
    (found : table.lookup name = some (.tables earlier latest))
    (keeps : latest.HasDistinctKeys → inner.HasDistinctKeys) :
    HasDistinctKeys (table.replace name (.tables earlier inner)) := by
  refine distinct.replaceTables found fun before => ?_
  obtain ⟨distinctLatest, distinctEarlier⟩ := List.forall_mem_cons.mp before
  exact List.forall_mem_cons.mpr ⟨keeps distinctLatest, distinctEarlier⟩

/-- A table at the end of a path may be changed in any way that keeps its keys
distinct. -/
theorem within {update : Table → Option Table}
    (keeps : ∀ {table result : Table}, table.HasDistinctKeys →
      update table = some result → result.HasDistinctKeys)
    {path : List String} (distinct : table.HasDistinctKeys)
    (done : table.within update path = some result) : result.HasDistinctKeys := by
  induction path generalizing table result with
  | nil => exact keeps distinct done
  | cons step path ih =>
      rw [Table.within] at done
      split at done
      · rename_i absent
        obtain ⟨inner, filled, made⟩ := Option.bind_eq_some_iff.mp done
        obtain rfl := Option.some.inj made
        exact distinct.appendTable absent _ (ih nil filled)
      · rename_i origin entries found
        obtain ⟨inner, filled, made⟩ := Option.bind_eq_some_iff.mp done
        obtain rfl := Option.some.inj made
        exact distinct.replaceTable found _ fun before => ih before filled
      · rename_i earlier latest found
        obtain ⟨inner, filled, made⟩ := Option.bind_eq_some_iff.mp done
        obtain rfl := Option.some.inj made
        exact distinct.replaceLatest found fun before => ih before filled
      · contradiction

/-- A dotted key may be given a value. -/
theorem assign (distinctValue : value.HasDistinctKeys) {path : List String}
    (distinct : table.HasDistinctKeys)
    (done : table.assign name value path = some result) : result.HasDistinctKeys := by
  induction path generalizing table result with
  | nil =>
      rw [Table.assign] at done
      split at done
      · contradiction
      · rename_i absent
        obtain rfl := Option.some.inj done
        exact distinct.append (Option.not_isSome_iff_eq_none.mp absent) distinctValue
  | cons step path ih =>
      rw [Table.assign] at done
      split at done
      · rename_i absent
        obtain ⟨inner, filled, made⟩ := Option.bind_eq_some_iff.mp done
        obtain rfl := Option.some.inj made
        exact distinct.appendTable absent _ (ih nil filled)
      · rename_i entries found
        obtain ⟨inner, filled, made⟩ := Option.bind_eq_some_iff.mp done
        obtain rfl := Option.some.inj made
        exact distinct.replaceTable found _ fun before => ih before filled
      · rename_i entries found
        obtain ⟨-, -, allowed⟩ := Option.bind_eq_some_iff.mp done
        obtain ⟨inner, filled, made⟩ := Option.bind_eq_some_iff.mp allowed
        obtain rfl := Option.some.inj made
        exact distinct.replaceTable found _ fun before => ih before filled
      · rename_i earlier latest found
        obtain ⟨-, -, allowed⟩ := Option.bind_eq_some_iff.mp done
        obtain ⟨inner, filled, made⟩ := Option.bind_eq_some_iff.mp allowed
        obtain rfl := Option.some.inj made
        exact distinct.replaceLatest found fun before => ih before filled
      · contradiction

theorem openTable (distinct : table.HasDistinctKeys)
    (done : table.openTable name = some result) : result.HasDistinctKeys := by
  rw [Table.openTable] at done
  split at done
  · rename_i absent
    obtain rfl := Option.some.inj done
    exact distinct.appendTable absent _ nil
  · rename_i entries found
    obtain rfl := Option.some.inj done
    exact distinct.replaceTable found _ id
  · contradiction

theorem openElement (distinct : table.HasDistinctKeys)
    (done : table.openElement name = some result) : result.HasDistinctKeys := by
  rw [Table.openElement] at done
  split at done
  · rename_i absent
    obtain rfl := Option.some.inj done
    refine distinct.append absent (Value.hasDistinctKeys_tables_iff.mpr ?_)
    intro entries member
    obtain rfl := List.mem_singleton.mp member
    exact nil
  · rename_i earlier latest found
    obtain rfl := Option.some.inj done
    refine distinct.replaceTables found fun before => ?_
    intro entries member
    rcases List.mem_cons.mp member with rfl | member
    · exact nil
    · rcases List.mem_append.mp member with isEarlier | isLatest
      · exact before entries (List.mem_cons_of_mem _ isEarlier)
      · obtain rfl := List.mem_singleton.mp isLatest
        exact before entries List.mem_cons_self
  · contradiction

/-- Values given to dotted keys one after the other make a table. -/
theorem ofAssignments? {assignments : List (DottedKey × Value)}
    (distinctValues : ∀ assignment ∈ assignments, assignment.2.HasDistinctKeys)
    (done : Table.ofAssignments? assignments = some result) : result.HasDistinctKeys :=
  foldlM_preserves
    (fun assignment member _ _ before assigned =>
      before.assign (distinctValues assignment member) assigned)
    nil done

end HasDistinctKeys

end Table

/-! ## Reading values -/

open Scanner

theorem yields_scanAssignment {value : Scanner Value}
    (distinct : value.Yields Value.HasDistinctKeys) :
    (scanAssignment value).Yields fun assignment => assignment.2.HasDistinctKeys :=
  yields_bind fun _ => yields_bind fun _ => yields_bind fun _ =>
    distinct.bind fun _ holds => yields_bind fun _ => yields_pure holds

namespace Value

theorem yields_scanScalar : scanScalar.Yields HasDistinctKeys := by
  unfold scanScalar
  refine .orElse ?_ (.orElse ?_ (.orElse ?_ (.orElse ?_ ?_)))
  · exact .map fun _ text _ _ => .string text
  · exact .map fun _ truth _ _ => .boolean truth
  · exact .map fun _ moment _ _ => .dateTime moment
  · exact .map fun _ number _ _ => .float number
  · exact .map fun _ number _ _ => .integer number

theorem yields_scanElement {value : Scanner Value} (distinct : value.Yields HasDistinctKeys) :
    (scanElement value).Yields HasDistinctKeys :=
  yields_bind fun _ => distinct.bind fun _ holds => yields_bind fun _ => yields_pure holds

theorem forall_mem_getD {α : Type} {property : α → Prop} {entries? : Option (List α)}
    (holds : ∀ entries, entries? = some entries → ∀ entry ∈ entries, property entry) :
    ∀ entry ∈ entries?.getD [], property entry := by
  cases entries? with
  | none => simp
  | some entries => exact holds entries rfl

theorem yields_scanArray {value : Scanner Value} (distinct : value.Yields HasDistinctKeys) :
    (scanArray value).Yields HasDistinctKeys := by
  unfold scanArray
  refine yields_bind fun _ => ((yields_scanElement distinct).separatedBy _).optional.bind ?_
  intro elements? holds
  have closes : Yields HasDistinctKeys
      (do gap; char ']'; pure (.array (elements?.getD [])) : Scanner Value) :=
    yields_bind fun _ => yields_bind fun _ => yields_pure (.array (forall_mem_getD holds))
  split
  · exact yields_bind fun _ => closes
  · exact closes

theorem yields_scanInlineTable {value : Scanner Value}
    (distinct : value.Yields HasDistinctKeys) :
    (scanInlineTable value).Yields HasDistinctKeys := by
  unfold scanInlineTable
  refine yields_bind fun _ => ((yields_scanAssignment distinct).separatedBy _).optional.bind ?_
  intro assignments? holds
  refine yields_bind fun _ => yields_bind fun _ => ?_
  refine (yields_liftM _).bind fun entries filled => yields_pure ?_
  rw [hasDistinctKeys_inlineTable_iff]
  exact .ofAssignments? (forall_mem_getD holds) filled

/-- A value is read with distinct keys in all its tables. -/
theorem yields_scan (depth : Nat) : (scan depth).Yields HasDistinctKeys := by
  induction depth with
  | zero => exact yields_scanScalar
  | succ depth ih =>
      exact yields_scanScalar.orElse ((yields_scanArray ih).orElse (yields_scanInlineTable ih))

end Value

/-! ## Reading documents -/

/-- What a statement gives to a key has distinct keys. -/
def Statement.HasDistinctKeys : Statement → Prop
  | .assignment _ value => value.HasDistinctKeys
  | _ => True

theorem Statement.yields_scan : Statement.scan.Yields Statement.HasDistinctKeys := by
  unfold Statement.scan
  refine .orElse ?_ (.orElse ?_ ?_)
  · exact yields_bind fun _ => yields_bind fun _ => yields_bind fun _ => yields_pure trivial
  · exact yields_bind fun _ => yields_bind fun _ => yields_bind fun _ => yields_pure trivial
  · exact (yields_scanAssignment (Value.yields_scan _)).bind fun _ holds => yields_pure holds

theorem hasDistinctKeys_of_mem_statements? {text : List Char} {statements : List Statement}
    (read : statements? text = some statements) :
    ∀ statement ∈ statements, statement.HasDistinctKeys := by
  have lines : (separatedBy lineBreak scanLine).Yields fun lines =>
      ∀ line ∈ lines, ∀ statement, line = some statement → statement.HasDistinctKeys :=
    Yields.separatedBy _ <| yields_bind fun _ =>
      Statement.yields_scan.optional.bind fun _ holds => yields_bind fun _ => yields_pure holds
  obtain ⟨found, readLines, rfl⟩ := Option.map_eq_some_iff.mp read
  rw [readAll?] at readLines
  split at readLines
  · rename_i taken
    obtain rfl := Option.some.inj readLines
    intro statement member
    obtain ⟨line, lineMember, same⟩ := List.mem_filterMap.mp member
    exact lines _ _ _ taken line lineMember statement same
  · contradiction

theorem Draft.hasDistinctKeys_follow {draft next : Draft} {statement : Statement}
    (distinct : draft.root.HasDistinctKeys) (distinctValue : statement.HasDistinctKeys)
    (followed : draft.follow statement = some next) : next.root.HasDistinctKeys := by
  cases statement with
  | assignment key value =>
      obtain ⟨root, filled, made⟩ := Option.bind_eq_some_iff.mp followed
      obtain rfl := Option.some.inj made
      exact distinct.within (fun before => before.assign distinctValue) filled
  | header key =>
      obtain ⟨root, filled, made⟩ := Option.bind_eq_some_iff.mp followed
      obtain rfl := Option.some.inj made
      exact distinct.within (fun before => before.openTable) filled
  | elementHeader key =>
      obtain ⟨root, filled, made⟩ := Option.bind_eq_some_iff.mp followed
      obtain rfl := Option.some.inj made
      exact distinct.within (fun before => before.openElement) filled

/-- No table of a document has a key twice. -/
theorem Table.hasDistinctKeys_of_ofText? {text : List Char} {root : Table}
    (read : Table.ofText? text = some root) : root.HasDistinctKeys := by
  obtain ⟨statements, readStatements, filled⟩ := Option.bind_eq_some_iff.mp read
  obtain ⟨draft, followed, rfl⟩ := Option.map_eq_some_iff.mp filled
  have keeps : ∀ statement ∈ statements, ∀ {before after : Draft},
      before.root.HasDistinctKeys → before.follow statement = some after →
        after.root.HasDistinctKeys := by
    intro statement member before after distinct
    exact Draft.hasDistinctKeys_follow distinct
      (hasDistinctKeys_of_mem_statements? readStatements statement member)
  exact foldlM_preserves keeps .nil followed

end AccessPolicy.Toml
