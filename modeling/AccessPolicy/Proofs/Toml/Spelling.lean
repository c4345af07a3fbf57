import AccessPolicy.Proofs.Toml.DistinctKeys
import Mathlib.Data.List.Forall2

/-!
# Values that say the same

A table may be written under a header, by dotted keys or between braces, and its
entries may stand in any order.  Two values that differ only so say the same:
what one of them gives to a key, the other gives to it as well.
-/

namespace AccessPolicy.Toml

/-- Two values say the same if they differ at most in the order in which tables
have their entries, and in the way in which tables are written. -/
inductive Value.SaysSame : Value → Value → Prop
  | same (value : Value) : SaysSame value value
  | array {elements others : List Value} : List.Forall₂ SaysSame elements others →
      SaysSame (.array elements) (.array others)
  | table {value other : Value} {entries reordered otherEntries : Table} :
      value.entries? = some entries → other.entries? = some otherEntries →
      reordered.Perm otherEntries → entries.map Prod.fst = reordered.map Prod.fst →
      List.Forall₂ SaysSame (entries.map Prod.snd) (reordered.map Prod.snd) →
      SaysSame value other
  | tables {earlier otherEarlier : List Table} {latest otherLatest : Table} :
      List.Forall₂ SaysSame ((earlier ++ [latest]).map Value.inlineTable)
        ((otherEarlier ++ [otherLatest]).map Value.inlineTable) →
      SaysSame (.tables earlier latest) (.tables otherEarlier otherLatest)

namespace Value

/-- A value that holds no others. -/
def isScalar : Value → Bool
  | .string _ | .integer _ | .float _ | .boolean _ | .dateTime _ => true
  | _ => false

/-- Scalars say the same only if they are the same. -/
theorem SaysSame.eq_or_not_isScalar {value other : Value} (same : value.SaysSame other) :
    value = other ∨ value.isScalar = false ∧ other.isScalar = false := by
  cases same with
  | same => exact .inl rfl
  | array _ => exact .inr ⟨rfl, rfl⟩
  | table isTable otherIsTable _ _ _ =>
      refine .inr ⟨?_, ?_⟩
      · cases value <;> first | contradiction | rfl
      · cases other <;> first | contradiction | rfl
  | tables _ => exact .inr ⟨rfl, rfl⟩

end Value

theorem rel_getElem? {α β : Type} {relation : α → β → Prop} {entries : List α}
    {others : List β} (related : List.Forall₂ relation entries others) (index : Nat) :
    Option.Rel relation entries[index]? others[index]? := by
  induction related generalizing index with
  | nil => exact .none
  | cons first _ ih =>
      cases index with
      | zero => exact .some first
      | succ index => exact ih index

namespace Table

variable {entries reordered others : Table}

/-- A choice of keys leaves what is looked up under the chosen ones. -/
theorem lookup_filter {choice : String → Bool} {key : String} (chosen : choice key = true)
    (table : Table) :
    (table.filter fun entry => choice entry.1).lookup key = table.lookup key := by
  induction table with
  | nil => rfl
  | cons entry rest ih =>
      rw [List.filter_cons]
      by_cases same : key = entry.1
      · subst same
        rw [if_pos chosen, List.lookup_cons_self, List.lookup_cons_self]
      · have other : (key == entry.1) = false := beq_eq_false_iff_ne.mpr same
        split
        · rw [List.lookup_cons, List.lookup_cons, other, ih]
        · rw [List.lookup_cons, other, ih]

theorem lookup_map_snd (change : Value → Value) (key : String) (table : Table) :
    (table.map fun entry => (entry.1, change entry.2)).lookup key =
      (table.lookup key).map change := by
  induction table with
  | nil => rfl
  | cons entry rest ih =>
      rw [List.map_cons, List.lookup_cons, List.lookup_cons, ih]
      cases key == entry.1 <;> rfl

theorem rel_lookup_of_aligned {relation : Value → Value → Prop}
    (sameKeys : entries.map Prod.fst = reordered.map Prod.fst)
    (related : List.Forall₂ relation (entries.map Prod.snd) (reordered.map Prod.snd))
    (key : String) : Option.Rel relation (entries.lookup key) (reordered.lookup key) := by
  induction entries generalizing reordered with
  | nil =>
      obtain rfl := List.map_eq_nil_iff.mp sameKeys.symm
      exact .none
  | cons entry rest ih =>
      obtain ⟨other, otherRest, rfl, sameKey, sameRest⟩ := List.map_eq_cons_iff.mp sameKeys.symm
      obtain ⟨relatedFirst, relatedRest⟩ := List.forall₂_cons.mp related
      rw [List.lookup_cons, List.lookup_cons, sameKey]
      cases key == entry.1 with
      | true => exact .some relatedFirst
      | false => exact ih sameRest.symm relatedRest

/-- Tables that say the same give the same to every key. -/
theorem rel_lookup {relation : Value → Value → Prop} (distinct : others.HasDistinctKeys)
    (reorders : reordered.Perm others)
    (sameKeys : entries.map Prod.fst = reordered.map Prod.fst)
    (related : List.Forall₂ relation (entries.map Prod.snd) (reordered.map Prod.snd))
    (key : String) : Option.Rel relation (entries.lookup key) (others.lookup key) := by
  have sameLookup : others.lookup key = reordered.lookup key :=
    lookup_eq_of_perm distinct.nodup reorders.symm key
  rw [sameLookup]
  exact rel_lookup_of_aligned sameKeys related key

end Table

end AccessPolicy.Toml
