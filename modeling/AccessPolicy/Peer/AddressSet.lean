/-!
# Sets of address texts

A set of texts is kept as a list in strictly ascending order, so that two sets
with the same members are equal.
-/

namespace AccessPolicy

/-- Put a text into its place in an ascending list, unless it is there. -/
def insertAscending (text : String) : List String → List String
  | [] => [text]
  | first :: rest =>
      if text < first then text :: first :: rest
      else if text = first then first :: rest
      else first :: insertAscending text rest

@[simp]
theorem mem_insertAscending_iff {text other : String} {texts : List String} :
    other ∈ insertAscending text texts ↔ other = text ∨ other ∈ texts := by
  induction texts with
  | nil => simp [insertAscending]
  | cons first rest ih =>
      simp only [insertAscending]
      split
      · simp
      · split
        · rename_i equal
          simp [equal]
        · simp only [List.mem_cons, ih]
          constructor <;> rintro (h | h | h) <;> simp [h]

/-- Insertion keeps the order strict. -/
theorem pairwise_insertAscending {text : String} {texts : List String}
    (ascending : texts.Pairwise (· < ·)) :
    (insertAscending text texts).Pairwise (· < ·) := by
  induction texts with
  | nil => simp [insertAscending]
  | cons first rest ih =>
      simp only [insertAscending]
      split
      · rename_i less
        simp only [List.pairwise_cons] at ascending ⊢
        refine ⟨?_, ascending⟩
        intro other member
        rcases List.mem_cons.mp member with rfl | member
        · exact less
        · exact String.lt_trans less (ascending.1 other member)
      · split
        · exact ascending
        · rename_i notLess different
          have greater : first < text := by
            rcases Decidable.em (first < text) with h | h
            · exact h
            · exact absurd (String.le_antisymm (String.not_lt.mp h)
                (String.not_lt.mp notLess)) different
          simp only [List.pairwise_cons] at ascending ⊢
          refine ⟨?_, ih ascending.2⟩
          intro other member
          rcases mem_insertAscending_iff.mp member with rfl | member
          · exact greater
          · exact ascending.1 other member

/-- Ascending lists with the same members are equal. -/
theorem eq_of_pairwise_lt {first second : List String}
    (firstAscending : first.Pairwise (· < ·))
    (secondAscending : second.Pairwise (· < ·))
    (members : ∀ text, text ∈ first ↔ text ∈ second) : first = second := by
  induction first generalizing second with
  | nil =>
      cases second with
      | nil => rfl
      | cons head rest => exact absurd ((members head).mpr (by simp)) (by simp)
  | cons head rest inductionHypothesis =>
      cases second with
      | nil => exact absurd ((members head).mp (by simp)) (by simp)
      | cons other others =>
          rw [List.pairwise_cons] at firstAscending secondAscending
          have same : head = other := by
            rcases List.mem_cons.mp ((members head).mp (by simp)) with h | h
            · exact h
            · rcases List.mem_cons.mp ((members other).mpr (by simp)) with k | k
              · exact k.symm
              · exact absurd (firstAscending.1 other k)
                  (String.lt_asymm (secondAscending.1 head h))
          subst same
          congr 1
          refine inductionHypothesis firstAscending.2 secondAscending.2 ?_
          intro text
          have equivalent := members text
          simp only [List.mem_cons] at equivalent
          constructor
          · intro member
            rcases equivalent.mp (.inr member) with rfl | h
            · exact absurd (firstAscending.1 text member)
                (String.lt_irrefl text)
            · exact h
          · intro member
            rcases equivalent.mpr (.inr member) with rfl | h
            · exact absurd (secondAscending.1 text member)
                (String.lt_irrefl text)
            · exact h

/-- A finite set of address texts. -/
structure AddressSet where
  /-- The members, each once. -/
  toList : List String
  ascending : toList.Pairwise (· < ·)
  deriving DecidableEq, Repr

namespace AddressSet

def empty : AddressSet where
  toList := []
  ascending := .nil

def insert (set : AddressSet) (text : String) : AddressSet where
  toList := insertAscending text set.toList
  ascending := pairwise_insertAscending set.ascending

/-- The set of the texts of a list. -/
def ofList (texts : List String) : AddressSet :=
  texts.foldl insert empty

def contains (set : AddressSet) (text : String) : Bool :=
  set.toList.contains text

def size (set : AddressSet) : Nat :=
  set.toList.length

def isEmpty (set : AddressSet) : Bool :=
  set.toList.isEmpty

@[simp]
theorem contains_empty (text : String) : empty.contains text = false :=
  rfl

@[simp]
theorem contains_insert_iff {set : AddressSet} {text other : String} :
    (set.insert text).contains other = true ↔
      other = text ∨ set.contains other = true := by
  simp [contains, insert]

theorem contains_iff_mem {set : AddressSet} {text : String} :
    set.contains text = true ↔ text ∈ set.toList := by
  simp [contains]

/-- Sets with the same members are equal. -/
@[ext]
theorem ext {first second : AddressSet}
    (members : ∀ text, first.contains text = second.contains text) :
    first = second := by
  have same : first.toList = second.toList := by
    refine eq_of_pairwise_lt first.ascending second.ascending fun text => ?_
    rw [← contains_iff_mem, ← contains_iff_mem, members text]
  cases first
  cases second
  cases same
  rfl

theorem contains_foldl_insert_iff {set : AddressSet} {texts : List String}
    {other : String} :
    (texts.foldl insert set).contains other = true ↔
      other ∈ texts ∨ set.contains other = true := by
  induction texts generalizing set with
  | nil => simp
  | cons first rest inductionHypothesis =>
      rw [List.foldl_cons, inductionHypothesis, contains_insert_iff,
        List.mem_cons]
      constructor
      · rintro (h | h | h) <;> simp [h]
      · rintro ((h | h) | h) <;> simp [h]

/-- The set of a list has the members of the list. -/
@[simp]
theorem contains_ofList_iff {texts : List String} {text : String} :
    (ofList texts).contains text = true ↔ text ∈ texts := by
  simp [ofList, contains_foldl_insert_iff]

end AddressSet

end AccessPolicy
