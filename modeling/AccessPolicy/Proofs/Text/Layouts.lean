import AccessPolicy.Proofs.Text.Entries

/-!
# How entries are written down

The same entries can be written down in many ways: with blanks around each of them, and
with blank parts anywhere between the commas.  These are all the ways there are: a setting
has some entries exactly when it is one of their layouts.
-/

namespace AccessPolicy.Text

/-- Some parts lay out some entries: each entry, in its order, is a part together with
blanks on either side, and the other parts are blank. -/
inductive LaysOut : List String → List String → Prop
  | nil : LaysOut [] []
  | blank {part : String} {parts items : List String} (allBlank : AllBlank part.toList)
      (rest : LaysOut parts items) : LaysOut (part :: parts) items
  | entry {left item right : String} {parts items : List String}
      (blankLeft : AllBlank left.toList) (blankRight : AllBlank right.toList)
      (rest : LaysOut parts items) : LaysOut ((left ++ item ++ right) :: parts) (item :: items)

/-! ## One part -/

theorem comma_not_mem_of_allBlank {blanks : List Char} (allBlank : AllBlank blanks) :
    ',' ∉ blanks := by
  intro member
  exact absurd (allBlank ',' member) (by decide)

theorem entries_of_allBlank {part : String} (allBlank : AllBlank part.toList) :
    entries part = [] := by
  have nothing : trim part.toList = [] := by
    have trimmed := trim_padded allBlank allBlank_nil []
    rwa [List.append_nil, List.append_nil] at trimmed
  rw [entries_of_no_comma (comma_not_mem_of_allBlank allBlank), nothing]
  rfl

/-- Blanks around an entry do not count. -/
theorem entries_of_blanks {left item right : String} (blankLeft : AllBlank left.toList)
    (blankRight : AllBlank right.toList) (isEntry : IsEntry item) :
    entries (left ++ item ++ right) = [item] := by
  have noComma : ',' ∉ (left ++ item ++ right).toList := by
    simp only [String.toList_append, List.mem_append, not_or]
    exact ⟨⟨comma_not_mem_of_allBlank blankLeft, isEntry.2.1⟩,
      comma_not_mem_of_allBlank blankRight⟩
  rw [entries_of_no_comma noComma, String.toList_append, String.toList_append,
    trim_padded blankLeft blankRight, ← entries_of_no_comma isEntry.2.1,
    entries_of_isEntry isEntry]

/-! ## All parts -/

/-- Entries are found again in each of their layouts. -/
theorem LaysOut.entries_listing {parts items : List String} (layout : LaysOut parts items)
    (areEntries : ∀ item ∈ items, IsEntry item) : entries (listing parts) = items := by
  rw [entries_listing_eq_flatMap]
  induction layout with
  | nil => rfl
  | blank allBlank rest ih =>
      rw [List.flatMap_cons, entries_of_allBlank allBlank, ih areEntries, List.nil_append]
  | entry blankLeft blankRight rest ih =>
      rcases List.forall_mem_cons.mp areEntries with ⟨isEntry, areLater⟩
      rw [List.flatMap_cons, entries_of_blanks blankLeft blankRight isEntry, ih areLater,
        List.singleton_append]

/-- Any parts lay out what is left of them when they are trimmed and the blank ones are
dropped. -/
theorem laysOut_trimmed (parts : List (List Char)) :
    LaysOut (parts.map String.ofList)
      (((parts.map trim).filter (!·.isEmpty)).map String.ofList) := by
  induction parts with
  | nil => exact .nil
  | cons part parts ih =>
      rcases exists_padding part with ⟨left, right, blankLeft, blankRight, padded⟩
      rw [List.map_cons, List.map_cons, List.filter_cons]
      split
      · have written : String.ofList part =
            String.ofList left ++ String.ofList (trim part) ++ String.ofList right := by
          rw [← String.ofList_append, ← String.ofList_append, ← padded]
        rw [written]
        exact .entry (by rwa [String.toList_ofList]) (by rwa [String.toList_ofList]) ih
      · rename_i dropped
        have nothing : trim part = [] := by
          simpa using dropped
        rw [nothing, List.append_nil] at padded
        apply LaysOut.blank _ ih
        rw [String.toList_ofList, padded]
        intro c member
        exact (List.mem_append.mp member).elim (blankLeft c) (blankRight c)

/-- Every setting is a layout of its entries. -/
theorem exists_laysOut_entries (setting : String) :
    ∃ parts, LaysOut parts (entries setting) ∧ setting = listing parts := by
  refine ⟨(segments ',' setting.toList).map String.ofList, laysOut_trimmed _, ?_⟩
  have parts : ((segments ',' setting.toList).map String.ofList).map String.toList =
      segments ',' setting.toList := by
    simp
  rw [listing, parts, joined_segments, String.ofList_toList]

/-- Splitting a setting undoes the writing down of entries.

The entries of a setting are the given ones, in their order and with their repetitions,
exactly when these are texts that are not empty, have no comma and no padding, and the
setting is made by joining with commas the parts of one of their layouts: the entries with
any blanks around them and any blank parts anywhere.  The entries of any setting, joined
again without blanks, are read once more as the same entries. -/
theorem entries_eq_iff_laysOut (setting : String) (items : List String) :
    (entries setting = items ↔
        (∀ item ∈ items, item ≠ "" ∧ ',' ∉ item.toList ∧ ¬IsPadded item.toList) ∧
          ∃ parts, LaysOut parts items ∧ setting = listing parts) ∧
      entries (listing (entries setting)) = entries setting := by
  simp only [← isEntry_iff]
  have clean : ∀ item ∈ entries setting, IsEntry item :=
    fun _ member => isEntry_of_mem_entries member
  refine ⟨?_, entries_listing clean⟩
  constructor
  · rintro rfl
    exact ⟨clean, exists_laysOut_entries setting⟩
  · rintro ⟨areEntries, parts, layout, isListing⟩
    rw [isListing]
    exact layout.entries_listing areEntries

/-- Two entries, one of them twice and one with a blank in the middle, between blank parts
and with blanks of several kinds around them. -/
theorem entries_of_layout_with_blanks :
    let items := ["b", "a b", "b"]
    let parts :=
      ["", "\u00a0" ++ "b" ++ " ", "\u3000\t", "" ++ "a b" ++ "\n", "" ++ "b" ++ "", " "]
    (∀ item ∈ items, item ≠ "" ∧ ',' ∉ item.toList ∧ ¬IsPadded item.toList) ∧
      LaysOut parts items ∧
      listing parts = ",\u00a0b ,\u3000\t,a b\n,b, " ∧
      entries ",\u00a0b ,\u3000\t,a b\n,b, " = items := by
  intro items parts
  have areClean :
      ∀ item ∈ items, item ≠ "" ∧ ',' ∉ item.toList ∧ ¬IsPadded item.toList := by
    decide
  have layout : LaysOut parts items := by
    refine .blank ?_ (.entry ?_ ?_ (.blank ?_ (.entry ?_ ?_ (.entry ?_ ?_ (.blank ?_ .nil)))))
    all_goals decide
  refine ⟨areClean, layout, rfl, ?_⟩
  exact (entries_eq_iff_laysOut _ items).1.mpr ⟨areClean, parts, layout, rfl⟩

end AccessPolicy.Text
