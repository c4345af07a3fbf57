import AccessPolicy.Text.Entries

/-!
# What a setting lists

The entries of a setting are found by cutting, trimming and dropping.  Here
they are described by what stands in the setting: an entry is a text without
commas and without blanks at its ends that stands, perhaps among blanks,
between two commas or the ends of the setting.
-/

namespace AccessPolicy.Text

/-! ## Trimming -/

/-- All characters of a text are blank. -/
def AllBlank (text : List Char) : Prop :=
  ∀ c ∈ text, isBlank c = true

instance (text : List Char) : Decidable (AllBlank text) :=
  decidable_of_iff (text.all isBlank = true) List.all_eq_true

theorem allBlank_nil : AllBlank [] := by
  intro c member
  contradiction

theorem allBlank_singleton {c : Char} (blank : isBlank c = true) : AllBlank [c] := by
  intro other member
  rwa [List.mem_singleton.mp member]

theorem trimEnd_append_blank {blanks : List Char} (allBlank : AllBlank blanks)
    (text : List Char) : trimEnd (text ++ blanks) = trimEnd text := by
  have reversed : ∀ c ∈ blanks.reverse, isBlank c = true := by
    intro c member
    exact allBlank c (List.mem_reverse.mp member)
  rw [trimEnd, List.reverse_append, List.dropWhile_append_of_pos reversed, trimEnd]

theorem trimEnd_of_allBlank {blanks : List Char} (allBlank : AllBlank blanks) :
    trimEnd blanks = [] :=
  trimEnd_append_blank allBlank []

/-- Blanks around a text are trimmed away with it. -/
theorem trim_padded {left right : List Char} (blankLeft : AllBlank left)
    (blankRight : AllBlank right) (core : List Char) :
    trim (left ++ core ++ right) = trim core := by
  rw [trim, List.append_assoc, List.dropWhile_append_of_pos blankLeft,
    List.dropWhile_append]
  split
  · rename_i allBlank
    have nothing := List.isEmpty_iff.mp allBlank
    have blankRest : AllBlank (right.dropWhile isBlank) := fun c member =>
      blankRight c (List.dropWhile_subset isBlank member)
    rw [trim, nothing, trimEnd_of_allBlank blankRest]
    rfl
  · exact trimEnd_append_blank blankRight _

/-- Only blanks are trimmed away. -/
theorem exists_padding (text : List Char) :
    ∃ left right, AllBlank left ∧ AllBlank right ∧
      text = left ++ trim text ++ right := by
  refine ⟨text.takeWhile isBlank,
    ((text.dropWhile isBlank).reverse.takeWhile isBlank).reverse, ?_, ?_, ?_⟩
  · intro c member
    exact List.all_eq_true.mp List.all_takeWhile c member
  · intro c member
    exact List.all_eq_true.mp List.all_takeWhile c (List.mem_reverse.mp member)
  · rw [trim, trimEnd, List.append_assoc, ← List.reverse_append,
      List.takeWhile_append_dropWhile, List.reverse_reverse,
      List.takeWhile_append_dropWhile]

theorem trim_trim (text : List Char) : trim (trim text) = trim text := by
  obtain ⟨left, right, blankLeft, blankRight, padded⟩ := exists_padding text
  calc
    trim (trim text) = trim (left ++ trim text ++ right) :=
      (trim_padded blankLeft blankRight _).symm
    _ = trim text := by rw [← padded]

theorem length_trim_le (text : List Char) : (trim text).length ≤ text.length := by
  rcases exists_padding text with ⟨left, right, -, -, padded⟩
  have lengths := congrArg List.length padded
  simp only [List.length_append] at lengths
  omega

/-! ## Padding -/

/-- A text begins or ends with a blank. -/
def IsPadded (text : List Char) : Prop :=
  (∃ c rest, isBlank c = true ∧ text = c :: rest) ∨
    ∃ rest c, isBlank c = true ∧ text = rest ++ [c]

/-- A text has padding when something is between blanks, on one side at least. -/
theorem isPadded_iff {text : List Char} :
    IsPadded text ↔ ∃ left core right, AllBlank left ∧ AllBlank right ∧
      (left ≠ [] ∨ right ≠ []) ∧ text = left ++ core ++ right := by
  constructor
  · rintro (⟨c, rest, blank, rfl⟩ | ⟨rest, c, blank, rfl⟩)
    · exact ⟨[c], rest, [], allBlank_singleton blank, allBlank_nil, by simp, by simp⟩
    · exact ⟨[], rest, [c], allBlank_nil, allBlank_singleton blank, by simp, by simp⟩
  · rintro ⟨left, core, right, blankLeft, blankRight, nonempty | nonempty, rfl⟩
    · rcases List.exists_cons_of_ne_nil nonempty with ⟨c, rest, rfl⟩
      exact .inl ⟨c, rest ++ core ++ right, blankLeft c List.mem_cons_self, by simp⟩
    · rcases (List.eq_nil_or_concat right).resolve_left nonempty with ⟨rest, c, rfl⟩
      exact .inr ⟨left ++ core ++ rest, c, blankRight c (by simp), by simp⟩

/-- Trimming a text with padding makes it shorter. -/
theorem IsPadded.trim_ne_self {text : List Char} (padded : IsPadded text) :
    trim text ≠ text := by
  rcases isPadded_iff.mp padded with ⟨left, core, right, blankLeft, blankRight, some_blank, rfl⟩
  intro trimmed
  have lengths := congrArg List.length trimmed
  have shorter := length_trim_le core
  simp only [trim_padded blankLeft blankRight, List.length_append] at lengths
  rw [← List.length_pos_iff, ← List.length_pos_iff] at some_blank
  omega

/-- Nothing is trimmed from a text exactly when it has no padding. -/
theorem trim_eq_self_iff {text : List Char} : trim text = text ↔ ¬IsPadded text := by
  constructor
  · intro trimmed padded
    exact padded.trim_ne_self trimmed
  · intro unpadded
    rcases exists_padding text with ⟨left, right, blankLeft, blankRight, padded⟩
    have noBlanks : ¬(left ≠ [] ∨ right ≠ []) := by
      intro some_blank
      exact unpadded
        (isPadded_iff.mpr ⟨left, trim text, right, blankLeft, blankRight, some_blank, padded⟩)
    simp only [ne_eq, not_or, Classical.not_not] at noBlanks
    rw [noBlanks.1, noBlanks.2, List.nil_append, List.append_nil] at padded
    exact padded.symm

instance (text : List Char) : Decidable (IsPadded text) :=
  decidable_of_iff (¬trim text = text) ((not_congr trim_eq_self_iff).trans Classical.not_not)

/-- A text without blanks has nothing to be trimmed. -/
theorem trim_of_no_blank {text : List Char} (noBlank : ∀ c ∈ text, isBlank c = false) :
    trim text = text := by
  apply trim_eq_self_iff.mpr
  rintro (⟨c, rest, blank, rfl⟩ | ⟨rest, c, blank, rfl⟩)
  · rw [noBlank c List.mem_cons_self] at blank
    contradiction
  · rw [noBlank c (by simp)] at blank
    contradiction

/-! ## Segments -/

/-- A part of a text that holds no separator and has one, or an end of the
text, on either side. -/
def StandsBetween (separator : Char) (text part : List Char) : Prop :=
  separator ∉ part ∧ ∃ before after, text = before ++ part ++ after ∧
    (before = [] ∨ ∃ start, before = start ++ [separator]) ∧
    (after = [] ∨ ∃ rest, after = separator :: rest)

/-- Texts with a separator between them are cut independently. -/
theorem segments_append_separator (separator : Char) (first second : List Char) :
    segments separator (first ++ separator :: second) =
      segments separator first ++ segments separator second := by
  induction first with
  | nil => simp
  | cons c rest ih =>
      by_cases equal : c = separator
      · subst equal
        rw [List.cons_append, segments_cons_separator, segments_cons_separator, ih,
          List.cons_append]
      · rw [List.cons_append, segments_cons_of_ne equal, segments_cons_of_ne equal, ih]
        cases h : segments separator rest with
        | nil => exact absurd h (segments_ne_nil separator rest)
        | cons head others => rfl

/-- The segments of a joined text are those of its parts, one part after the
other. -/
theorem segments_joined_eq_flatMap {separator : Char} {parts : List (List Char)}
    (some_part : parts ≠ []) :
    segments separator (joined separator parts) = parts.flatMap (segments separator) := by
  induction parts with
  | nil => exact absurd rfl some_part
  | cons first rest ih =>
      cases rest with
      | nil => rw [joined_singleton, List.flatMap_cons, List.flatMap_nil, List.append_nil]
      | cons second others =>
          rw [joined_cons_cons, segments_append_separator, ih (by simp)]
          exact List.flatMap_cons.symm

theorem standsBetween_joined {separator : Char} {parts : List (List Char)}
    (absent : ∀ part ∈ parts, separator ∉ part) {part : List Char}
    (member : part ∈ parts) : StandsBetween separator (joined separator parts) part := by
  refine ⟨absent part member, ?_⟩
  induction parts with
  | nil => contradiction
  | cons first rest ih =>
      cases rest with
      | nil =>
          obtain rfl := List.mem_singleton.mp member
          exact ⟨[], [], by simp, .inl rfl, .inl rfl⟩
      | cons second others =>
          rw [joined_cons_cons]
          rcases List.mem_cons.mp member with rfl | later
          · exact ⟨[], _, rfl, .inl rfl, .inr ⟨_, rfl⟩⟩
          · obtain ⟨before, after, split, boundedBefore, boundedAfter⟩ :=
              ih (fun part member => absent part (List.mem_cons_of_mem first member))
                later
            refine ⟨first ++ separator :: before, after, by simp [split], .inr ?_,
              boundedAfter⟩
            rcases boundedBefore with rfl | ⟨start, rfl⟩
            · exact ⟨first, rfl⟩
            · exact ⟨first ++ separator :: start, by simp⟩

/-- The segments of a text are the parts that stand between its separators. -/
theorem mem_segments_iff {separator : Char} {text part : List Char} :
    part ∈ segments separator text ↔ StandsBetween separator text part := by
  constructor
  · intro member
    have absent : ∀ other ∈ segments separator text, separator ∉ other := by
      intro other otherMember
      exact not_mem_of_mem_segments otherMember
    have between := standsBetween_joined absent member
    rwa [joined_segments] at between
  · rintro ⟨absent, before, after, rfl, boundedBefore, boundedAfter⟩
    have member : part ∈ segments separator (part ++ after) := by
      rcases boundedAfter with rfl | ⟨rest, rfl⟩
      · rw [List.append_nil, segments_of_not_mem absent]
        exact List.mem_singleton_self part
      · rw [segments_append_cons absent]
        exact List.mem_cons_self
    rcases boundedBefore with rfl | ⟨start, rfl⟩
    · exact member
    · rw [List.append_assoc, List.append_assoc, List.singleton_append,
        segments_append_separator]
      exact List.mem_append_right _ member

/-! ## Entries -/

/-- A setting lists a text when the text stands between its commas with nothing
but blanks around it. -/
def Lists (setting text : String) : Prop :=
  IsEntry text ∧ ∃ left right, AllBlank left ∧ AllBlank right ∧
    StandsBetween ',' setting.toList (left ++ text.toList ++ right)

/-- The entries of a setting are the texts that it lists. -/
theorem mem_entries_iff {setting text : String} :
    text ∈ entries setting ↔ Lists setting text := by
  simp only [entries, List.mem_map, List.mem_filter, Bool.not_eq_eq_eq_not,
    Bool.not_true, List.isEmpty_eq_false_iff]
  constructor
  · rintro ⟨_, ⟨⟨part, member, rfl⟩, nonempty⟩, rfl⟩
    obtain ⟨left, right, blankLeft, blankRight, padded⟩ := exists_padding part
    refine ⟨⟨?_, ?_, ?_⟩, left, right, blankLeft, blankRight, ?_⟩
    · rwa [ne_eq, String.ofList_eq_empty_iff]
    · have absent := not_mem_of_mem_segments member
      rw [padded] at absent
      simp only [List.mem_append, not_or] at absent
      rw [String.toList_ofList]
      exact absent.1.2
    · rw [String.toList_ofList, trim_trim]
    · rw [String.toList_ofList, ← padded]
      exact mem_segments_iff.mp member
  · rintro ⟨⟨nonempty, -, trimmed⟩, left, right, blankLeft, blankRight, between⟩
    refine ⟨text.toList, ⟨⟨_, mem_segments_iff.mpr between, ?_⟩, ?_⟩,
      String.ofList_toList⟩
    · rw [trim_padded blankLeft blankRight, trimmed]
    · rwa [ne_eq, String.toList_eq_nil_iff]

/-- The entries of two settings with a comma between them are those of the first and
then those of the second. -/
theorem entries_append_comma (first second : String) :
    entries (first ++ "," ++ second) = entries first ++ entries second := by
  have written : (first ++ "," ++ second).toList = first.toList ++ ',' :: second.toList := by
    simp
  rw [entries, written, segments_append_separator, List.map_append, List.filter_append,
    List.map_append, entries, entries]

theorem isEntry_of_mem_entries {setting text : String} (member : text ∈ entries setting) :
    IsEntry text :=
  (mem_entries_iff.mp member).1

theorem isEntry_iff {text : String} :
    IsEntry text ↔ text ≠ "" ∧ ',' ∉ text.toList ∧ ¬IsPadded text.toList := by
  rw [IsEntry, trim_eq_self_iff]

/-- A text of plain characters stands for itself when it is listed. -/
theorem isEntry_ofList {text : List Char} (nonempty : text ≠ [])
    (plain : ∀ c ∈ text, c ≠ ',' ∧ isBlank c = false) : IsEntry (String.ofList text) := by
  refine ⟨?_, ?_, ?_⟩
  · rwa [ne_eq, String.ofList_eq_empty_iff]
  · rw [String.toList_ofList]
    intro member
    exact (plain ',' member).1 rfl
  · rw [String.toList_ofList]
    exact trim_of_no_blank fun c member => (plain c member).2

/-! ## Listings -/

/-- The entries of a listing are those of its parts, one part after the other. -/
theorem entries_listing_eq_flatMap (parts : List String) :
    entries (listing parts) = parts.flatMap entries := by
  cases parts with
  | nil => rfl
  | cons first rest =>
      rw [entries, listing, String.toList_ofList, segments_joined_eq_flatMap (by simp)]
      simp only [List.flatMap_map, List.map_flatMap, List.filter_flatMap]
      rfl

/-- A part without a comma is trimmed, and counts unless it is blank. -/
theorem entries_of_no_comma {part : String} (noComma : ',' ∉ part.toList) :
    entries part = ([trim part.toList].filter (!·.isEmpty)).map String.ofList := by
  rw [entries, segments_of_not_mem noComma, List.map_singleton]

theorem entries_of_isEntry {item : String} (isEntry : IsEntry item) : entries item = [item] := by
  rcases isEntry with ⟨nonempty, noComma, trimmed⟩
  rw [entries_of_no_comma noComma, trimmed]
  simp [nonempty]

/-- Entries are found again in the setting that lists them, in their order and
as often as they are listed. -/
theorem entries_listing {items : List String} (areEntries : ∀ item ∈ items, IsEntry item) :
    entries (listing items) = items := by
  rw [entries_listing_eq_flatMap]
  induction items with
  | nil => rfl
  | cons first rest ih =>
      rcases List.forall_mem_cons.mp areEntries with ⟨isEntry, areLater⟩
      rw [List.flatMap_cons, entries_of_isEntry isEntry, ih areLater, List.singleton_append]

end AccessPolicy.Text
