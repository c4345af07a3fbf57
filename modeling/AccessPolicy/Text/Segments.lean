/-!
# Segments of a text

A text cut at every occurrence of one separating character.  The cut is over
lists of characters, so that it can be followed by induction; `joined` puts the
segments back together, and the two are inverse to each other in both
directions as soon as no segment holds the separator.
-/

namespace AccessPolicy.Text

/-- Put one character in front of the first of some segments. -/
def consFirst (c : Char) : List (List Char) → List (List Char)
  | [] => [[c]]
  | first :: others => (c :: first) :: others

/-- The segments between the occurrences of `separator`, empty ones included.
A text without the separator is its own single segment. -/
def segments (separator : Char) : List Char → List (List Char)
  | [] => [[]]
  | c :: rest =>
      if c = separator then [] :: segments separator rest
      else consFirst c (segments separator rest)

/-- The segments written one after the other, the separator between them. -/
def joined (separator : Char) (parts : List (List Char)) : List Char :=
  List.intercalate [separator] parts

@[simp]
theorem segments_nil (separator : Char) : segments separator [] = [[]] :=
  rfl

@[simp]
theorem segments_cons_separator (separator : Char) (rest : List Char) :
    segments separator (separator :: rest) = [] :: segments separator rest := by
  simp [segments]

theorem segments_cons_of_ne {separator c : Char} (different : c ≠ separator)
    (rest : List Char) :
    segments separator (c :: rest) =
      consFirst c (segments separator rest) := by
  simp [segments, different]

/-- There is always a first segment. -/
theorem segments_ne_nil (separator : Char) (text : List Char) :
    segments separator text ≠ [] := by
  cases text with
  | nil => simp
  | cons c rest =>
      simp only [segments]
      split
      · simp
      · cases segments separator rest <;> simp [consFirst]

/-- A text without the separator is its only segment. -/
theorem segments_of_not_mem {separator : Char} {text : List Char}
    (absent : separator ∉ text) : segments separator text = [text] := by
  induction text with
  | nil => rfl
  | cons c rest ih =>
      simp only [List.mem_cons, not_or] at absent
      rw [segments_cons_of_ne (Ne.symm absent.1), ih absent.2]
      rfl

/-- The first separator ends the first segment. -/
theorem segments_append_cons {separator : Char} {first : List Char}
    (absent : separator ∉ first) (rest : List Char) :
    segments separator (first ++ separator :: rest) =
      first :: segments separator rest := by
  induction first with
  | nil => simp
  | cons c others ih =>
      simp only [List.mem_cons, not_or] at absent
      rw [List.cons_append, segments_cons_of_ne (Ne.symm absent.1),
        ih absent.2]
      rfl

@[simp]
theorem joined_nil (separator : Char) : joined separator [] = [] :=
  rfl

@[simp]
theorem joined_singleton (separator : Char) (part : List Char) :
    joined separator [part] = part := by
  simp [joined]

@[simp]
theorem joined_cons_cons (separator : Char) (first second : List Char)
    (rest : List (List Char)) :
    joined separator (first :: second :: rest) =
      first ++ separator :: joined separator (second :: rest) := by
  simp [joined, List.intercalate]

/-- A joined text begins with its first part, and every other part is behind a
separator. -/
theorem joined_cons (separator : Char) (first : List Char) (rest : List (List Char)) :
    joined separator (first :: rest) = first ++ rest.flatMap (separator :: ·) := by
  induction rest generalizing first with
  | nil => simp
  | cons second others inductionHypothesis =>
      rw [joined_cons_cons, inductionHypothesis, List.flatMap_cons, List.cons_append]

/-- A joined text holds the separator and what is in its parts. -/
theorem eq_or_mem_of_mem_joined {separator c : Char} {parts : List (List Char)}
    (member : c ∈ joined separator parts) : c = separator ∨ ∃ part ∈ parts, c ∈ part := by
  cases parts with
  | nil => contradiction
  | cons first rest =>
      rw [joined_cons, List.mem_append, List.mem_flatMap] at member
      rcases member with inFirst | ⟨part, isPart, inPart⟩
      · exact .inr ⟨first, List.mem_cons_self, inFirst⟩
      · exact (List.mem_cons.mp inPart).imp_right fun inPart =>
          ⟨part, List.mem_cons_of_mem first isPart, inPart⟩

/-- Parts without the separator are found again in their joined text. -/
theorem segments_joined {separator : Char} {parts : List (List Char)}
    (some_part : parts ≠ []) (absent : ∀ part ∈ parts, separator ∉ part) :
    segments separator (joined separator parts) = parts := by
  induction parts with
  | nil => exact absurd rfl some_part
  | cons first rest inductionHypothesis =>
      cases rest with
      | nil =>
          rw [joined_singleton, segments_of_not_mem (absent first (by simp))]
      | cons second rest =>
          rw [joined_cons_cons, segments_append_cons (absent first (by simp)),
            inductionHypothesis (by simp)
              fun part member => absent part (List.mem_cons_of_mem _ member)]

theorem joined_consFirst (separator c : Char) {parts : List (List Char)}
    (some_part : parts ≠ []) :
    joined separator (consFirst c parts) = c :: joined separator parts := by
  cases parts with
  | nil => exact absurd rfl some_part
  | cons first rest => cases rest <;> simp [consFirst]

/-- Every text is the joined text of its segments. -/
theorem joined_segments (separator : Char) (text : List Char) :
    joined separator (segments separator text) = text := by
  induction text with
  | nil => simp
  | cons c rest inductionHypothesis =>
      by_cases equal : c = separator
      · subst equal
        rw [segments_cons_separator]
        cases h : segments c rest with
        | nil => exact absurd h (segments_ne_nil c rest)
        | cons first others =>
            rw [joined_cons_cons, ← h, inductionHypothesis, List.nil_append]
      · rw [segments_cons_of_ne equal,
          joined_consFirst separator c (segments_ne_nil separator rest),
          inductionHypothesis]

/-- No segment holds the separator. -/
theorem not_mem_of_mem_segments {separator : Char} {text part : List Char}
    (member : part ∈ segments separator text) : separator ∉ part := by
  induction text generalizing part with
  | nil => simp_all
  | cons c rest inductionHypothesis =>
      by_cases equal : c = separator
      · subst equal
        rw [segments_cons_separator, List.mem_cons] at member
        rcases member with rfl | member
        · simp
        · exact inductionHypothesis member
      · rw [segments_cons_of_ne equal] at member
        cases h : segments separator rest with
        | nil => exact absurd h (segments_ne_nil separator rest)
        | cons first others =>
            rw [h] at member inductionHypothesis
            simp only [consFirst, List.mem_cons] at member
            rcases member with rfl | member
            · have := @inductionHypothesis first (by simp)
              simp [this, Ne.symm equal]
            · exact inductionHypothesis (by simp [member])

end AccessPolicy.Text
