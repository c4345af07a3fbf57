import AccessPolicy.Visibility.Policy
import Mathlib.Data.List.Induction

/-!
# Policies made by registrations

Registering is last-write-wins: in a policy made by registrations every level
has the evaluator that was registered for it last.
-/

namespace AccessPolicy.VisibilityPolicy

/-- In a history of entries, `entry` is the one that `level` was given last. -/
def IsLatest {α : Type*} (history : List (Level × α)) (level : Level)
    (entry : α) : Prop :=
  ∃ before after, history = before ++ (level, entry) :: after ∧
    ∀ later ∈ after, later.1 ≠ level

/-- Looking a level up from the end of a history finds its latest entry. -/
theorem lookup_reverse_eq_some_iff {α : Type*} {history : List (Level × α)}
    {level : Level} {entry : α} :
    history.reverse.lookup level = some entry ↔ IsLatest history level entry := by
  rw [List.lookup_eq_some_iff]
  constructor
  · rintro ⟨after, before, reversed, absent⟩
    refine ⟨before.reverse, after.reverse, ?_, ?_⟩
    · have forward := congrArg List.reverse reversed
      simpa using forward
    · intro later member same
      exact absurd same.symm (bne_iff_ne.mp (absent later (List.mem_reverse.mp member)))
  · rintro ⟨before, after, rfl, absent⟩
    refine ⟨after.reverse, before.reverse, by simp, ?_⟩
    intro later member
    exact bne_iff_ne.mpr (absent later (List.mem_reverse.mp member)).symm

/-- Entries changed one by one have the same order of levels. -/
theorem isLatest_map_iff {α β : Type*} {change : α → β} {history : List (Level × α)}
    {level : Level} {entry : β} :
    IsLatest (history.map (Prod.map id change)) level entry ↔
      ∃ original, IsLatest history level original ∧ change original = entry := by
  constructor
  · rintro ⟨before, after, split, absent⟩
    obtain ⟨first, rest, rfl, rfl, mapped⟩ := List.map_eq_append_iff.mp split
    obtain ⟨⟨_, original⟩, last, rfl, changed, rfl⟩ := List.map_eq_cons_iff.mp mapped
    obtain ⟨rfl, rfl⟩ := Prod.mk.inj changed
    refine ⟨original, ⟨first, last, rfl, ?_⟩, rfl⟩
    intro later member
    exact absent (Prod.map id change later) (List.mem_map_of_mem member)
  · rintro ⟨original, ⟨before, after, rfl, absent⟩, rfl⟩
    refine ⟨before.map (Prod.map id change), after.map (Prod.map id change),
      by simp, ?_⟩
    intro later member
    obtain ⟨unchanged, unchangedMember, rfl⟩ := List.mem_map.mp member
    exact absent unchanged unchangedMember

theorem ofRegistrations_append_singleton (earlier : List (Level × Evaluator))
    (level : Level) (evaluator : Evaluator) :
    ofRegistrations (earlier ++ [(level, evaluator)]) =
      (ofRegistrations earlier).register level evaluator := by
  simp only [ofRegistrations, List.foldl_append, List.foldl_cons, List.foldl_nil]

theorem evaluator?_ofRegistrations (registrations : List (Level × Evaluator))
    (level : Level) :
    (ofRegistrations registrations).evaluator? level =
      registrations.reverse.lookup level := by
  induction registrations using List.reverseRecOn with
  | nil => rfl
  | append_singleton earlier last ih =>
      obtain ⟨lastLevel, evaluator⟩ := last
      rw [ofRegistrations_append_singleton, evaluator?_register,
        List.reverse_append, List.reverse_singleton, List.singleton_append,
        List.lookup_cons]
      by_cases same : level = lastLevel
      · rw [if_pos same, beq_iff_eq.mpr same]
      · rw [if_neg same, beq_eq_false_iff_ne.mpr same, ih]

/-- Every level has the evaluator that was registered for it last. -/
theorem evaluator?_ofRegistrations_eq_some_iff
    {registrations : List (Level × Evaluator)} {level : Level}
    {evaluator : Evaluator} :
    (ofRegistrations registrations).evaluator? level = some evaluator ↔
      IsLatest registrations level evaluator := by
  rw [evaluator?_ofRegistrations, lookup_reverse_eq_some_iff]

end AccessPolicy.VisibilityPolicy
