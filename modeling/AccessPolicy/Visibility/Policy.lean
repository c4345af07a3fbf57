import AccessPolicy.Visibility.Evaluator

/-!
# Visibility policies

A visibility policy gives an evaluator to some of the levels.  Registering an
evaluator for a level replaces the one that the level had.
-/

namespace AccessPolicy

/-- How a level is shown. -/
def Level.description (level : Level) : String :=
  String.join ["SecurityLevel(", toString level.rank.toNat, ")"]

/-- The evaluator of each level that has one. -/
structure VisibilityPolicy where
  evaluator? : Level → Option Evaluator

namespace VisibilityPolicy

/-- The policy that knows no level. -/
def empty : VisibilityPolicy where
  evaluator? := fun _ => none

/-- Give an evaluator to a level. -/
def register (policy : VisibilityPolicy) (level : Level)
    (evaluator : Evaluator) : VisibilityPolicy where
  evaluator? := fun other =>
    if other = level then some evaluator else policy.evaluator? other

/-- The policy made by registrations in their order. -/
def ofRegistrations (registrations : List (Level × Evaluator)) :
    VisibilityPolicy :=
  registrations.foldl (fun policy (level, evaluator) =>
    policy.register level evaluator) empty

/-- The levels that have an evaluator, in ascending order. -/
def levels (policy : VisibilityPolicy) : List Level :=
  Level.all.filter fun level => (policy.evaluator? level).isSome

theorem mem_levels_iff {policy : VisibilityPolicy} {level : Level} :
    level ∈ policy.levels ↔ (policy.evaluator? level).isSome = true := by
  rw [levels, List.mem_filter]
  exact and_iff_right level.mem_all

theorem pairwise_levels (policy : VisibilityPolicy) :
    policy.levels.Pairwise fun lower higher =>
      lower.rank.toNat < higher.rank.toNat :=
  Level.pairwise_all.filter _

/-- How a policy is shown: by its levels. -/
def description (policy : VisibilityPolicy) : String :=
  String.join ["VisibilityPolicy \x7b levels: [",
    ", ".intercalate (policy.levels.map Level.description), "] \x7d"]

@[simp]
theorem evaluator?_empty (level : Level) : empty.evaluator? level = none :=
  rfl

@[simp]
theorem evaluator?_register (policy : VisibilityPolicy) (level other : Level)
    (evaluator : Evaluator) :
    (policy.register level evaluator).evaluator? other =
      if other = level then some evaluator else policy.evaluator? other :=
  rfl

theorem evaluator?_register_of_ne {level other : Level}
    (different : other ≠ level) (policy : VisibilityPolicy)
    (evaluator : Evaluator) :
    (policy.register level evaluator).evaluator? other =
      policy.evaluator? other := by
  simp [different]

end VisibilityPolicy

end AccessPolicy
