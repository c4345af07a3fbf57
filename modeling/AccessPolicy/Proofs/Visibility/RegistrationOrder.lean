import AccessPolicy.Proofs.Visibility.Isolation
import AccessPolicy.Proofs.Visibility.Registrations

/-!
# The order of registrations

What a policy does follows from the evaluator that each level was given last.
Neither the order in which different levels were registered nor what a level was
given before leaves a trace: all walks made with the policy, one after the
other, show the same values, hold the same consultations and fail with the same
errors.  The level of everyone does not even matter with the evaluator it was
given last, since it is never asked.

A policy is shown by its levels, and these are the registered ones in ascending
order.
-/

namespace AccessPolicy

/-- What is told of a walk: its result, and the consultations it has held. -/
def Visibility.told (outcome : Visibility) :
    Except AccessError (List IndexedValue) × List Consultation :=
  (outcome.result, outcome.trace)

namespace VisibilityPolicy

variable {first second policy : VisibilityPolicy} {level : Level}
  {registrations : List (Level × Evaluator)}

/-- Two policies behave alike when the same is told of all walks that are made
with either of them in turn. -/
def BehavesAs (first second : VisibilityPolicy) : Prop :=
  ∀ walks : List (Option Principal × Item),
    (first.visibleEach walks).map Visibility.told =
      (second.visibleEach walks).map Visibility.told

theorem BehavesAs.refl (policy : VisibilityPolicy) : policy.BehavesAs policy :=
  fun _ => rfl

/-- After a walk, two policies that agree apart from the level of everyone still
do. -/
theorem AgreesApartFrom.policy_visible_of_everyone
    (agree : first.AgreesApartFrom Level.everyone second) (principal : Option Principal)
    (item : Item) :
    (first.visible principal item).policy.AgreesApartFrom Level.everyone
      (second.visible principal item).policy := by
  have sameTrace := (agree.visible_of_everyone principal item).1
  rw [policy_visible, policy_visible]
  apply agree.after
  rw [sameTrace]

/-- The evaluator of the level of everyone plays no part in any walk. -/
theorem AgreesApartFrom.behavesAs_of_everyone
    (agree : first.AgreesApartFrom Level.everyone second) : first.BehavesAs second := by
  intro walks
  induction walks generalizing first second with
  | nil => rfl
  | cons walk others ih =>
      rcases walk with ⟨principal, item⟩
      rcases agree.visible_of_everyone principal item with ⟨sameTrace, sameResult⟩
      have later := ih (agree.policy_visible_of_everyone principal item)
      simp only [visibleEach, List.map_cons, Visibility.told, sameTrace, sameResult]
      rw [later]

/-! ## Registrations in another order -/

theorem eq_of_evaluator? (same : ∀ level, first.evaluator? level = second.evaluator? level) :
    first = second :=
  congrArg mk (funext same)

/-- The registrations of two levels may change places. -/
theorem register_comm {level other : Level} (different : level ≠ other)
    (policy : VisibilityPolicy) (evaluator another : Evaluator) :
    (policy.register level evaluator).register other another =
      (policy.register other another).register level evaluator := by
  apply eq_of_evaluator?
  intro asked
  simp only [evaluator?_register]
  by_cases atLevel : asked = level
  · rw [if_pos atLevel, if_pos atLevel, if_neg (atLevel ▸ different)]
  · rw [if_neg atLevel, if_neg atLevel]

theorem ofRegistrations_swap {registration other : Level × Evaluator}
    (different : registration.1 ≠ other.1) (before after : List (Level × Evaluator)) :
    ofRegistrations (before ++ registration :: other :: after) =
      ofRegistrations (before ++ other :: registration :: after) := by
  simp only [ofRegistrations, List.foldl_append, List.foldl_cons]
  rw [register_comm different]

/-- A registration that is replaced later may be left out. -/
theorem ofRegistrations_drop {registration : Level × Evaluator}
    {after : List (Level × Evaluator)}
    (replaced : ∃ later ∈ after, later.1 = registration.1)
    (before : List (Level × Evaluator)) :
    ofRegistrations (before ++ registration :: after) = ofRegistrations (before ++ after) := by
  apply eq_of_evaluator?
  intro level
  rw [evaluator?_ofRegistrations, evaluator?_ofRegistrations, List.reverse_append,
    List.reverse_append, List.reverse_cons, List.append_assoc, List.lookup_append,
    List.lookup_append, List.lookup_append]
  -- Seen from the end, a later registration of the same level comes first.
  cases known : after.reverse.lookup level with
  | some evaluator => rfl
  | none =>
      have absent := List.lookup_eq_none_iff.mp known
      rcases replaced with ⟨later, member, sameLevel⟩
      have elsewhere : (level == registration.1) = false := by
        rw [← sameLevel, beq_eq_false_iff_ne]
        exact bne_iff_ne.mp (absent later (List.mem_reverse.mpr member))
      rw [List.lookup_cons, elsewhere]
      rfl

/-- A policy that has the latest evaluators of a history agrees with the one made
by the registrations. -/
theorem agreesApartFrom_of_isLatest (except : Level)
    (latest : ∀ level, level ≠ except → ∀ evaluator,
      policy.evaluator? level = some evaluator ↔ IsLatest registrations level evaluator) :
    (ofRegistrations registrations).AgreesApartFrom except policy := by
  intro level different
  apply Option.ext
  intro evaluator
  rw [evaluator?_ofRegistrations_eq_some_iff, latest level different]

/-- The levels of a policy are those that were registered. -/
theorem mem_levels_ofRegistrations_iff :
    level ∈ (ofRegistrations registrations).levels ↔
      ∃ registration ∈ registrations, registration.1 = level := by
  rw [mem_levels_iff, evaluator?_ofRegistrations, Option.isSome_iff_ne_none, ne_eq,
    List.lookup_eq_none_iff]
  simp only [List.mem_reverse, bne_iff_ne, not_forall, not_not, exists_prop]
  exact exists_congr fun _ => and_congr_right fun _ => eq_comm

/-! ## How a policy is shown -/

theorem description_eq (policy : VisibilityPolicy) :
    policy.description =
      "VisibilityPolicy \x7b levels: [" ++
        ", ".intercalate (policy.levels.map fun level =>
          "SecurityLevel(" ++ toString level.rank.toNat ++ ")") ++ "] \x7d" := by
  have shown : Level.description = fun level : Level =>
      "SecurityLevel(" ++ toString level.rank.toNat ++ ")" := by
    funext level
    simp only [Level.description, String.join, List.foldl_cons, List.foldl_nil,
      String.empty_append]
  simp only [description, shown, String.join, List.foldl_cons, List.foldl_nil,
    String.empty_append]

/-- Registering is order-free up to replacement.

Take any policy that gives each level the evaluator registered for it last, and
no evaluator to the others; what it gives to the level of everyone is of no
account.  The policy made by the registrations behaves as this one.  So it
behaves as the policy made by other registrations with the same latest
evaluators: two neighbours of different levels may change places, and one that
is replaced later may be left out.  It is shown by the registered levels, each
once and in ascending order. -/
theorem behavesAs_of_latest (registrations : List (Level × Evaluator)) :
    let policy := ofRegistrations registrations
    (∀ other : VisibilityPolicy,
        (∀ level, level ≠ Level.everyone → ∀ evaluator,
          other.evaluator? level = some evaluator ↔
            IsLatest registrations level evaluator) →
        policy.BehavesAs other) ∧
      (∀ others : List (Level × Evaluator),
        (∀ level, level ≠ Level.everyone → ∀ evaluator,
          IsLatest others level evaluator ↔ IsLatest registrations level evaluator) →
        policy.BehavesAs (ofRegistrations others)) ∧
      (∀ before registration neighbour after,
        registrations = before ++ registration :: neighbour :: after →
        registration.1 ≠ neighbour.1 →
        policy.BehavesAs (ofRegistrations (before ++ neighbour :: registration :: after))) ∧
      (∀ before registration after, registrations = before ++ registration :: after →
        (∃ later ∈ after, later.1 = registration.1) →
        policy.BehavesAs (ofRegistrations (before ++ after))) ∧
      ∃ levels : List Level,
        policy.description =
            "VisibilityPolicy \x7b levels: [" ++
              ", ".intercalate (levels.map fun level =>
                "SecurityLevel(" ++ toString level.rank.toNat ++ ")") ++ "] \x7d" ∧
          levels.Pairwise (fun lower higher => lower.rank.toNat < higher.rank.toNat) ∧
          ∀ level, level ∈ levels ↔
            ∃ registration ∈ registrations, registration.1 = level := by
  intro policy
  have behaves : ∀ other : VisibilityPolicy,
      (∀ level, level ≠ Level.everyone → ∀ evaluator,
        other.evaluator? level = some evaluator ↔ IsLatest registrations level evaluator) →
      policy.BehavesAs other :=
    fun _ latest => (agreesApartFrom_of_isLatest Level.everyone latest).behavesAs_of_everyone
  refine ⟨behaves, ?_, ?_, ?_, policy.levels, description_eq policy, pairwise_levels policy,
    fun level => mem_levels_ofRegistrations_iff⟩
  · intro others sameLatest
    apply behaves
    intro level restricts evaluator
    rw [evaluator?_ofRegistrations_eq_some_iff, sameLatest level restricts]
  · intro before registration neighbour after split different
    rw [← ofRegistrations_swap different, ← split]
    exact BehavesAs.refl policy
  · intro before registration after split replaced
    rw [← ofRegistrations_drop replaced, ← split]
    exact BehavesAs.refl policy

/-- A strict evaluator that a generous one replaces, with a fickle one registered
in between.  The three registrations behave as a table of the two that count,
which has a third for the level of everyone, and as the registrations in another
order or without the replaced one. -/
theorem behavesAs_of_replaced_and_swapped :
    let strict := Evaluator.steady fun _ => { verdict := .ok false }
    let generous := Evaluator.steady fun _ => { verdict := .ok true }
    let fickle := Evaluator.rehearsed ⟨1⟩ [.ok true, .ok false]
    let policy := ofRegistrations [(⟨2⟩, strict), (⟨1⟩, fickle), (⟨2⟩, generous)]
    let table : VisibilityPolicy :=
      { evaluator? := fun level =>
          if level = ⟨1⟩ then some fickle
          else if level = ⟨2⟩ then some generous
          else if level = Level.everyone then some strict else none }
    policy.BehavesAs table ∧
      policy.BehavesAs
        (ofRegistrations [(⟨0⟩, generous), (⟨2⟩, generous), (⟨1⟩, fickle)]) ∧
      policy.BehavesAs
        (ofRegistrations [(⟨1⟩, fickle), (⟨2⟩, strict), (⟨2⟩, generous)]) ∧
      policy.BehavesAs (ofRegistrations [(⟨1⟩, fickle), (⟨2⟩, generous)]) ∧
      policy.description =
        "VisibilityPolicy \x7b levels: [SecurityLevel(1), SecurityLevel(2)] \x7d" := by
  intro strict generous fickle policy table
  obtain ⟨asTable, asOthers, asSwapped, asDropped, -⟩ :=
    behavesAs_of_latest [(⟨2⟩, strict), (⟨1⟩, fickle), (⟨2⟩, generous)]
  refine ⟨?_, ?_, ?_, ?_, by decide⟩
  · apply asTable
    intro level restricts evaluator
    rw [← evaluator?_ofRegistrations_eq_some_iff]
    simp only [ofRegistrations, List.foldl_cons, List.foldl_nil, evaluator?_register,
      evaluator?_empty, table, if_neg restricts]
    by_cases first : level = ⟨1⟩
    · subst first
      rfl
    · simp only [if_neg first]
      split <;> rfl
  · apply asOthers
    intro level restricts evaluator
    rw [← evaluator?_ofRegistrations_eq_some_iff, ← evaluator?_ofRegistrations_eq_some_iff]
    simp only [ofRegistrations, List.foldl_cons, List.foldl_nil, evaluator?_register,
      evaluator?_empty]
    by_cases first : level = ⟨1⟩
    · subst first
      rfl
    · have inner : level ≠ ⟨0⟩ := restricts
      simp only [if_neg first, if_neg inner]
      split <;> rfl
  · exact asSwapped [] (⟨2⟩, strict) (⟨1⟩, fickle) [(⟨2⟩, generous)] rfl (by decide)
  · exact asDropped [] (⟨2⟩, strict) [(⟨1⟩, fickle), (⟨2⟩, generous)] rfl
      ⟨(⟨2⟩, generous), .tail _ (.head _), rfl⟩

end VisibilityPolicy

end AccessPolicy
