import AccessPolicy.Visibility.Filter

/-!
# The walk over an item, step by step

What the walk does with its first value falls into five cases: the value is
open, its level has no evaluator, its field was decided before, or it is asked
about now, with an error or an answer.  Each case is an equation; everything
else about the walk is proved from these equations.
-/

namespace AccessPolicy

namespace Evaluator

/-- An evaluator continues another when it is that one after some more
questions. -/
def Continues (later first : Evaluator) : Prop :=
  later.answer = first.answer ∧ first.past <:+ later.past

theorem Continues.refl (evaluator : Evaluator) : evaluator.Continues evaluator :=
  ⟨rfl, List.suffix_refl evaluator.past⟩

theorem Continues.ask {first later : Evaluator} (continues : later.Continues first)
    (query : Query) : (later.ask query).2.Continues first :=
  ⟨continues.1, continues.2.trans (List.suffix_cons query later.past)⟩

end Evaluator

namespace Visibility

variable (outcome : Visibility) (allowed : Bool) (value : IndexedValue)
  (consultation : Consultation)

@[simp]
theorem result_showFirst :
    (outcome.showFirst allowed value).result =
      if allowed then outcome.result.map (value :: ·) else outcome.result := by
  cases allowed <;> rfl

/-- What is shown behind a value decides what is shown with it. -/
theorem result_showFirst_eq_ok_iff {shown : List IndexedValue} :
    (outcome.showFirst allowed value).result = .ok shown ↔
      ∃ later, outcome.result = .ok later ∧
        shown = if allowed then value :: later else later := by
  rw [result_showFirst]
  cases outcome.result with
  | error fault => cases allowed <;> simp [Except.map]
  | ok later => cases allowed <;> simp [Except.map, eq_comm]

variable {outcome allowed value} in
theorem sublist_of_result_showFirst {rest shown : List IndexedValue}
    (later : ∀ {others}, outcome.result = .ok others → others.Sublist rest)
    (shows : (outcome.showFirst allowed value).result = .ok shown) :
    shown.Sublist (value :: rest) := by
  obtain ⟨others, found, rfl⟩ := (result_showFirst_eq_ok_iff ..).mp shows
  cases allowed with
  | false => exact (later found).cons value
  | true => exact (later found).cons_cons value

@[simp]
theorem trace_showFirst :
    (outcome.showFirst allowed value).trace = outcome.trace := by
  cases allowed <;> rfl

@[simp]
theorem policy_showFirst :
    (outcome.showFirst allowed value).policy = outcome.policy := by
  cases allowed <;> rfl

@[simp]
theorem result_askedFirst :
    (outcome.askedFirst consultation).result = outcome.result :=
  rfl

@[simp]
theorem trace_askedFirst :
    (outcome.askedFirst consultation).trace = consultation :: outcome.trace :=
  rfl

@[simp]
theorem policy_askedFirst :
    (outcome.askedFirst consultation).policy = outcome.policy :=
  rfl

end Visibility

namespace VisibilityPolicy

variable {principal : Option Principal} {item : Item} {value : IndexedValue}
  {rest : List IndexedValue} {decided : Decisions} {policy : VisibilityPolicy}
  {level : Level} {evaluator : Evaluator}

@[simp]
theorem walk_nil :
    walk principal item [] decided policy =
      { result := .ok [], trace := [], policy := policy } :=
  rfl

theorem walk_cons_of_open (isOpen : value.1.restriction? = none) :
    walk principal item (value :: rest) decided policy =
      (walk principal item rest decided policy).showFirst true value := by
  simp only [walk, isOpen]

theorem walk_cons_of_unregistered (restricted : value.1.restriction? = some level)
    (unregistered : policy.evaluator? level = none) :
    walk principal item (value :: rest) decided policy =
      walk principal item rest decided policy := by
  simp only [walk, restricted, unregistered]

theorem walk_cons_of_decided (restricted : value.1.restriction? = some level)
    (registered : policy.evaluator? level = some evaluator) {allowed : Bool}
    (known : decided.lookup (level, value.1.field) = some allowed) :
    walk principal item (value :: rest) decided policy =
      (walk principal item rest decided policy).showFirst allowed value := by
  simp only [walk, restricted, registered, known]

/-- The question that a walk asks about a value. -/
def queryAbout (principal : Option Principal) (item : Item)
    (value : FieldValue) : Query where
  principal := principal
  item := item
  field := value.field

/-- What is noted when the evaluator of a level is asked about a value. -/
def consultationAbout (principal : Option Principal) (item : Item)
    (level : Level) (evaluator : Evaluator) (value : FieldValue) : Consultation where
  level := level
  query := queryAbout principal item value
  reply := (evaluator.ask (queryAbout principal item value)).1

theorem walk_cons_of_error (restricted : value.1.restriction? = some level)
    (registered : policy.evaluator? level = some evaluator)
    (unknown : decided.lookup (level, value.1.field) = none) {error : AccessError}
    (failed : (evaluator.ask (queryAbout principal item value.1)).1.verdict =
      .error error) :
    walk principal item (value :: rest) decided policy =
      { result := .error error
        trace := [consultationAbout principal item level evaluator value.1]
        policy := policy.register level
          (evaluator.ask (queryAbout principal item value.1)).2 } := by
  simp only [queryAbout] at failed
  simp only [walk, restricted, registered, unknown, failed]
  rfl

theorem walk_cons_of_answer (restricted : value.1.restriction? = some level)
    (registered : policy.evaluator? level = some evaluator)
    (unknown : decided.lookup (level, value.1.field) = none) {allowed : Bool}
    (answered : (evaluator.ask (queryAbout principal item value.1)).1.verdict =
      .ok allowed) :
    walk principal item (value :: rest) decided policy =
      ((walk principal item rest (((level, value.1.field), allowed) :: decided)
        (policy.register level
          (evaluator.ask (queryAbout principal item value.1)).2)).showFirst
            allowed value).askedFirst
              (consultationAbout principal item level evaluator value.1) := by
  simp only [queryAbout] at answered
  simp only [walk, restricted, registered, unknown, answered]
  rfl

/-! ## Evaluators that were asked in between -/

/-- A policy continues another when it differs from that one only in what its
evaluators were asked in between. -/
def Continues (later first : VisibilityPolicy) : Prop :=
  ∀ level, Option.Rel Evaluator.Continues (later.evaluator? level)
    (first.evaluator? level)

theorem Continues.refl (policy : VisibilityPolicy) : policy.Continues policy := by
  intro level
  cases policy.evaluator? level with
  | none => exact Option.Rel.none
  | some evaluator => exact Option.Rel.some (Evaluator.Continues.refl evaluator)

theorem Continues.unregistered {first later : VisibilityPolicy}
    (continues : later.Continues first)
    (unregistered : later.evaluator? level = none) :
    first.evaluator? level = none := by
  have related := continues level
  rw [unregistered] at related
  generalize first.evaluator? level = before at related ⊢
  cases related
  rfl

theorem Continues.registered {first later : VisibilityPolicy}
    (continues : later.Continues first)
    (registered : later.evaluator? level = some evaluator) :
    ∃ before, first.evaluator? level = some before ∧ evaluator.Continues before := by
  have related := continues level
  rw [registered] at related
  generalize first.evaluator? level = before at related ⊢
  cases related with
  | some continued => exact ⟨_, rfl, continued⟩

/-- A policy continues another when one of its evaluators is asked once more. -/
theorem Continues.register_ask {first later : VisibilityPolicy} {query : Query}
    (continues : later.Continues first)
    (registered : later.evaluator? level = some evaluator) :
    (later.register level (evaluator.ask query).2).Continues first := by
  intro other
  rw [evaluator?_register]
  by_cases same : other = level
  · obtain ⟨before, registeredBefore, continued⟩ := continues.registered registered
    rw [if_pos same, same, registeredBefore]
    exact Option.Rel.some (continued.ask query)
  · rw [if_neg same]
    exact continues other

/-! ## What is shown -/

/-- A walk shows some of its values, in their order and none twice. -/
theorem sublist_of_result_walk {values shown : List IndexedValue}
    (returned : (walk principal item values decided policy).result = .ok shown) :
    shown.Sublist values := by
  induction values generalizing decided policy shown with
  | nil =>
      obtain rfl : [] = shown := Except.ok.inj returned
      exact List.Sublist.refl []
  | cons value rest ih =>
      cases restricted : value.1.restriction? with
      | none =>
          rw [walk_cons_of_open restricted] at returned
          exact Visibility.sublist_of_result_showFirst ih returned
      | some level =>
          cases registered : policy.evaluator? level with
          | none =>
              rw [walk_cons_of_unregistered restricted registered] at returned
              exact (ih returned).cons value
          | some evaluator =>
              cases known : decided.lookup (level, value.1.field) with
              | some allowed =>
                  rw [walk_cons_of_decided restricted registered known] at returned
                  exact Visibility.sublist_of_result_showFirst ih returned
              | none =>
                  cases answered : (evaluator.ask
                      (queryAbout principal item value.1)).1.verdict with
                  | error fault =>
                      rw [walk_cons_of_error restricted registered known answered]
                        at returned
                      contradiction
                  | ok allowed =>
                      rw [walk_cons_of_answer restricted registered known answered,
                        Visibility.result_askedFirst] at returned
                      exact Visibility.sublist_of_result_showFirst ih returned

end VisibilityPolicy

end AccessPolicy
