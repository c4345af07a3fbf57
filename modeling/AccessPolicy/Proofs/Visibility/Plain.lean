import AccessPolicy.Proofs.Visibility.Registrations
import AccessPolicy.Proofs.Visibility.Walk

/-!
# The filter without a memory

Beside the walk that remembers its decisions stands a plain one: it asks the
evaluator of a level afresh about every value and remembers nothing.  When the
verdicts of the evaluators depend on the question alone, both come to the same
result, values and errors alike.  The invariant of the walk is that whatever it
remembers is what the evaluators of the policy would say if they were asked.
-/

namespace AccessPolicy

/-- An evaluator is consistent when its verdict on a question stays the same,
whatever it is asked in between. -/
def Evaluator.IsConsistent (evaluator : Evaluator) : Prop :=
  ∀ later : Evaluator, later.Continues evaluator → ∀ query,
    (later.ask query).1.verdict = (evaluator.ask query).1.verdict

/-- An evaluator that pays no attention to its past is consistent. -/
theorem Evaluator.IsSteady.isConsistent {evaluator : Evaluator}
    (settled : evaluator.IsSteady) : evaluator.IsConsistent := by
  rintro later ⟨sameAnswers, _⟩ query
  obtain ⟨decide, steady⟩ := settled
  simp only [Evaluator.ask, sameAnswers, steady]

namespace VisibilityPolicy

/-- A policy is consistent when all its evaluators are. -/
def IsConsistent (policy : VisibilityPolicy) : Prop :=
  ∀ level evaluator, policy.evaluator? level = some evaluator →
    evaluator.IsConsistent

/-- A policy made by registering consistent evaluators is consistent. -/
theorem isConsistent_ofRegistrations {registrations : List (Level × Evaluator)}
    (consistent : ∀ registration ∈ registrations, registration.2.IsConsistent) :
    (ofRegistrations registrations).IsConsistent := by
  intro level evaluator registered
  obtain ⟨before, after, rfl, -⟩ :=
    evaluator?_ofRegistrations_eq_some_iff.mp registered
  exact consistent (level, evaluator) (by simp)

/-- Whether one value is to be shown, the evaluator of its level being asked
about its field. -/
def verdictOn (policy : VisibilityPolicy) (principal : Option Principal)
    (item : Item) (value : FieldValue) : Except AccessError Bool :=
  match value.restriction? with
  | none => .ok true
  | some level =>
      match policy.evaluator? level with
      | none => .ok false
      | some evaluator =>
          (evaluator.ask (queryAbout principal item value)).1.verdict

/-- Keep the values that are to be shown, asking afresh about each of them, and
stop at the first error. -/
def plainWalk (policy : VisibilityPolicy) (principal : Option Principal)
    (item : Item) : List IndexedValue → Except AccessError (List IndexedValue)
  | [] => .ok []
  | value :: rest =>
      match policy.verdictOn principal item value.1 with
      | .error error => .error error
      | .ok false => plainWalk policy principal item rest
      | .ok true => (plainWalk policy principal item rest).map (value :: ·)

/-- The values of an item that a principal may see, found without a memory. -/
def plainlyVisible (policy : VisibilityPolicy) (principal : Option Principal)
    (item : Item) : Except AccessError (List IndexedValue) :=
  policy.plainWalk principal item item.values.zipIdx

variable {policy current : VisibilityPolicy} {principal : Option Principal}
  {item : Item} {value : FieldValue} {level : Level} {evaluator : Evaluator}

theorem verdictOn_of_open (isOpen : value.restriction? = none) :
    policy.verdictOn principal item value = .ok true := by
  simp only [verdictOn, isOpen]

theorem verdictOn_of_unregistered (restricted : value.restriction? = some level)
    (unregistered : policy.evaluator? level = none) :
    policy.verdictOn principal item value = .ok false := by
  simp only [verdictOn, restricted, unregistered]

theorem verdictOn_of_registered (restricted : value.restriction? = some level)
    (registered : policy.evaluator? level = some evaluator) :
    policy.verdictOn principal item value =
      (evaluator.ask (queryAbout principal item value)).1.verdict := by
  simp only [verdictOn, restricted, registered]

theorem plainWalk_cons_of_ok {value : IndexedValue} {rest : List IndexedValue}
    {allowed : Bool}
    (decided : policy.verdictOn principal item value.1 = .ok allowed) :
    policy.plainWalk principal item (value :: rest) =
      if allowed then (policy.plainWalk principal item rest).map (value :: ·)
      else policy.plainWalk principal item rest := by
  cases allowed <;> simp [plainWalk, decided]

theorem plainWalk_cons_of_error {value : IndexedValue} {rest : List IndexedValue}
    {error : AccessError}
    (failed : policy.verdictOn principal item value.1 = .error error) :
    policy.plainWalk principal item (value :: rest) = .error error := by
  simp only [plainWalk, failed]

/-- Where no evaluator fails, the plain walk keeps the allowed values. -/
theorem plainWalk_of_ok {keep : FieldValue → Bool}
    (decided : ∀ value, policy.verdictOn principal item value = .ok (keep value))
    (values : List IndexedValue) :
    policy.plainWalk principal item values =
      .ok (values.filter fun value => keep value.1) := by
  induction values with
  | nil => rfl
  | cons value rest ih =>
      rw [plainWalk_cons_of_ok (decided value.1), ih, List.filter_cons]
      cases keep value.1 <;> rfl

/-- A verdict depends on the level and the field of a value and on nothing else
in it. -/
theorem verdictOn_congr {first second : FieldValue}
    (sameLevel : first.restriction? = second.restriction?)
    (sameField : first.field = second.field) :
    policy.verdictOn principal item first = policy.verdictOn principal item second := by
  simp only [verdictOn, queryAbout, sameLevel, sameField]

/-! ## The invariant of the walk -/

/-- What is remembered of a walk is what the evaluators of the policy say. -/
def Remembers (policy : VisibilityPolicy) (principal : Option Principal)
    (item : Item) (decided : Decisions) : Prop :=
  ∀ value level allowed, value.restriction? = some level →
    decided.lookup (level, value.field) = some allowed →
    policy.verdictOn principal item value = .ok allowed

/-- The evaluators of a consistent policy, asked at any time of a walk, give the
verdict that they would have given at first. -/
theorem IsConsistent.verdict_ask (consistent : policy.IsConsistent)
    (continues : current.Continues policy)
    (restricted : value.restriction? = some level)
    (registered : current.evaluator? level = some evaluator)
    (principal : Option Principal) (item : Item) :
    (evaluator.ask (queryAbout principal item value)).1.verdict =
      policy.verdictOn principal item value := by
  obtain ⟨first, registeredFirst, later⟩ := continues.registered registered
  rw [verdictOn_of_registered restricted registeredFirst]
  exact consistent level first registeredFirst evaluator later _

theorem remembers_nil : policy.Remembers principal item [] := by
  intro value level allowed _ known
  rw [List.lookup_nil] at known
  contradiction

/-- An answer may be remembered for all values of the same level and field. -/
theorem Remembers.cons {decided : Decisions} {allowed : Bool}
    (remembers : policy.Remembers principal item decided)
    (restricted : value.restriction? = some level)
    (answered : policy.verdictOn principal item value = .ok allowed) :
    policy.Remembers principal item (((level, value.field), allowed) :: decided) := by
  intro other otherLevel otherAllowed otherRestricted known
  rw [List.lookup_cons] at known
  split at known
  · rename_i sameKey
    obtain ⟨rfl, sameField⟩ := Prod.mk.inj (beq_iff_eq.mp sameKey)
    obtain rfl := Option.some.inj known
    rw [verdictOn_congr (otherRestricted.trans restricted.symm) sameField]
    exact answered
  · exact remembers other otherLevel otherAllowed otherRestricted known

/-- A walk whose memory tells the truth shows what the plain walk shows. -/
theorem result_walk_eq_plainWalk {decided : Decisions}
    (consistent : policy.IsConsistent) (continues : current.Continues policy)
    (remembers : policy.Remembers principal item decided)
    (values : List IndexedValue) :
    (walk principal item values decided current).result =
      policy.plainWalk principal item values := by
  induction values generalizing current decided with
  | nil => rfl
  | cons value rest ih =>
      cases restricted : value.1.restriction? with
      | none =>
          rw [walk_cons_of_open restricted, Visibility.result_showFirst,
            plainWalk_cons_of_ok (verdictOn_of_open restricted),
            ih continues remembers]
      | some level =>
          cases registered : current.evaluator? level with
          | none =>
              have unregistered := continues.unregistered registered
              rw [walk_cons_of_unregistered restricted registered,
                plainWalk_cons_of_ok
                  (verdictOn_of_unregistered restricted unregistered),
                ih continues remembers]
              rfl
          | some evaluator =>
              cases known : decided.lookup (level, value.1.field) with
              | some allowed =>
                  have verdict := remembers value.1 level allowed restricted known
                  rw [walk_cons_of_decided restricted registered known,
                    Visibility.result_showFirst, plainWalk_cons_of_ok verdict,
                    ih continues remembers]
              | none =>
                  have verdict := consistent.verdict_ask continues restricted
                    registered principal item
                  cases answered : (evaluator.ask
                      (queryAbout principal item value.1)).1.verdict with
                  | error error =>
                      rw [walk_cons_of_error restricted registered known answered,
                        plainWalk_cons_of_error (verdict.symm.trans answered)]
                  | ok allowed =>
                      have decidedNow := verdict.symm.trans answered
                      rw [walk_cons_of_answer restricted registered known answered,
                        Visibility.result_askedFirst, Visibility.result_showFirst,
                        plainWalk_cons_of_ok decidedNow,
                        ih (continues.register_ask registered)
                          (remembers.cons restricted decidedNow)]

/-- The filter with a memory and the plain one agree for consistent
evaluators: they show the same values, in the order of the item and each at
most once, or they fail with the same error. -/
theorem result_visible_eq_plainlyVisible {policy : VisibilityPolicy}
    (consistent : policy.IsConsistent) (principal : Option Principal)
    (item : Item) :
    (policy.visible principal item).result =
        policy.plainlyVisible principal item ∧
      ∀ shown, (policy.visible principal item).result = .ok shown →
        shown.Sublist item.values.zipIdx := by
  constructor
  · exact result_walk_eq_plainWalk consistent (Continues.refl policy) remembers_nil _
  · intro shown returned
    exact sublist_of_result_walk returned

/-- One field at two levels: the evaluators of the two levels disagree about it,
and each is asked once. -/
theorem visible_of_one_field_at_two_levels :
    let policy := ofRegistrations
      [(⟨1⟩, .steady fun _ => { verdict := .ok true }),
        (⟨2⟩, .steady fun query => { verdict := .ok query.principal.isSome })]
    let note : FieldName := { schema := "cris", element := "note" }
    let item : Item :=
      { id := "item"
        values :=
          [{ field := note, text := "first", level := some ⟨1⟩ },
            { field := note, text := "second", level := some ⟨2⟩ },
            { field := note, text := "third", level := some ⟨1⟩ },
            { field := note, text := "fourth" }] }
    policy.IsConsistent ∧
      (policy.visible none item).result.map (·.map Prod.snd) = .ok [0, 2, 3] := by
  intro policy note item
  have consistent : policy.IsConsistent := by
    apply isConsistent_ofRegistrations
    intro registration member
    simp only [List.mem_cons, List.not_mem_nil, or_false] at member
    rcases member with rfl | rfl
    · exact (Evaluator.isSteady_steady _).isConsistent
    · exact (Evaluator.isSteady_steady _).isConsistent
  constructor
  · exact consistent
  · rw [(result_visible_eq_plainlyVisible consistent none item).1]
    rfl

end VisibilityPolicy

end AccessPolicy
