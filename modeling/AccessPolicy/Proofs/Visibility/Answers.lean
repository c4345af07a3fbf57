import AccessPolicy.Proofs.Visibility.Consultations

/-!
# What the answers of a walk decide

An evaluator may change its mind from one question to the next, so what a walk
shows is not a function of the policy alone.  It is a function of the answers
that the walk was given: the first error is the result, and without an error
the walk shows the open values and those whose subject was answered with a yes.
Since each subject is asked about once, there is one answer to go by.
-/

namespace AccessPolicy

namespace Consultation

/-- The error of a consultation that could not decide its subject. -/
def error? (consultation : Consultation) : Option AccessError :=
  match consultation.reply.verdict with
  | .error error => some error
  | .ok _ => none

/-- What a consultation has decided, if it has. -/
def decision? (consultation : Consultation) : Option (Subject × Bool) :=
  match consultation.reply.verdict with
  | .error _ => none
  | .ok allowed => some (consultation.subject, allowed)

variable {consultation : Consultation}

theorem error?_eq_some_iff {error : AccessError} :
    consultation.error? = some error ↔ consultation.reply.verdict = .error error := by
  unfold error?
  cases consultation.reply.verdict <;> simp

theorem error?_of_ok {allowed : Bool}
    (answered : consultation.reply.verdict = .ok allowed) :
    consultation.error? = none := by
  simp only [error?, answered]

theorem decision?_of_ok {allowed : Bool}
    (answered : consultation.reply.verdict = .ok allowed) :
    consultation.decision? = some (consultation.subject, allowed) := by
  simp only [decision?, answered]

theorem decision?_of_error {error : AccessError}
    (failed : consultation.reply.verdict = .error error) :
    consultation.decision? = none := by
  simp only [decision?, failed]

end Consultation

/-- What some consultations have decided. -/
def decisionsOf (trace : List Consultation) : Decisions :=
  trace.filterMap Consultation.decision?

theorem decisionsOf_cons_of_ok {consultation : Consultation} {allowed : Bool}
    (answered : consultation.reply.verdict = .ok allowed) (later : List Consultation) :
    decisionsOf (consultation :: later) =
      (consultation.subject, allowed) :: decisionsOf later := by
  simp only [decisionsOf, List.filterMap_cons, Consultation.decision?_of_ok answered]

theorem decisionsOf_cons_of_error {consultation : Consultation} {error : AccessError}
    (failed : consultation.reply.verdict = .error error) (later : List Consultation) :
    decisionsOf (consultation :: later) = decisionsOf later := by
  simp only [decisionsOf, List.filterMap_cons, Consultation.decision?_of_error failed]

/-- Where each subject is asked about once, the decision about a subject is the
answer to the one consultation about it. -/
theorem lookup_decisionsOf_eq_some_iff {trace : List Consultation} {subject : Subject}
    {allowed : Bool} (once : (trace.map Consultation.subject).Nodup) :
    (decisionsOf trace).lookup subject = some allowed ↔
      ∃ consultation, trace.filter (·.subject = subject) = [consultation] ∧
        consultation.reply.verdict = .ok allowed := by
  induction trace with
  | nil => simp [decisionsOf]
  | cons first rest ih =>
      obtain ⟨fresh, onceLater⟩ := List.nodup_cons.mp once
      have later := ih onceLater
      by_cases same : first.subject = subject
      · subst same
        have none : rest.filter (·.subject = first.subject) = [] := by
          rw [List.filter_eq_nil_iff]
          intro other member equal
          rw [← of_decide_eq_true equal] at fresh
          exact fresh (List.mem_map_of_mem member)
        rw [List.filter_cons, if_pos (decide_eq_true rfl), none]
        simp only [List.cons.injEq, and_true, exists_eq_left']
        cases answered : first.reply.verdict with
        | error error =>
            rw [decisionsOf_cons_of_error answered, later, none]
            simp
        | ok answer =>
            rw [decisionsOf_cons_of_ok answered, List.lookup_cons_self]
            simp
      · have other : (subject == first.subject) = false :=
          beq_eq_false_iff_ne.mpr fun equal => same equal.symm
        rw [List.filter_cons, if_neg (by simpa using same), ← later]
        cases answered : first.reply.verdict with
        | error error => rw [decisionsOf_cons_of_error answered]
        | ok answer =>
            rw [decisionsOf_cons_of_ok answered, List.lookup_cons, other]

/-- A decision about a new subject may stand before or behind the others. -/
theorem lookup_append_cons {decided later : Decisions} {subject : Subject}
    (unknown : decided.lookup subject = none) (allowed : Bool) (other : Subject) :
    (decided ++ (subject, allowed) :: later).lookup other =
      (((subject, allowed) :: decided) ++ later).lookup other := by
  rw [List.cons_append, List.lookup_append, List.lookup_cons, List.lookup_cons,
    List.lookup_append]
  cases same : other == subject with
  | true =>
      rw [beq_iff_eq.mp same, unknown]
      rfl
  | false => rfl

namespace VisibilityPolicy

variable {policy : VisibilityPolicy} {principal : Option Principal} {item : Item}
  {value : FieldValue} {level : Level} {evaluator : Evaluator}

/-- Whether a value is shown by what was decided: if it is open, or if its
subject is allowed. -/
def showsBy (policy : VisibilityPolicy) (decided : Decisions) (value : FieldValue) : Bool :=
  value.restriction?.isNone ||
    (policy.subject? value).any fun subject => decided.lookup subject == some true

theorem showsBy_of_open {decided : Decisions} (isOpen : value.restriction? = none) :
    policy.showsBy decided value = true := by
  simp only [showsBy, isOpen, Option.isNone_none, Bool.true_or]

theorem showsBy_of_unregistered {decided : Decisions}
    (restricted : value.restriction? = some level)
    (unregistered : policy.evaluator? level = none) :
    policy.showsBy decided value = false := by
  simp only [showsBy, restricted, subject?_of_unregistered restricted unregistered,
    Option.isNone_some, Option.any_none, Bool.or_false]

theorem showsBy_of_decided {decided : Decisions} {allowed : Bool}
    (restricted : value.restriction? = some level)
    (registered : policy.evaluator? level = some evaluator)
    (known : decided.lookup (level, value.field) = some allowed) :
    policy.showsBy decided value = allowed := by
  simp [showsBy, restricted, subject?_of_registered restricted registered, known]

/-- A value is shown by what was decided about its subject before. -/
theorem showsBy_append_of_decided {decided : Decisions} {allowed : Bool}
    (restricted : value.restriction? = some level)
    (registered : policy.evaluator? level = some evaluator)
    (known : decided.lookup (level, value.field) = some allowed) (later : Decisions) :
    policy.showsBy (decided ++ later) value = allowed := by
  apply showsBy_of_decided restricted registered
  rw [List.lookup_append, known, Option.some_or]

/-- A value is shown by the answer to the question about it. -/
theorem showsBy_append_of_answered {decided : Decisions} {allowed : Bool}
    (restricted : value.restriction? = some level)
    (registered : policy.evaluator? level = some evaluator)
    (unknown : decided.lookup (level, value.field) = none)
    (answered : (consultationAbout principal item level evaluator
      value).reply.verdict = .ok allowed) (later : List Consultation) :
    policy.showsBy (decided ++ decisionsOf
      (consultationAbout principal item level evaluator value :: later)) value =
        allowed := by
  apply showsBy_of_decided restricted registered
  rw [List.lookup_append, unknown, Option.none_or, decisionsOf_cons_of_ok answered]
  exact List.lookup_cons_self

theorem showsBy_eq_true_iff {decided : Decisions} :
    policy.showsBy decided value = true ↔
      value.level = none ∨ value.level = some Level.everyone ∨
        ∃ level, value.level = some level ∧ (policy.evaluator? level).isSome = true ∧
          decided.lookup (level, value.field) = some true := by
  rw [← or_assoc, ← FieldValue.restriction?_eq_none_iff, showsBy, Bool.or_eq_true,
    Option.isNone_iff_eq_none, Option.any_eq_true]
  constructor
  · rintro (isOpen | ⟨⟨level, field⟩, about, allowed⟩)
    · exact .inl isOpen
    · obtain ⟨atLevel, -, registered, rfl⟩ := subject?_eq_some_iff.mp about
      exact .inr ⟨level, atLevel, registered, beq_iff_eq.mp allowed⟩
  · rintro (isOpen | ⟨level, atLevel, registered, allowed⟩)
    · exact .inl isOpen
    · by_cases isOpen : value.restriction? = none
      · exact .inl isOpen
      · have restricts : level ≠ Level.everyone := by
          rintro rfl
          exact isOpen (FieldValue.restriction?_eq_none_iff.mpr (.inr atLevel))
        exact .inr ⟨(level, value.field),
          subject?_eq_some_iff.mpr ⟨atLevel, restricts, registered, rfl⟩,
          beq_iff_eq.mpr allowed⟩

/-- What a walk over some values comes to, given what was decided before and the
consultations it has held. -/
def resultBy (policy : VisibilityPolicy) (decided : Decisions)
    (values : List IndexedValue) (trace : List Consultation) :
    Except AccessError (List IndexedValue) :=
  match trace.findSome? Consultation.error? with
  | some error => .error error
  | none => .ok (values.filter fun value =>
      policy.showsBy (decided ++ decisionsOf trace) value.1)

theorem resultBy_cons {value : IndexedValue} {rest : List IndexedValue}
    {decided : Decisions} {trace : List Consultation} :
    policy.resultBy decided (value :: rest) trace =
      if policy.showsBy (decided ++ decisionsOf trace) value.1 then
        (policy.resultBy decided rest trace).map (value :: ·)
      else policy.resultBy decided rest trace := by
  unfold resultBy
  rw [List.filter_cons]
  cases trace.findSome? Consultation.error? <;>
    cases policy.showsBy (decided ++ decisionsOf trace) value.1 <;> rfl

/-- A walk and one that continues it come to the same. -/
theorem resultBy_answered {consultation : Consultation} {rest : List IndexedValue}
    {decided : Decisions} {allowed : Bool}
    (unknown : decided.lookup consultation.subject = none)
    (answered : consultation.reply.verdict = .ok allowed) (later : List Consultation) :
    policy.resultBy decided rest (consultation :: later) =
      (policy.after [consultation]).resultBy
        ((consultation.subject, allowed) :: decided) rest later := by
  simp only [resultBy, List.findSome?_cons, Consultation.error?_of_ok answered, showsBy,
    decisionsOf_cons_of_ok answered, lookup_append_cons unknown, subject?_after]

/-- The result of a walk follows from the answers it was given. -/
theorem result_walk (values : List IndexedValue) (decided : Decisions)
    (policy : VisibilityPolicy) :
    (walk principal item values decided policy).result =
      policy.resultBy decided values
        (walk principal item values decided policy).trace := by
  induction values generalizing decided policy with
  | nil => rfl
  | cons value rest ih =>
      cases restricted : value.1.restriction? with
      | none =>
          rw [walk_cons_of_open restricted, resultBy_cons, showsBy_of_open restricted,
            Visibility.result_showFirst, Visibility.trace_showFirst, ih]
      | some level =>
          cases registered : policy.evaluator? level with
          | none =>
              rw [walk_cons_of_unregistered restricted registered, resultBy_cons,
                showsBy_of_unregistered restricted registered, ih]
              rfl
          | some evaluator =>
              cases known : decided.lookup (level, value.1.field) with
              | some allowed =>
                  have shows :=
                    showsBy_append_of_decided restricted registered known
                  rw [walk_cons_of_decided restricted registered known,
                    Visibility.result_showFirst, Visibility.trace_showFirst,
                    resultBy_cons, shows, ih]
              | none =>
                  cases answered : (consultationAbout principal item level evaluator
                      value.1).reply.verdict with
                  | error error =>
                      rw [walk_cons_of_error restricted registered known answered]
                      simp only [resultBy, List.findSome?_cons,
                        Consultation.error?_eq_some_iff.mpr answered]
                  | ok allowed =>
                      have unknown : decided.lookup (consultationAbout principal item
                          level evaluator value.1).subject = none := known
                      have shows :=
                        showsBy_append_of_answered restricted registered known answered
                      rw [walk_cons_of_answer restricted registered known answered,
                        register_ask registered, Visibility.result_askedFirst,
                        Visibility.result_showFirst, Visibility.trace_askedFirst,
                        Visibility.trace_showFirst, resultBy_cons, shows,
                        resultBy_answered unknown answered, ih]
                      rfl

/-! ## Errors -/

namespace Inquiry

variable {subjects : List Subject} {trace : List Consultation}

theorem findSome?_error?_eq_some_iff {error : AccessError}
    (inquiry : Inquiry principal item policy subjects trace) :
    trace.findSome? Consultation.error? = some error ↔
      ∃ consultation ∈ trace, consultation.reply.verdict = .error error := by
  induction inquiry with
  | finished => simp
  | @failed _ consultation _ fault _ failure =>
      have failed := Consultation.error?_eq_some_iff.mpr failure
      simp [failed, failure]
  | answered _ answer _ ih =>
      rw [List.findSome?_cons, Consultation.error?_of_ok answer]
      simp [answer, ih]

/-- A consultation with an error is the last one. -/
theorem getLast?_of_error {consultation : Consultation} {error : AccessError}
    (inquiry : Inquiry principal item policy subjects trace)
    (member : consultation ∈ trace)
    (failure : consultation.reply.verdict = .error error) :
    trace.getLast? = some consultation := by
  obtain ⟨before, after, split⟩ := List.append_of_mem member
  obtain rfl := inquiry.eq_nil_of_error split failure
  rw [split]
  exact List.getLast?_concat

end Inquiry

theorem result_visible (policy : VisibilityPolicy) (principal : Option Principal)
    (item : Item) :
    (policy.visible principal item).result =
      policy.resultBy [] item.values.zipIdx (policy.visible principal item).trace :=
  result_walk item.values.zipIdx [] policy

/-- A walk fails with the error that one of its consultations has, and with no
other. -/
theorem result_visible_eq_error_iff {error : AccessError} :
    (policy.visible principal item).result = .error error ↔
      ∃ consultation ∈ (policy.visible principal item).trace,
        consultation.reply.verdict = .error error := by
  rw [← (inquiry_visible policy principal item).findSome?_error?_eq_some_iff,
    result_visible, resultBy]
  cases (policy.visible principal item).trace.findSome? Consultation.error? <;> simp

/-- A walk that does not fail shows the values that its answers allow. -/
theorem eq_filter_of_result_visible {shown : List IndexedValue}
    (returned : (policy.visible principal item).result = .ok shown) :
    shown = item.values.zipIdx.filter fun value =>
      policy.showsBy (decisionsOf (policy.visible principal item).trace) value.1 := by
  rw [result_visible, resultBy] at returned
  split at returned
  · contradiction
  · exact (Except.ok.inj returned).symm

/-- A walk that does not fail shows a value if it is open, or if its subject was
allowed in the one consultation about it. -/
theorem mem_of_result_visible_iff {shown : List IndexedValue} {index : Nat}
    (returned : (policy.visible principal item).result = .ok shown)
    (stands : item.values[index]? = some value) :
    (value, index) ∈ shown ↔
      value.level = none ∨ value.level = some Level.everyone ∨
        ∃ level consultation, value.level = some level ∧
          (policy.evaluator? level).isSome = true ∧
          (policy.visible principal item).trace.filter
            (·.subject = (level, value.field)) = [consultation] ∧
          consultation.reply.verdict = .ok true := by
  have occurs : (value, index) ∈ item.values.zipIdx :=
    List.mk_mem_zipIdx_iff_getElem?.mpr stands
  rw [eq_filter_of_result_visible returned, List.mem_filter, and_iff_right occurs,
    showsBy_eq_true_iff]
  simp only [lookup_decisionsOf_eq_some_iff (nodup_trace_visible policy principal item),
    exists_and_left]

/-- Where no level of the item has an evaluator, nothing can fail. -/
theorem exists_result_visible_of_unregistered (policy : VisibilityPolicy)
    (principal : Option Principal) {item : Item}
    (unregistered : ∀ value ∈ item.values, ∀ level, value.level = some level →
      level ≠ Level.everyone → policy.evaluator? level = none) :
    ∃ shown, (policy.visible principal item).result = .ok shown := by
  cases returned : (policy.visible principal item).result with
  | ok shown => exact ⟨shown, rfl⟩
  | error error =>
      obtain ⟨consultation, member, -⟩ := result_visible_eq_error_iff.mp returned
      obtain ⟨restricts, registered, value, valueMember, atLevel, -⟩ :=
        mem_subjects_iff.mp ((inquiry_visible policy principal item).subject_mem member)
      rw [unregistered value valueMember _ atLevel restricts] at registered
      contradiction

/-- What comes of a walk, whatever its evaluators do.

It fails when a consultation fails, which is then the last, with the error of
that one.  Otherwise it shows, in the order of the item, the open values and
those restricted ones whose subject was allowed in the one consultation about
it.  So values of one field at one level are shown together or not at all, and
where no level has an evaluator there is nothing to fail. -/
theorem result_visible_of_answers (policy : VisibilityPolicy)
    (principal : Option Principal) (item : Item) :
    let outcome := policy.visible principal item
    (∀ error, outcome.result = .error error ↔
        ∃ consultation ∈ outcome.trace, consultation.reply.verdict = .error error) ∧
      (∀ consultation ∈ outcome.trace, ∀ error,
        consultation.reply.verdict = .error error →
          outcome.trace.getLast? = some consultation) ∧
      (∀ shown, outcome.result = .ok shown →
        shown.Sublist item.values.zipIdx ∧
        (∀ index value, item.values[index]? = some value →
          ((value, index) ∈ shown ↔
            value.level = none ∨ value.level = some Level.everyone ∨
            ∃ level consultation, value.level = some level ∧
              (policy.evaluator? level).isSome = true ∧
              outcome.trace.filter (·.subject = (level, value.field)) = [consultation] ∧
              consultation.reply.verdict = .ok true)) ∧
        ∀ firstIndex first secondIndex second,
          item.values[firstIndex]? = some first →
          item.values[secondIndex]? = some second →
          first.field = second.field → first.level = second.level →
            ((first, firstIndex) ∈ shown ↔ (second, secondIndex) ∈ shown)) ∧
      ((∀ value ∈ item.values, ∀ level, value.level = some level →
          level ≠ Level.everyone → policy.evaluator? level = none) →
        ∃ shown, outcome.result = .ok shown) := by
  intro outcome
  refine ⟨fun error => result_visible_eq_error_iff, ?_, ?_,
    exists_result_visible_of_unregistered policy principal⟩
  · intro consultation member error failure
    exact (inquiry_visible policy principal item).getLast?_of_error member failure
  · intro shown returned
    refine ⟨?_, fun index value => mem_of_result_visible_iff returned, ?_⟩
    · rw [eq_filter_of_result_visible returned]
      exact List.filter_sublist
    · intro firstIndex first secondIndex second standsFirst standsSecond sameField sameLevel
      rw [mem_of_result_visible_iff returned standsFirst,
        mem_of_result_visible_iff returned standsSecond, sameField, sameLevel]

/-- An evaluator that says yes to its first question and cannot decide the
second.  Two values of one field are shown on the first answer; with a value of
another field there is an error; and an item without restricted values is shown
whatever the evaluator would say. -/
theorem visible_of_fickle_evaluator :
    let fault : AccessError :=
      .retrieval { store := "metadata store", message := "connection refused" }
    let policy := ofRegistrations [(⟨1⟩, .rehearsed ⟨1⟩ [.ok true, .error fault])]
    let note : FieldName := { schema := "cris", element := "note" }
    let memo : FieldName := { schema := "cris", element := "memo" }
    let first : FieldValue := { field := note, text := "a", level := some ⟨1⟩ }
    let second : FieldValue := { field := note, text := "b", level := some ⟨1⟩ }
    let third : FieldValue := { field := memo, text := "c", level := some ⟨1⟩ }
    let twice : Item := { id := "item", values := [first, second] }
    let both : Item := { id := "item", values := [first, second, third] }
    let neither : Item := { id := "item", values := [{ first with level := none }] }
    (∃ shown, (policy.visible none twice).result = .ok shown ∧
        ((first, 0) ∈ shown ↔ (second, 1) ∈ shown) ∧ (first, 0) ∈ shown) ∧
      (policy.visible none both).result = .error fault ∧
      ∃ shown, (policy.visible none neither).result = .ok shown := by
  intro fault policy note memo first second third twice both neither
  obtain ⟨-, -, shows, -⟩ := result_visible_of_answers policy none twice
  obtain ⟨fails, -, -, -⟩ := result_visible_of_answers policy none both
  obtain ⟨-, -, -, decides⟩ := result_visible_of_answers policy none neither
  refine ⟨⟨[(first, 0), (second, 1)], rfl, ?_, ?_⟩, ?_, ?_⟩
  · obtain ⟨-, -, together⟩ := shows [(first, 0), (second, 1)] rfl
    exact together 0 first 1 second rfl rfl rfl rfl
  · exact List.mem_cons_self
  · obtain ⟨consultation, member, failure⟩ : ∃ consultation ∈
        (policy.visible none both).trace, consultation.reply.verdict = .error fault :=
      ⟨_, .tail _ (.head _), rfl⟩
    exact (fails fault).mpr ⟨consultation, member, failure⟩
  · apply decides
    intro value member level atLevel
    obtain rfl := List.mem_singleton.mp member
    contradiction

end VisibilityPolicy

end AccessPolicy
