import AccessPolicy.Proofs.Visibility.Answers

/-!
# A level keeps to itself

Registering an evaluator for a level changes what happens at that level and
nowhere else.  Two policies that agree apart from one level are asked the same
questions at all the others, in the same order and with the same replies, as
long as neither walk breaks off at that level; so they show the same values
there.

The two walks are compared through their inquiries.  An inquiry is determined
by its policy and its subjects.  Leave out what one inquiry asks at the level,
and what remains is an inquiry with the other policy.
-/

namespace AccessPolicy

/-- The consultations at all levels but one. -/
def elsewhere (level : Level) (trace : List Consultation) : List Consultation :=
  trace.filter (·.level ≠ level)

section Elsewhere

variable {level : Level} {consultation : Consultation}

theorem elsewhere_cons_of_eq (same : consultation.level = level)
    (later : List Consultation) :
    elsewhere level (consultation :: later) = elsewhere level later := by
  simp [elsewhere, same]

theorem elsewhere_cons_of_ne (different : consultation.level ≠ level)
    (later : List Consultation) :
    elsewhere level (consultation :: later) = consultation :: elsewhere level later := by
  simp [elsewhere, different]

theorem filter_cons_subject_of_eq (same : consultation.level = level)
    (rest : List Subject) :
    (consultation.subject :: rest).filter (·.1 ≠ level) = rest.filter (·.1 ≠ level) := by
  simp [Consultation.subject, same]

theorem filter_cons_subject_of_ne (different : consultation.level ≠ level)
    (rest : List Subject) :
    (consultation.subject :: rest).filter (·.1 ≠ level) =
      consultation.subject :: rest.filter (·.1 ≠ level) := by
  simp [Consultation.subject, different]

end Elsewhere

/-- What is asked at another level is asked elsewhere. -/
theorem filter_subject_elsewhere {level other : Level} (different : other ≠ level)
    (field : FieldName) (trace : List Consultation) :
    (elsewhere level trace).filter (·.subject = (other, field)) =
      trace.filter (·.subject = (other, field)) := by
  rw [elsewhere, List.filter_filter]
  apply List.filter_congr
  intro consultation _
  by_cases about : consultation.subject = (other, field)
  · have atOther : consultation.level = other := congrArg Prod.fst about
    simp [about, atOther, different]
  · simp [about]

theorem questionsAt_elsewhere {level other : Level} (different : other ≠ level)
    (trace : List Consultation) :
    questionsAt other (elsewhere level trace) = questionsAt other trace := by
  rw [questionsAt, questionsAt, elsewhere, List.filter_filter]
  congr 1
  apply List.filter_congr
  intro consultation _
  by_cases atOther : consultation.level = other
  · simp [atOther, different]
  · simp [atOther]

/-- Some of the entries, each once, are what remains of the entries, each
once. -/
theorem filter_eraseDups {α : Type*} [BEq α] [LawfulBEq α] (keep : α → Bool) :
    ∀ entries : List α, entries.eraseDups.filter keep = (entries.filter keep).eraseDups
  | [] => rfl
  | first :: rest => by
      have later := filter_eraseDups keep (rest.filter fun other => !other == first)
      rw [List.eraseDups_cons]
      by_cases kept : keep first = true
      · rw [List.filter_cons_of_pos kept, List.filter_cons_of_pos kept,
          List.eraseDups_cons, later, List.filter_filter, List.filter_filter]
        simp only [Bool.and_comm]
      · have absent : ∀ other, (keep other && !other == first) = keep other := by
          intro other
          cases same : other == first with
          | false => simp
          | true => simp [beq_iff_eq.mp same, kept]
        rw [List.filter_cons_of_neg kept, List.filter_cons_of_neg kept, later,
          List.filter_filter]
        simp only [absent]
termination_by entries => entries.length
decreasing_by exact Nat.lt_succ_of_le (List.length_filter_le _ _)

namespace VisibilityPolicy

variable {first second policy : VisibilityPolicy} {principal : Option Principal}
  {item : Item} {value : FieldValue} {level : Level}

/-- Two policies agree apart from a level when every other level has the same
evaluator in both, with the same past. -/
def AgreesApartFrom (level : Level) (first second : VisibilityPolicy) : Prop :=
  ∀ other, other ≠ level → first.evaluator? other = second.evaluator? other

theorem agreesApartFrom_register (policy : VisibilityPolicy) (level : Level)
    (evaluator : Evaluator) : policy.AgreesApartFrom level (policy.register level evaluator) :=
  fun _ different => (evaluator?_register_of_ne different policy evaluator).symm

/-- Policies still agree when each has heard the same questions elsewhere. -/
theorem AgreesApartFrom.after (agree : first.AgreesApartFrom level second)
    {firstTrace secondTrace : List Consultation}
    (sameElsewhere : elsewhere level firstTrace = elsewhere level secondTrace) :
    (first.after firstTrace).AgreesApartFrom level (second.after secondTrace) := by
  intro other different
  have sameQuestions : questionsAt other firstTrace = questionsAt other secondTrace := by
    rw [← questionsAt_elsewhere different, sameElsewhere, questionsAt_elsewhere different]
  simp only [VisibilityPolicy.after, agree other different, sameQuestions]

/-! ## Inquiries -/

/-- The question that decides about a subject is fixed by the asker and the item. -/
theorem Holds.query_eq {consultation : Consultation}
    (held : policy.Holds principal item consultation) :
    consultation.query = { principal, item, field := consultation.subject.2 } := by
  rw [← held.principal_eq, ← held.item_eq]
  rfl

/-- What a policy replies about a subject leaves no choice. -/
theorem Holds.eq_of_subject_eq {one another : Consultation}
    (held : policy.Holds principal item one) (heldToo : policy.Holds principal item another)
    (sameSubject : one.subject = another.subject) : one = another := by
  have sameLevel : one.level = another.level := congrArg Prod.fst sameSubject
  have sameQuery : one.query = another.query := by
    rw [held.query_eq, heldToo.query_eq, sameSubject]
  have sameReply : one.reply = another.reply := by
    obtain ⟨evaluator, registered, replied⟩ := held.replies
    obtain ⟨other, registeredToo, repliedToo⟩ := heldToo.replies
    rw [sameLevel, registeredToo] at registered
    obtain rfl := Option.some.inj registered
    rw [replied, repliedToo, sameQuery]
  calc
    one = ⟨one.level, one.query, one.reply⟩ := rfl
    _ = another := by rw [sameLevel, sameQuery, sameReply]

/-- A consultation at another level is held by both policies or by neither. -/
theorem Holds.of_agreesApartFrom {consultation : Consultation}
    (held : first.Holds principal item consultation)
    (agree : first.AgreesApartFrom level second) (different : consultation.level ≠ level) :
    second.Holds principal item consultation where
  principal_eq := held.principal_eq
  item_eq := held.item_eq
  replies := by
    rw [← agree _ different]
    exact held.replies

namespace Inquiry

variable {subjects : List Subject} {trace : List Consultation}

/-- A policy is asked about some subjects in one way only. -/
theorem eq_of_subjects_eq {otherTrace : List Consultation}
    (inquiry : Inquiry principal item policy subjects trace)
    (other : Inquiry principal item policy subjects otherTrace) : trace = otherTrace := by
  induction inquiry generalizing otherTrace with
  | finished =>
      cases other
      rfl
  | @failed policy consultation rest error held failure =>
      generalize split : consultation.subject :: rest = subjects at other
      cases other with
      | finished => contradiction
      | failed heldToo _ =>
          rw [held.eq_of_subject_eq heldToo (List.cons.inj split).1]
      | answered heldToo answer _ =>
          rw [← held.eq_of_subject_eq heldToo (List.cons.inj split).1, failure] at answer
          contradiction
  | @answered policy consultation rest trace allowed held answer _ ih =>
      generalize split : consultation.subject :: rest = subjects at other
      cases other with
      | finished => contradiction
      | failed heldToo failure =>
          rw [← held.eq_of_subject_eq heldToo (List.cons.inj split).1, answer] at failure
          contradiction
      | answered heldToo _ later =>
          obtain ⟨sameSubject, rfl⟩ := List.cons.inj split
          obtain rfl := held.eq_of_subject_eq heldToo sameSubject
          rw [ih later]

/-- What remains of an inquiry that does not break off at a level is an inquiry
with a policy that agrees apart from it. -/
theorem elsewhere (inquiry : Inquiry principal item first subjects trace)
    (agree : first.AgreesApartFrom level second)
    (decided : ∀ consultation ∈ trace, consultation.level = level →
      ∃ allowed, consultation.reply.verdict = .ok allowed) :
    Inquiry principal item second (subjects.filter (·.1 ≠ level))
      (AccessPolicy.elsewhere level trace) := by
  induction inquiry generalizing second with
  | finished => exact .finished
  | @failed first consultation rest error held failure =>
      have different : consultation.level ≠ level := by
        intro same
        obtain ⟨allowed, answer⟩ := decided _ (List.mem_singleton_self _) same
        rw [failure] at answer
        contradiction
      rw [filter_cons_subject_of_ne different, elsewhere_cons_of_ne different]
      exact .failed (held.of_agreesApartFrom agree different) failure
  | @answered first consultation rest trace allowed held answer _ ih =>
      have decidedLater := (List.forall_mem_cons.mp decided).2
      by_cases same : consultation.level = level
      · have agreeLater := agree.after (elsewhere_cons_of_eq same [])
        rw [after_nil] at agreeLater
        rw [filter_cons_subject_of_eq same, elsewhere_cons_of_eq same]
        exact ih agreeLater decidedLater
      · rw [filter_cons_subject_of_ne same, elsewhere_cons_of_ne same]
        exact .answered (held.of_agreesApartFrom agree same) answer
          (ih (agree.after rfl) decidedLater)

end Inquiry

/-! ## Two walks -/

/-- A value at another level has the same subject in both policies. -/
theorem AgreesApartFrom.filter_subject? (agree : first.AgreesApartFrom level second)
    (value : FieldValue) :
    (first.subject? value).filter (·.1 ≠ level) =
      (second.subject? value).filter (·.1 ≠ level) := by
  rcases restricted : value.restriction? with _ | other
  · rw [subject?_of_open restricted, subject?_of_open restricted]
  · by_cases same : other = level
    · have atLevel (policy : VisibilityPolicy) :
          (policy.subject? value).filter (·.1 ≠ level) = none := by
        rw [subject?, restricted, Option.filter_eq_none_iff]
        simp [same]
      rw [atLevel first, atLevel second]
    · simp only [subject?, restricted, Option.filter_some, agree other same]

theorem AgreesApartFrom.filter_subjects (agree : first.AgreesApartFrom level second)
    (item : Item) :
    (first.subjects item).filter (·.1 ≠ level) =
      (second.subjects item).filter (·.1 ≠ level) := by
  rw [subjects, subjects, filter_eraseDups, filter_eraseDups, List.filter_filterMap,
    List.filter_filterMap]
  congr 2
  funext value
  exact agree.filter_subject? value

/-- Two walks that do not break off at a level hold the same consultations
elsewhere. -/
theorem AgreesApartFrom.elsewhere_trace_visible (agree : first.AgreesApartFrom level second)
    (firstDecided : ∀ consultation ∈ (first.visible principal item).trace,
      consultation.level = level → ∃ allowed, consultation.reply.verdict = .ok allowed)
    (secondDecided : ∀ consultation ∈ (second.visible principal item).trace,
      consultation.level = level → ∃ allowed, consultation.reply.verdict = .ok allowed) :
    elsewhere level (first.visible principal item).trace =
      elsewhere level (second.visible principal item).trace := by
  have one := (inquiry_visible first principal item).elsewhere agree firstDecided
  have two := (inquiry_visible second principal item).elsewhere
    (fun _ _ => rfl) secondDecided
  rw [agree.filter_subjects item] at one
  exact one.eq_of_subjects_eq two

/-- A walk that does not fail has an answer to each of its questions. -/
theorem decided_of_result_visible {shown : List IndexedValue}
    (returned : (policy.visible principal item).result = .ok shown) :
    ∀ consultation ∈ (policy.visible principal item).trace,
      ∃ allowed, consultation.reply.verdict = .ok allowed := by
  intro consultation member
  cases answered : consultation.reply.verdict with
  | ok allowed => exact ⟨allowed, rfl⟩
  | error error =>
      have failed := result_visible_eq_error_iff.mpr ⟨consultation, member, answered⟩
      rw [returned] at failed
      contradiction

/-- Nothing is asked at the level of everyone. -/
theorem level_ne_everyone_of_mem_trace {consultation : Consultation}
    (member : consultation ∈ (policy.visible principal item).trace) :
    consultation.level ≠ Level.everyone :=
  (mem_subjects_iff.mp ((inquiry_visible policy principal item).subject_mem member)).1

theorem elsewhere_everyone_trace (policy : VisibilityPolicy) (principal : Option Principal)
    (item : Item) :
    elsewhere Level.everyone (policy.visible principal item).trace =
      (policy.visible principal item).trace := by
  rw [elsewhere, List.filter_eq_self]
  intro consultation member
  exact decide_eq_true (level_ne_everyone_of_mem_trace member)

/-- Policies that agree apart from the level of everyone show the same. -/
theorem AgreesApartFrom.visible_of_everyone
    (agree : first.AgreesApartFrom Level.everyone second) (principal : Option Principal)
    (item : Item) :
    (first.visible principal item).trace = (second.visible principal item).trace ∧
      (first.visible principal item).result = (second.visible principal item).result := by
  have sameTrace : (first.visible principal item).trace =
      (second.visible principal item).trace := by
    rw [← elsewhere_everyone_trace first, ← elsewhere_everyone_trace second]
    apply agree.elsewhere_trace_visible
    · exact fun _ member same => absurd same (level_ne_everyone_of_mem_trace member)
    · exact fun _ member same => absurd same (level_ne_everyone_of_mem_trace member)
  have sameSubject : first.subject? = second.subject? := by
    funext value
    rcases restricted : value.restriction? with _ | level
    · rw [subject?_of_open restricted, subject?_of_open restricted]
    · have restricts := (FieldValue.restriction?_eq_some_iff.mp restricted).2
      simp only [subject?, restricted, Option.filter_some, agree level restricts]
  refine ⟨sameTrace, ?_⟩
  simp only [result_visible, resultBy, showsBy, sameTrace, sameSubject]

/-- Policies that agree apart from a level, and are asked the same elsewhere, show the
same values elsewhere. -/
theorem AgreesApartFrom.mem_shown_iff (agree : first.AgreesApartFrom level second)
    {shown shownToo : List (FieldValue × Nat)} {index : Nat}
    (returned : (first.visible principal item).result = .ok shown)
    (returnedToo : (second.visible principal item).result = .ok shownToo)
    (sameElsewhere : elsewhere level (first.visible principal item).trace =
      elsewhere level (second.visible principal item).trace)
    (stands : item.values[index]? = some value) (atOther : value.level ≠ some level) :
    (value, index) ∈ shown ↔ (value, index) ∈ shownToo := by
  rw [mem_of_result_visible_iff returned stands, mem_of_result_visible_iff returnedToo stands]
  refine or_congr_right (or_congr_right (exists_congr fun other => exists_congr fun _ =>
    and_congr_right fun atLevel => ?_))
  have different : other ≠ level := by
    rintro rfl
    exact atOther atLevel
  have sameAnswers := congrArg
    (List.filter fun consultation => consultation.subject = (other, value.field)) sameElsewhere
  rw [filter_subject_elsewhere different, filter_subject_elsewhere different] at sameAnswers
  rw [agree other different, sameAnswers]

/-- Levels are isolated.

Register an evaluator for a level and walk over an item.  If the walk succeeds
with and without the registration, it shows the same values at all other levels,
asks the same questions there in the same order and gets the same replies, and
leaves the evaluators of all other levels as it would have left them.  For the
level of everyone the registration changes nothing, errors included. -/
theorem visible_register (policy : VisibilityPolicy) (level : Level) (evaluator : Evaluator)
    (principal : Option Principal) (item : Item) :
    let without := policy.visible principal item
    let registered := (policy.register level evaluator).visible principal item
    (∀ shown shownToo, without.result = .ok shown → registered.result = .ok shownToo →
        (∀ index value, item.values[index]? = some value → value.level ≠ some level →
          ((value, index) ∈ shown ↔ (value, index) ∈ shownToo)) ∧
        elsewhere level without.trace = elsewhere level registered.trace ∧
        without.policy.AgreesApartFrom level registered.policy) ∧
      (level = Level.everyone →
        without.result = registered.result ∧ without.trace = registered.trace ∧
          without.policy.AgreesApartFrom level registered.policy) := by
  intro without registered
  have agree := agreesApartFrom_register policy level evaluator
  constructor
  · intro shown shownToo returned returnedToo
    have sameElsewhere : elsewhere level without.trace = elsewhere level registered.trace :=
      agree.elsewhere_trace_visible
        (fun consultation member _ => decided_of_result_visible returned consultation member)
        (fun consultation member _ =>
          decided_of_result_visible returnedToo consultation member)
    refine ⟨?_, sameElsewhere, ?_⟩
    · intro index value stands atOther
      exact agree.mem_shown_iff returned returnedToo sameElsewhere stands atOther
    · rw [policy_visible, policy_visible]
      exact agree.after sameElsewhere
  · rintro rfl
    obtain ⟨sameTrace, sameResult⟩ := agree.visible_of_everyone principal item
    refine ⟨sameResult, sameTrace, ?_⟩
    rw [policy_visible, policy_visible]
    exact agree.after (congrArg (elsewhere Level.everyone) sameTrace)

/-- Two fields, each with values at two levels.  A generous evaluator takes the
place of a strict one at the second level; the first level, whose evaluator
changes its mind, is asked and answers as before.  At the level of everyone the
generous evaluator changes nothing. -/
theorem visible_register_of_two_fields_at_two_levels :
    let policy := ofRegistrations
      [(⟨1⟩, .rehearsed ⟨1⟩ [.ok true, .ok false]), (⟨2⟩, .rehearsed ⟨2⟩ [.ok false])]
    let generous := Evaluator.rehearsed ⟨2⟩ [.ok true, .ok true]
    let note : FieldName := { schema := "cris", element := "note" }
    let memo : FieldName := { schema := "cris", element := "memo" }
    let first : FieldValue := { field := note, text := "a", level := some ⟨1⟩ }
    let second : FieldValue := { field := note, text := "b", level := some ⟨2⟩ }
    let third : FieldValue := { field := memo, text := "c", level := some ⟨2⟩ }
    let fourth : FieldValue := { field := memo, text := "d", level := some ⟨1⟩ }
    let item : Item := { id := "item", values := [first, second, third, fourth] }
    let without := policy.visible none item
    let registered := (policy.register ⟨2⟩ generous).visible none item
    let openly := (policy.register Level.everyone generous).visible none item
    without.result = .ok [(first, 0)] ∧
      registered.result = .ok [(first, 0), (second, 1), (third, 2)] ∧
      ((fourth, 3) ∈ [(first, 0)] ↔ (fourth, 3) ∈ [(first, 0), (second, 1), (third, 2)]) ∧
      (elsewhere ⟨2⟩ without.trace).map Consultation.subject =
        [(⟨1⟩, note), (⟨1⟩, memo)] ∧
      elsewhere ⟨2⟩ without.trace = elsewhere ⟨2⟩ registered.trace ∧
      without.result = openly.result := by
  intro policy generous note memo first second third fourth item without registered openly
  have shows : without.result = .ok [(first, 0)] := rfl
  have showsToo : registered.result = .ok [(first, 0), (second, 1), (third, 2)] := rfl
  obtain ⟨isolated, -⟩ := visible_register policy ⟨2⟩ generous none item
  obtain ⟨sameValues, sameElsewhere, -⟩ := isolated _ _ shows showsToo
  obtain ⟨-, unchanged⟩ := visible_register policy Level.everyone generous none item
  refine ⟨shows, showsToo, ?_, rfl, sameElsewhere, (unchanged rfl).1⟩
  exact sameValues 3 fourth rfl (by decide)

end VisibilityPolicy

end AccessPolicy
