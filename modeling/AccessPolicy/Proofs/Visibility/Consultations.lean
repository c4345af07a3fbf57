import AccessPolicy.Proofs.Visibility.Walk
import Mathlib.Data.List.Nodup

/-!
# Which questions a walk asks

A walk asks about subjects: a subject is a field at a level that restricts it
and has an evaluator.  What is asked follows from the subjects of the item
alone.  Each is asked about once, in the order in which the item first has
values for them, until one cannot be decided; neither what was answered nor
what was asked in an earlier walk takes a subject away.

The evaluators are not assumed to be consistent.  Each is the one that was
registered for its level, having heard all the questions put to it so far, and
this fixes its reply.
-/

namespace AccessPolicy

/-- What a question decides about: a field at a level. -/
abbrev Subject := Level × FieldName

/-- What a consultation decides about. -/
def Consultation.subject (consultation : Consultation) : Subject :=
  (consultation.level, consultation.query.field)

/-- The questions put to the evaluator of a level in some consultations. -/
def questionsAt (level : Level) (trace : List Consultation) : List Query :=
  (trace.filter (·.level = level)).map (·.query)

theorem questionsAt_append (level : Level) (first second : List Consultation) :
    questionsAt level (first ++ second) =
      questionsAt level first ++ questionsAt level second := by
  simp only [questionsAt, List.filter_append, List.map_append]

theorem questionsAt_singleton_self (consultation : Consultation) :
    questionsAt consultation.level [consultation] = [consultation.query] := by
  simp [questionsAt]

theorem questionsAt_singleton_of_ne {consultation : Consultation} {level : Level}
    (elsewhere : consultation.level ≠ level) : questionsAt level [consultation] = [] := by
  simp [questionsAt, elsewhere]

/-- An evaluator after some more questions. -/
def Evaluator.after (evaluator : Evaluator) (questions : List Query) : Evaluator :=
  questions.foldl (fun current question => (current.ask question).2) evaluator

@[simp]
theorem Evaluator.after_nil (evaluator : Evaluator) : evaluator.after [] = evaluator :=
  rfl

theorem Evaluator.after_append (evaluator : Evaluator) (first second : List Query) :
    evaluator.after (first ++ second) = (evaluator.after first).after second :=
  List.foldl_append

namespace VisibilityPolicy

variable {policy : VisibilityPolicy} {principal : Option Principal} {item : Item}
  {value : FieldValue} {level : Level} {evaluator : Evaluator}

/-! ## Policies that have heard questions -/

/-- A policy after some consultations: its evaluators have heard the questions
put to them. -/
def after (policy : VisibilityPolicy) (trace : List Consultation) : VisibilityPolicy where
  evaluator? := fun level =>
    (policy.evaluator? level).map (·.after (questionsAt level trace))

@[simp]
theorem after_nil (policy : VisibilityPolicy) : policy.after [] = policy := by
  simp only [after, questionsAt, List.filter_nil, List.map_nil, Evaluator.after_nil,
    Option.map_id']

theorem after_append (policy : VisibilityPolicy) (first second : List Consultation) :
    policy.after (first ++ second) = (policy.after first).after second := by
  simp only [after, questionsAt_append, Evaluator.after_append, Option.map_map,
    Function.comp_def]

/-- Putting back an evaluator that has been asked is hearing the question. -/
theorem register_ask (registered : policy.evaluator? level = some evaluator)
    (principal : Option Principal) (item : Item) (value : FieldValue) :
    policy.register level (evaluator.ask (queryAbout principal item value)).2 =
      policy.after [consultationAbout principal item level evaluator value] := by
  unfold register after
  congr 1
  funext other
  by_cases same : other = level
  · have heard : questionsAt level
          [consultationAbout principal item level evaluator value] =
        [queryAbout principal item value] := questionsAt_singleton_self _
    rw [if_pos same, same, registered, heard]
    rfl
  · rw [if_neg same, questionsAt_singleton_of_ne fun equal => same equal.symm]
    exact Option.map_id'.symm

/-- A policy holds a consultation when the question is asked for the principal
about the item, and the evaluator of the level replies as it does now. -/
structure Holds (policy : VisibilityPolicy) (principal : Option Principal)
    (item : Item) (consultation : Consultation) : Prop where
  principal_eq : consultation.query.principal = principal
  item_eq : consultation.query.item = item
  replies : ∃ evaluator, policy.evaluator? consultation.level = some evaluator ∧
    consultation.reply = (evaluator.ask consultation.query).1

theorem holds_consultationAbout (registered : policy.evaluator? level = some evaluator)
    (principal : Option Principal) (item : Item) (value : FieldValue) :
    policy.Holds principal item
      (consultationAbout principal item level evaluator value) where
  principal_eq := rfl
  item_eq := rfl
  replies := ⟨evaluator, registered, rfl⟩

/-! ## Asking about one subject after the other -/

/-- Some subjects are asked about in turn, until one of them cannot be
decided. -/
inductive Inquiry (principal : Option Principal) (item : Item) :
    VisibilityPolicy → List Subject → List Consultation → Prop
  | finished {policy : VisibilityPolicy} : Inquiry principal item policy [] []
  | failed {policy : VisibilityPolicy} {consultation : Consultation}
      {rest : List Subject} {error : AccessError} :
      policy.Holds principal item consultation →
      consultation.reply.verdict = .error error →
      Inquiry principal item policy (consultation.subject :: rest) [consultation]
  | answered {policy : VisibilityPolicy} {consultation : Consultation}
      {rest : List Subject} {trace : List Consultation} {allowed : Bool} :
      policy.Holds principal item consultation →
      consultation.reply.verdict = .ok allowed →
      Inquiry principal item (policy.after [consultation]) rest trace →
      Inquiry principal item policy (consultation.subject :: rest)
        (consultation :: trace)

namespace Inquiry

variable {subjects : List Subject} {trace before after : List Consultation}
  {consultation : Consultation}

/-- What is asked about are the first of the subjects, in their order. -/
theorem map_subject_prefix (inquiry : Inquiry principal item policy subjects trace) :
    trace.map Consultation.subject <+: subjects := by
  induction inquiry with
  | finished => exact List.nil_prefix
  | failed _ _ => exact List.prefix_append [_] _
  | answered _ _ _ ih => exact List.cons_prefix_cons.mpr ⟨rfl, ih⟩

theorem subject_mem (inquiry : Inquiry principal item policy subjects trace)
    (member : consultation ∈ trace) : consultation.subject ∈ subjects :=
  inquiry.map_subject_prefix.subset (List.mem_map_of_mem member)

theorem nodup_map_subject (inquiry : Inquiry principal item policy subjects trace)
    (distinct : subjects.Nodup) : (trace.map Consultation.subject).Nodup :=
  distinct.sublist inquiry.map_subject_prefix.sublist

/-- Where every subject can be decided, all of them are asked about. -/
theorem map_subject_eq (inquiry : Inquiry principal item policy subjects trace)
    (decided : ∀ consultation ∈ trace, ∃ allowed,
      consultation.reply.verdict = .ok allowed) :
    trace.map Consultation.subject = subjects := by
  induction inquiry with
  | finished => rfl
  | failed _ failure =>
      obtain ⟨allowed, answer⟩ := decided _ (List.mem_singleton_self _)
      rw [failure] at answer
      contradiction
  | answered _ _ _ ih =>
      rw [List.map_cons, ih fun later member =>
        decided later (List.mem_cons_of_mem _ member)]

/-- Nothing is asked after a subject that cannot be decided. -/
theorem eq_nil_of_error (inquiry : Inquiry principal item policy subjects trace)
    (split : trace = before ++ consultation :: after) {error : AccessError}
    (failure : consultation.reply.verdict = .error error) : after = [] := by
  induction inquiry generalizing before with
  | finished => simp at split
  | failed _ _ =>
      cases before with
      | nil => exact (List.cons.inj split).2.symm
      | cons first others => simp at split
  | answered _ answer _ ih =>
      cases before with
      | nil =>
          obtain ⟨rfl, -⟩ := List.cons.inj split
          rw [failure] at answer
          contradiction
      | cons first others => exact ih (List.cons.inj split).2

/-- Each consultation is held by the policy that has heard those before it. -/
theorem holds (inquiry : Inquiry principal item policy subjects trace)
    (split : trace = before ++ consultation :: after) :
    (policy.after before).Holds principal item consultation := by
  induction inquiry generalizing before with
  | finished => simp at split
  | failed held _ =>
      cases before with
      | nil =>
          obtain ⟨rfl, -⟩ := List.cons.inj split
          rw [after_nil]
          exact held
      | cons first others => simp at split
  | answered held _ _ ih =>
      cases before with
      | nil =>
          obtain ⟨rfl, -⟩ := List.cons.inj split
          rw [after_nil]
          exact held
      | cons first others =>
          obtain ⟨rfl, later⟩ := List.cons.inj split
          rw [← List.singleton_append, after_append]
          exact ih later

end Inquiry

/-! ## The subjects of an item -/

/-- What must be decided before a value can be shown, if anything must. -/
def subject? (policy : VisibilityPolicy) (value : FieldValue) : Option Subject :=
  (value.restriction?.filter fun level => (policy.evaluator? level).isSome).map
    fun level => (level, value.field)

/-- The subjects of an item, each where the item has its first value for it. -/
def subjects (policy : VisibilityPolicy) (item : Item) : List Subject :=
  (item.values.filterMap policy.subject?).eraseDups

/-- Dropping repetitions leaves none. -/
theorem nodup_eraseDups {α : Type*} [BEq α] [LawfulBEq α] :
    ∀ entries : List α, entries.eraseDups.Nodup
  | [] => by simp
  | first :: rest => by
      rw [List.eraseDups_cons, List.nodup_cons]
      constructor
      · simp
      · exact nodup_eraseDups _
termination_by entries => entries.length
decreasing_by exact Nat.lt_succ_of_le (List.length_filter_le _ _)

theorem nodup_subjects (policy : VisibilityPolicy) (item : Item) :
    (policy.subjects item).Nodup :=
  nodup_eraseDups _

theorem subject?_of_open (isOpen : value.restriction? = none) :
    policy.subject? value = none := by
  simp only [subject?, isOpen, Option.filter_none, Option.map_none]

theorem subject?_of_unregistered (restricted : value.restriction? = some level)
    (unregistered : policy.evaluator? level = none) :
    policy.subject? value = none := by
  simp [subject?, restricted, unregistered]

theorem subject?_of_registered (restricted : value.restriction? = some level)
    (registered : policy.evaluator? level = some evaluator) :
    policy.subject? value = some (level, value.field) := by
  simp [subject?, restricted, registered]

@[simp]
theorem isSome_evaluator?_after (policy : VisibilityPolicy) (trace : List Consultation)
    (level : Level) :
    ((policy.after trace).evaluator? level).isSome =
      (policy.evaluator? level).isSome :=
  Option.isSome_map

/-- What was asked before does not change the subjects. -/
@[simp]
theorem subject?_after (policy : VisibilityPolicy) (trace : List Consultation) :
    (policy.after trace).subject? = policy.subject? := by
  funext value
  simp only [subject?, isSome_evaluator?_after]

@[simp]
theorem subjects_after (policy : VisibilityPolicy) (trace : List Consultation)
    (item : Item) : (policy.after trace).subjects item = policy.subjects item := by
  simp only [subjects, subject?_after]

theorem subject?_eq_some_iff {field : FieldName} :
    policy.subject? value = some (level, field) ↔
      value.level = some level ∧ level ≠ Level.everyone ∧
        (policy.evaluator? level).isSome = true ∧ value.field = field := by
  simp only [subject?, Option.map_eq_some_iff, Option.filter_eq_some_iff,
    FieldValue.restriction?_eq_some_iff, Prod.mk.injEq]
  constructor
  · rintro ⟨other, ⟨⟨atLevel, restricts⟩, registered⟩, rfl, sameField⟩
    exact ⟨atLevel, restricts, registered, sameField⟩
  · rintro ⟨atLevel, restricts, registered, sameField⟩
    exact ⟨level, ⟨⟨atLevel, restricts⟩, registered⟩, rfl, sameField⟩

theorem mem_subjects_iff {field : FieldName} :
    (level, field) ∈ policy.subjects item ↔
      level ≠ Level.everyone ∧ (policy.evaluator? level).isSome = true ∧
        ∃ value ∈ item.values, value.level = some level ∧ value.field = field := by
  rw [subjects, List.mem_eraseDups, List.mem_filterMap]
  simp only [subject?_eq_some_iff]
  constructor
  · rintro ⟨value, member, atLevel, restricts, registered, sameField⟩
    exact ⟨restricts, registered, value, member, atLevel, sameField⟩
  · rintro ⟨restricts, registered, value, member, atLevel, sameField⟩
    exact ⟨value, member, atLevel, restricts, registered, sameField⟩

/-! ## The walk -/

/-- The subjects that are still to be asked about in a walk over some values. -/
def pending (policy : VisibilityPolicy) (decided : Decisions)
    (values : List IndexedValue) : List Subject :=
  ((values.filterMap fun value => policy.subject? value.1).filter
    fun subject => (decided.lookup subject).isNone).eraseDups

section Pending

variable {indexed : IndexedValue} {rest : List IndexedValue} {decided : Decisions}

@[simp]
theorem pending_after (trace : List Consultation) :
    (policy.after trace).pending decided rest = policy.pending decided rest := by
  simp only [pending, subject?_after]

theorem pending_cons_of_none (noSubject : policy.subject? indexed.1 = none) :
    policy.pending decided (indexed :: rest) = policy.pending decided rest := by
  simp only [pending, List.filterMap_cons, noSubject]

theorem pending_cons_of_decided {subject : Subject} {allowed : Bool}
    (about : policy.subject? indexed.1 = some subject)
    (known : decided.lookup subject = some allowed) :
    policy.pending decided (indexed :: rest) = policy.pending decided rest := by
  simp [pending, about, known]

/-- A subject that is asked about is not asked about again. -/
theorem pending_cons_of_unknown {subject : Subject}
    (about : policy.subject? indexed.1 = some subject)
    (unknown : decided.lookup subject = none) (allowed : Bool) :
    policy.pending decided (indexed :: rest) =
      subject :: policy.pending ((subject, allowed) :: decided) rest := by
  have stillUnknown : (decided.lookup subject).isNone = true := by
    rw [unknown, Option.isNone_none]
  simp only [pending, List.filterMap_cons, about]
  rw [List.filter_cons, if_pos stillUnknown, List.eraseDups_cons, List.filter_filter]
  congr 2
  apply List.filter_congr
  intro other _
  rw [List.lookup_cons]
  cases other == subject <;> simp

end Pending

/-- A walk is an inquiry about the subjects that are not yet decided, and leaves
the policy that has heard its questions. -/
theorem inquiry_walk (values : List IndexedValue) (decided : Decisions)
    (policy : VisibilityPolicy) :
    Inquiry principal item policy (policy.pending decided values)
        (walk principal item values decided policy).trace ∧
      (walk principal item values decided policy).policy =
        policy.after (walk principal item values decided policy).trace := by
  induction values generalizing decided policy with
  | nil => exact ⟨.finished, (after_nil policy).symm⟩
  | cons value rest ih =>
      cases restricted : value.1.restriction? with
      | none =>
          rw [walk_cons_of_open restricted,
            pending_cons_of_none (subject?_of_open restricted),
            Visibility.trace_showFirst, Visibility.policy_showFirst]
          exact ih decided policy
      | some level =>
          cases registered : policy.evaluator? level with
          | none =>
              have noSubject := subject?_of_unregistered restricted registered
              rw [walk_cons_of_unregistered restricted registered,
                pending_cons_of_none noSubject]
              exact ih decided policy
          | some evaluator =>
              have about := subject?_of_registered restricted registered
              cases known : decided.lookup (level, value.1.field) with
              | some allowed =>
                  rw [walk_cons_of_decided restricted registered known,
                    pending_cons_of_decided about known,
                    Visibility.trace_showFirst, Visibility.policy_showFirst]
                  exact ih decided policy
              | none =>
                  have held :=
                    holds_consultationAbout registered principal item value.1
                  have heard := register_ask registered principal item value.1
                  cases answered : (evaluator.ask
                      (queryAbout principal item value.1)).1.verdict with
                  | error error =>
                      rw [walk_cons_of_error restricted registered known answered,
                        pending_cons_of_unknown about known false]
                      exact ⟨.failed held answered, heard⟩
                  | ok allowed =>
                      obtain ⟨later, laterPolicy⟩ :=
                        ih (((level, value.1.field), allowed) :: decided)
                          (policy.after
                            [consultationAbout principal item level evaluator value.1])
                      rw [pending_after] at later
                      rw [walk_cons_of_answer restricted registered known answered,
                        pending_cons_of_unknown about known allowed, heard,
                        Visibility.trace_askedFirst, Visibility.policy_askedFirst,
                        Visibility.trace_showFirst, Visibility.policy_showFirst]
                      constructor
                      · exact .answered held answered later
                      · rw [laterPolicy, ← after_append, List.singleton_append]

theorem pending_zipIdx (policy : VisibilityPolicy) (item : Item) :
    policy.pending [] item.values.zipIdx = policy.subjects item := by
  have undecided : ∀ subject ∈
      item.values.zipIdx.filterMap fun value => policy.subject? value.1,
      (List.lookup subject ([] : Decisions)).isNone = true := fun _ _ => rfl
  rw [pending, List.filter_eq_self.mpr undecided, subjects]
  conv_rhs => rw [← List.zipIdx_map_fst 0 item.values, List.filterMap_map]
  rfl

/-- A walk over a whole item is an inquiry about all its subjects. -/
theorem inquiry_visible (policy : VisibilityPolicy) (principal : Option Principal)
    (item : Item) :
    Inquiry principal item policy (policy.subjects item)
      (policy.visible principal item).trace := by
  rw [← pending_zipIdx]
  exact (inquiry_walk _ _ policy).1

theorem policy_visible (policy : VisibilityPolicy) (principal : Option Principal)
    (item : Item) :
    (policy.visible principal item).policy =
      policy.after (policy.visible principal item).trace :=
  (inquiry_walk _ _ policy).2

/-- A walk asks about no subject twice. -/
theorem nodup_trace_visible (policy : VisibilityPolicy) (principal : Option Principal)
    (item : Item) :
    ((policy.visible principal item).trace.map Consultation.subject).Nodup :=
  (inquiry_visible policy principal item).nodup_map_subject (nodup_subjects policy item)

/-! ## One walk after another -/

/-- What comes of several walks with one policy, made in turn, each for a
principal and over an item. -/
def visibleEach (policy : VisibilityPolicy) : List (Option Principal × Item) → List Visibility
  | [] => []
  | (principal, item) :: others =>
      let outcome := policy.visible principal item
      outcome :: outcome.policy.visibleEach others

/-- The values that several principals may see of one item are found by walks
made in turn. -/
theorem visibleInTurn_eq_visibleEach (policy : VisibilityPolicy) (item : Item)
    (principals : List (Option Principal)) :
    policy.visibleInTurn item principals =
      policy.visibleEach (principals.map fun principal => (principal, item)) := by
  induction principals generalizing policy with
  | nil => rfl
  | cons principal others ih => rw [visibleInTurn, ih, List.map_cons, visibleEach]

/-- Later walks are made with the policy that has heard the questions of the
earlier ones. -/
theorem visibleEach_append (policy : VisibilityPolicy)
    (earlier later : List (Option Principal × Item)) :
    policy.visibleEach (earlier ++ later) =
      policy.visibleEach earlier ++
        (policy.after ((policy.visibleEach earlier).flatMap (·.trace))).visibleEach
          later := by
  induction earlier generalizing policy with
  | nil => rw [visibleEach, List.flatMap_nil, after_nil, List.nil_append, List.nil_append]
  | cons walk others ih =>
      simp only [List.cons_append, visibleEach, ih, policy_visible, List.flatMap_cons,
        after_append]

/-- Which consultations take place in one of any number of walks with a policy.

They are about the subjects of the item, each once and in the order of its first
value, up to the first that cannot be decided.  Each is put to the evaluator
that was registered for its level, on behalf of the principal and about the
item, and the evaluator replies as one that has heard exactly the questions put
to it before.  So no earlier walk keeps a question from being asked.  At the
level of everyone nothing is asked. -/
theorem trace_visibleEach (policy : VisibilityPolicy)
    (earlier later : List (Option Principal × Item)) (principal : Option Principal)
    (item : Item) :
    let heard := (policy.visibleEach earlier).flatMap (·.trace)
    let outcome := (policy.after heard).visible principal item
    policy.visibleEach (earlier ++ (principal, item) :: later) =
        policy.visibleEach earlier ++ outcome :: outcome.policy.visibleEach later ∧
      outcome.trace.map Consultation.subject <+: policy.subjects item ∧
      (outcome.trace.map Consultation.subject).Nodup ∧
      ((∀ consultation ∈ outcome.trace, ∃ allowed,
          consultation.reply.verdict = .ok allowed) →
        outcome.trace.map Consultation.subject = policy.subjects item) ∧
      (∀ before consultation after,
        outcome.trace = before ++ consultation :: after →
          (∀ error, consultation.reply.verdict = .error error → after = []) ∧
          consultation.query.principal = principal ∧
          consultation.query.item = item ∧
          ∃ evaluator, policy.evaluator? consultation.level = some evaluator ∧
            consultation.reply =
              ((evaluator.after (questionsAt consultation.level (heard ++ before))).ask
                consultation.query).1) ∧
      ∀ consultation ∈ outcome.trace, consultation.level ≠ Level.everyone := by
  intro heard outcome
  have inquiry := inquiry_visible (policy.after heard) principal item
  rw [subjects_after] at inquiry
  refine ⟨visibleEach_append policy earlier _, inquiry.map_subject_prefix,
    nodup_trace_visible _ principal item, inquiry.map_subject_eq, ?_, ?_⟩
  · intro before consultation after split
    obtain ⟨forPrincipal, aboutItem, current, registered, reply⟩ := inquiry.holds split
    rw [← after_append] at registered
    obtain ⟨evaluator, registeredFirst, rfl⟩ := Option.map_eq_some_iff.mp registered
    refine ⟨?_, forPrincipal, aboutItem, evaluator, registeredFirst, reply⟩
    intro error failure
    exact inquiry.eq_nil_of_error split failure
  · intro consultation member
    exact (mem_subjects_iff.mp (inquiry.subject_mem member)).1

/-- Two walks over one item.  The evaluator of the level has changed its mind by
the second, which asks again what the first has asked, and ends with a question
that cannot be decided. -/
theorem trace_of_second_walk :
    let fault : AccessError :=
      .retrieval { store := "metadata store", message := "connection refused" }
    let policy := ofRegistrations
      [(⟨0⟩, .rehearsed ⟨0⟩ [.error fault]),
        (⟨1⟩, .rehearsed ⟨1⟩ [.ok true, .ok false, .ok false, .error fault]),
        (⟨2⟩, .rehearsed ⟨2⟩ [.ok true])]
    let note : FieldName := { schema := "cris", element := "note" }
    let memo : FieldName := { schema := "cris", element := "memo" }
    let item : Item :=
      { id := "item"
        values :=
          [{ field := note, text := "a", level := some ⟨1⟩ },
            { field := note, text := "b", level := some ⟨3⟩ },
            { field := note, text := "c", level := some ⟨0⟩ },
            { field := note, text := "d", level := some ⟨1⟩ },
            { field := memo, text := "e", level := some ⟨1⟩ },
            { field := note, text := "f", level := some ⟨2⟩ }] }
    let heard := (policy.visibleEach [(none, item)]).flatMap (·.trace)
    let second := (policy.after heard).visible none item
    heard.map Consultation.subject = [(⟨1⟩, note), (⟨1⟩, memo), (⟨2⟩, note)] ∧
      policy.subjects item = heard.map Consultation.subject ∧
      second.trace.map Consultation.subject = [(⟨1⟩, note), (⟨1⟩, memo)] ∧
      ∃ before last after, second.trace = before ++ last :: after ∧
        last.reply.verdict = .error fault ∧ after = [] := by
  intro fault policy note memo item heard second
  obtain ⟨-, -, -, complete, -, -⟩ := trace_visibleEach policy [] [] none item
  obtain ⟨-, -, -, -, each, -⟩ := trace_visibleEach policy [(none, item)] [] none item
  refine ⟨rfl, ?_, rfl, ?_⟩
  · exact (complete (by decide)).symm
  · obtain ⟨before, last, after, split, failure⟩ : ∃ before last after,
        second.trace = before ++ last :: after ∧
          last.reply.verdict = .error fault := ⟨[_], _, [], rfl, rfl⟩
    exact ⟨before, last, after, split, failure,
      (each before last after split).1 fault failure⟩

end VisibilityPolicy

end AccessPolicy
