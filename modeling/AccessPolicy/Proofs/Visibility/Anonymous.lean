import AccessPolicy.Proofs.Visibility.Answers
import AccessPolicy.Proofs.Visibility.Collaborators
import AccessPolicy.Proofs.Visibility.Registrations

/-!
# What nobody sees

A policy may leave all its levels to the administrators who own the item, each
level with collaborators of its own.  To an anonymous request such a policy
shows the open values, and it comes to this without asking a collaborator:
whatever the collaborators would say, or failed to say, plays no part.
-/

namespace AccessPolicy

theorem Evaluator.Continues.after {first later : Evaluator}
    (continues : later.Continues first) (questions : List Query) :
    (later.after questions).Continues first := by
  induction questions generalizing later with
  | nil => exact continues
  | cons question rest ih => exact ih (continues.ask question)

namespace VisibilityPolicy

/-- A policy leaves its levels to the owners when each of its evaluators decides
about ownership, whatever it has been asked before. -/
def IsOwnersOnly (policy : VisibilityPolicy) : Prop :=
  ∀ level evaluator, policy.evaluator? level = some evaluator →
    ∃ ownership : Ownership, evaluator.Continues ownership.evaluator

variable {policy : VisibilityPolicy} {item : Item}

theorem isOwnersOnly_ofRegistrations {registrations : List (Level × Evaluator)}
    (owners : ∀ registration ∈ registrations, ∃ ownership : Ownership,
      registration.2 = ownership.evaluator) :
    (ofRegistrations registrations).IsOwnersOnly := by
  intro level evaluator registered
  obtain ⟨before, after, rfl, -⟩ :=
    evaluator?_ofRegistrations_eq_some_iff.mp registered
  obtain ⟨ownership, rfl⟩ := owners (level, evaluator) (by simp)
  exact ⟨ownership, Evaluator.Continues.refl _⟩

theorem IsOwnersOnly.after (owners : policy.IsOwnersOnly) (trace : List Consultation) :
    (policy.after trace).IsOwnersOnly := by
  intro level evaluator registered
  obtain ⟨before, registeredBefore, rfl⟩ := Option.map_eq_some_iff.mp registered
  obtain ⟨ownership, continues⟩ := owners level before registeredBefore
  exact ⟨ownership, continues.after _⟩

/-- Every consultation for nobody is refused without a call. -/
theorem IsOwnersOnly.reply_of_anonymous (owners : policy.IsOwnersOnly)
    {consultation : Consultation}
    (member : consultation ∈ (policy.visible none item).trace) :
    consultation.reply = { verdict := .ok false } := by
  obtain ⟨before, after, split⟩ := List.append_of_mem member
  obtain ⟨anonymous, -, evaluator, registered, reply⟩ :=
    (inquiry_visible policy none item).holds split
  obtain ⟨ownership, sameAnswers, -⟩ := owners.after before _ _ registered
  rw [reply, Evaluator.ask, sameAnswers]
  exact (Ownership.Decides.anonymous anonymous).decide_eq

/-- To nobody a policy of the owners shows the open values, without a call. -/
theorem IsOwnersOnly.visible_of_anonymous (owners : policy.IsOwnersOnly) (item : Item) :
    (policy.visible none item).result =
        .ok (item.values.zipIdx.filter fun value =>
          value.1.level = none ∨ value.1.level = some Level.everyone) ∧
      (policy.visible none item).calls = [] := by
  have refused : ∀ consultation ∈ (policy.visible none item).trace,
      consultation.reply = { verdict := .ok false } :=
    fun consultation member => owners.reply_of_anonymous member
  constructor
  · cases returned : (policy.visible none item).result with
    | error error =>
        obtain ⟨consultation, member, failure⟩ := result_visible_eq_error_iff.mp returned
        rw [refused consultation member] at failure
        contradiction
    | ok shown =>
        rw [eq_filter_of_result_visible returned]
        congr 1
        apply List.filter_congr
        intro value _
        rw [Bool.eq_iff_iff, showsBy_eq_true_iff, decide_eq_true_iff, ← or_assoc,
          or_iff_left]
        rintro ⟨level, -, -, allowed⟩
        obtain ⟨consultation, single, answer⟩ :=
          (lookup_decisionsOf_eq_some_iff (nodup_trace_visible policy none item)).mp
            allowed
        have member : consultation ∈ (policy.visible none item).trace := by
          apply List.mem_of_mem_filter
          rw [single]
          exact List.mem_singleton_self consultation
        rw [refused consultation member] at answer
        contradiction
  · rw [Visibility.calls, List.flatMap_eq_nil_iff]
    intro consultation member
    rw [refused consultation member]

end VisibilityPolicy

end AccessPolicy
