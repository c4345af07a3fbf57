import AccessPolicy.Proofs.Gate.Requirements
import AccessPolicy.Proofs.Peer.Decision

/-!
# Which requests pass the gate

A request passes exactly when it meets every requirement that was set on it, in
whatever order and however often.  A request that is turned away is told about
the first requirement that it does not meet, and one that passes may use the
inbox exactly when its peer was required to be trusted, and then it is.
-/

namespace AccessPolicy.Gate

open Requirement

variable {authorizer : PeerAuthorizer} {request : Request}
  {required : List Requirement}

/-- The context of a request that has passed a gate. -/
def contextFor (request : Request) (required : List Requirement) : RequestContext where
  requestId := request.id
  principal := request.principal
  remoteAddress := request.remoteAddress
  mayUseInbox := decide (Requirement.trustedPeer ∈ required)

/-- The result at a gate: the violation of the first requirement that is not
met, or else a context. -/
theorem result_admission (gate : Gate) :
    (gate.admission authorizer).result =
      match gate.requirements.find? fun requirement =>
          ¬requirement.IsMet authorizer gate.request with
      | some failed => .error (failed.refusal gate.request)
      | none => .ok (contextFor gate.request gate.requirements) := by
  simp only [admission, firstViolation?_eq, contextFor, List.contains_eq_mem]
  cases gate.requirements.find? fun requirement =>
    ¬requirement.IsMet authorizer gate.request <;> rfl

theorem asked_admission (gate : Gate) :
    (gate.admission authorizer).asked =
      (tried authorizer gate.request gate.requirements).flatMap
        (hostsAsked authorizer gate.request) := by
  simp only [admission, firstViolation?_eq]
  cases gate.requirements.find? fun requirement =>
    ¬requirement.IsMet authorizer gate.request <;> rfl

theorem contextFor_ofRequirements :
    contextFor request (ofRequirements request required).requirements =
      contextFor request required := by
  simp only [contextFor, mem_requirements_ofRequirements]

/-- Setting a requirement again makes no difference to the result. -/
theorem result_admission_ofRequirements :
    ((ofRequirements request required).admission authorizer).result =
      match required.find? fun requirement =>
          ¬requirement.IsMet authorizer request with
      | some failed => .error (failed.refusal request)
      | none => .ok (contextFor request required) := by
  rw [result_admission, request_ofRequirements, contextFor_ofRequirements,
    find?_requirements_ofRequirements]

/-- A request passes when it meets all that was set on it. -/
theorem result_eq_ok_iff {context : RequestContext} :
    ((ofRequirements request required).admission authorizer).result = .ok context ↔
      (∀ requirement ∈ required, requirement.IsMet authorizer request) ∧
        context = contextFor request required := by
  rw [result_admission_ofRequirements]
  cases found : required.find? fun requirement =>
      ¬requirement.IsMet authorizer request with
  | none =>
      have allMet : ∀ requirement ∈ required,
          requirement.IsMet authorizer request := by
        simpa using List.find?_eq_none.mp found
      rw [Except.ok.injEq, and_iff_right allMet, eq_comm]
  | some failed =>
      have failure : ¬failed.IsMet authorizer request := by
        simpa using List.find?_some found
      simp only [reduceCtorEq, false_iff]
      rintro ⟨allMet, -⟩
      exact failure (allMet failed (List.mem_of_find?_eq_some found))

/-- A request is turned away for the first requirement that it does not
meet. -/
theorem result_eq_error_iff {violation : Violation} :
    ((ofRequirements request required).admission authorizer).result =
        .error violation ↔
      ∃ before failed after, required = before ++ failed :: after ∧
        (∀ earlier ∈ before, earlier.IsMet authorizer request) ∧
        ¬failed.IsMet authorizer request ∧ violation = failed.refusal request := by
  have firstFailed {failed : Requirement} :
      (required.find? fun requirement =>
          ¬requirement.IsMet authorizer request) = some failed ↔
        ¬failed.IsMet authorizer request ∧
          ∃ before after, required = before ++ failed :: after ∧
            ∀ earlier ∈ before, earlier.IsMet authorizer request := by
    rw [List.find?_eq_some_iff_append]
    simp
  rw [result_admission_ofRequirements]
  constructor
  · intro refused
    split at refused
    · rename_i failed found
      obtain ⟨failure, before, after, split, met⟩ := firstFailed.mp found
      exact ⟨before, failed, after, split, met, failure,
        (Except.error.inj refused).symm⟩
    · contradiction
  · rintro ⟨before, failed, after, split, met, failure, rfl⟩
    rw [firstFailed.mpr ⟨failure, before, after, split, met⟩]

/-- The resolver is asked only if the requirement of a trusted peer is tried,
and then once. -/
theorem asked_admission_ofRequirements :
    ((ofRequirements request required).admission authorizer).asked =
      if .trustedPeer ∈ tried authorizer request required then
        (authorizer.check request.remoteAddress).asked
      else [] := by
  have distinct := (nodup_requirements_ofRequirements request required).sublist
    (tried_sublist authorizer request _)
  rw [asked_admission, request_ofRequirements, flatMap_hostsAsked distinct]
  simp only [mem_tried_requirements_ofRequirements]

theorem forall_isMet_iff :
    (∀ requirement ∈ required, requirement.IsMet authorizer request) ↔
      (.authenticated ∈ required → request.principal ≠ none) ∧
        (.trustedPeer ∈ required →
          (authorizer.check request.remoteAddress).decision ≠ .denied) := by
  constructor
  · intro allMet
    exact ⟨allMet .authenticated, allMet .trustedPeer⟩
  · rintro ⟨known, trusted⟩ requirement member
    cases requirement with
    | authenticated => exact known member
    | trustedPeer => exact trusted member

theorem trustedPeer_mem_tried_iff :
    .trustedPeer ∈ tried authorizer request required ↔
      ∃ before after, required = before ++ .trustedPeer :: after ∧
        .trustedPeer ∉ before ∧
        (.authenticated ∈ before → request.principal ≠ none) := by
  rw [mem_tried_iff]
  apply exists_congr; intro before
  apply exists_congr; intro after
  apply and_congr_right; intro _
  apply and_congr_right; intro absent
  rw [forall_isMet_iff, and_iff_left fun member => absurd member absent]

/-- What becomes of a request, for every sequence of requirements set on it.

It passes when each kind of requirement among them is met.  Its context then
repeats what the request says and opens the inbox exactly when the peer was
required to be trusted, which it then is.  Otherwise it is told about the first
requirement that it does not meet.  The resolver is asked once, for the remote
address, if the requirement of a trusted peer is reached while the host itself
is trusted, and not at all in any other case.  Neither the order of the
requirements nor their repetition changes what is let through. -/
theorem admission_ofRequirements (authorizer : PeerAuthorizer) (request : Request)
    (required : List Requirement) :
    let admission := (ofRequirements request required).admission authorizer
    let known := request.principal ≠ none
    let trusted := (authorizer.check request.remoteAddress).decision ≠ .denied
    let peerReached := ∃ before after, required = before ++ .trustedPeer :: after ∧
      .trustedPeer ∉ before ∧ (.authenticated ∈ before → known)
    ((∃ context, admission.result = .ok context) ↔
        (.authenticated ∈ required → known) ∧ (.trustedPeer ∈ required → trusted)) ∧
      (∀ context, admission.result = .ok context →
        context.requestId = request.id ∧ context.principal = request.principal ∧
        context.remoteAddress = request.remoteAddress ∧
        (context.mayUseInbox = true ↔ .trustedPeer ∈ required) ∧
        (context.mayUseInbox = true → trusted)) ∧
      (∀ violation, admission.result = .error violation ↔
        ∃ before failed after, required = before ++ failed :: after ∧
          (∀ earlier ∈ before, earlier.IsMet authorizer request) ∧
          ¬failed.IsMet authorizer request ∧ violation = failed.refusal request) ∧
      (authorizer.registry.trustsLoopback = true ∧ peerReached →
        admission.asked = [request.remoteAddress]) ∧
      (¬(authorizer.registry.trustsLoopback = true ∧ peerReached) →
        admission.asked = []) ∧
      (∀ other : List Requirement,
        (∀ requirement, requirement ∈ other ↔ requirement ∈ required) →
        ∀ context,
          ((ofRequirements request other).admission authorizer).result = .ok context ↔
            admission.result = .ok context) := by
  intro admission known trusted peerReached
  have passes {context : RequestContext} : admission.result = .ok context ↔
      ((.authenticated ∈ required → known) ∧ (.trustedPeer ∈ required → trusted)) ∧
        context = contextFor request required := by
    rw [← forall_isMet_iff]
    exact result_eq_ok_iff
  have asks : admission.asked =
      if .trustedPeer ∈ tried authorizer request required then
        (authorizer.check request.remoteAddress).asked
      else [] := asked_admission_ofRequirements
  rw [PeerAuthorizer.asked_check] at asks
  refine ⟨?_, ?_, fun violation => result_eq_error_iff, ?_, ?_, ?_⟩
  · simp only [passes, exists_and_left, exists_eq, and_true]
  · intro context passed
    obtain ⟨⟨-, peer⟩, rfl⟩ := passes.mp passed
    refine ⟨rfl, rfl, rfl, decide_eq_true_iff, ?_⟩
    intro mayUseInbox
    exact peer (decide_eq_true_iff.mp mayUseInbox)
  · rintro ⟨trustsLoopback, reached⟩
    rw [asks, if_pos (trustedPeer_mem_tried_iff.mpr reached), if_pos trustsLoopback]
  · intro notAsked
    rw [asks]
    split
    · rename_i member
      rw [if_neg]
      intro trustsLoopback
      exact notAsked ⟨trustsLoopback, trustedPeer_mem_tried_iff.mp member⟩
    · rfl
  · intro other same context
    rw [passes, result_eq_ok_iff, forall_isMet_iff, contextFor, contextFor]
    simp only [same, known, trusted]

/-- An anonymous request from a listed peer, with a requirement set twice: the
peer is looked at first and the resolver is asked once, then the request is
turned away for want of a principal.  In another order it does not pass
either. -/
theorem admission_of_anonymous_listed_peer :
    let authorizer : PeerAuthorizer :=
      { registry := (RegistryBuild.ofSettings HostTable.empty.resolver
          { trustLoopback := true, addresses := "203.0.113.5" }).registry
        resolver := HostTable.empty.resolver }
    let request : Request :=
      { id := "r", principal := none, remoteAddress := "203.0.113.5" }
    let admission := (ofRequirements request
      [.trustedPeer, .authenticated, .trustedPeer]).admission authorizer
    admission.asked = ["203.0.113.5"] ∧
      admission.result = .error
        { kind := .unauthenticated, message := "Authentication required" } ∧
      ∀ context, ((ofRequirements request [.authenticated, .trustedPeer]).admission
        authorizer).result ≠ .ok context := by
  intro authorizer request admission
  obtain ⟨-, -, refused, asks, -, reordered⟩ := admission_ofRequirements
    authorizer request [.trustedPeer, .authenticated, .trustedPeer]
  have result : admission.result = .error (refusal request .authenticated) := by
    apply (refused _).mpr
    exact ⟨[.trustedPeer], .authenticated, [.trustedPeer], rfl, by decide, by decide,
      rfl⟩
  refine ⟨?_, result, ?_⟩
  · exact asks ⟨by decide, [], [.authenticated, .trustedPeer], rfl, by decide,
      by decide⟩
  · intro context passed
    have same : ∀ requirement : Requirement,
        requirement ∈ [Requirement.authenticated, .trustedPeer] ↔
          requirement ∈ [Requirement.trustedPeer, .authenticated, .trustedPeer] := by
      intro requirement
      cases requirement <;> decide
    have passedBefore := (reordered _ same context).mp passed
    rw [result] at passedBefore
    contradiction

end AccessPolicy.Gate
