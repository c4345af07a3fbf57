import AccessPolicy.Proofs.Gate.Admission
import AccessPolicy.Proofs.Session.History
import AccessPolicy.Proofs.Visibility.Anonymous
import AccessPolicy.Proofs.Visibility.OwnerAdministrators

/-!
# The principal carried from the gate

A question may be asked on behalf of the latest request.  It is then asked for
the principal of that request if the request has passed the gate, and for nobody
if it was turned away or if there was none.  What an earlier request was granted
does not outlive the next one.

The context is the only part of the state that such a question reads beside the
item and the policy, and only a step at the gate changes it.
-/

namespace AccessPolicy.Session

/-- Whether a step is a request at the gate. -/
def Step.isGate : Step → Bool
  | .peer (.gate _ _) => true
  | _ => false

theorem Step.admission?_of_not_isGate {step : Step} (leaves : step.isGate = false)
    (authorizer : PeerAuthorizer) : step.admission? authorizer = none := by
  cases step with
  | item step => rfl
  | peer step =>
      cases step with
      | gate request requirements => contradiction
      | _ => rfl

namespace State

variable {steps before : List Step} {request : Request}
  {requirements : List Requirement}

theorem context_step (state : State) (step : Step) :
    (state.step step).2.peers.context =
      (step.admission? state.peers.authorizer).elim state.peers.context
        (·.result.toOption) :=
  congrArg PeerState.context (peers_step state step)

/-- A context lasts until the next request. -/
theorem context_run (state : State) (noRequest : ∀ step ∈ steps, step.isGate = false) :
    (state.run steps).2.peers.context = state.peers.context := by
  refine run_unchanged (·.peers.context) (fun state step leaves => ?_) noRequest state
  rw [context_step, Step.admission?_of_not_isGate leaves, Option.elim_none]

/-- The request of a step at the gate, tried with the peers trusted at the
time. -/
def admissionAfter (before : List Step) (request : Request)
    (requirements : List Requirement) : Admission :=
  (Gate.ofRequirements request requirements).admission
    (start.run before).2.peers.authorizer

/-- The context of a session is what came of its latest request. -/
theorem context_run_start
    (latest : IsLatestOf Step.isGate steps before (.peer (.gate request requirements))) :
    (start.run steps).2.peers.context =
      (admissionAfter before request requirements).result.toOption := by
  obtain ⟨-, after, rfl, noRequest⟩ := latest
  rw [run_append_snd, run_cons, context_run _ noRequest, context_step, Step.admission?,
    Option.elim_some, admissionAfter]

/-- The latest request, if it was accepted, is the one on whose behalf questions
are asked. -/
theorem contextPrincipal_of_accepted {context : RequestContext}
    (latest : IsLatestOf Step.isGate steps before (.peer (.gate request requirements)))
    (accepted : (admissionAfter before request requirements).result = .ok context) :
    (start.run steps).2.contextPrincipal = request.principal := by
  obtain ⟨-, rfl⟩ := Gate.result_eq_ok_iff.mp accepted
  rw [contextPrincipal, context_run_start latest, accepted]
  rfl

theorem contextPrincipal_of_refused {violation : Violation}
    (latest : IsLatestOf Step.isGate steps before (.peer (.gate request requirements)))
    (refused : (admissionAfter before request requirements).result = .error violation) :
    (start.run steps).2.contextPrincipal = none := by
  rw [contextPrincipal, context_run_start latest, refused]
  rfl

theorem contextPrincipal_of_no_request
    (noRequest : ∀ step ∈ steps, step.isGate = false) :
    (start.run steps).2.contextPrincipal = none := by
  rw [contextPrincipal, context_run start noRequest]
  rfl

/-- Questions on behalf of the latest request are asked for a principal.  The policy
shows what it shows to the principal, and ownership is decided for the principal.
It comes to the same as naming the principal: the same answers, with the same calls,
and the same state afterwards. -/
structure AsksFor (state : State) (principal : Option Principal) : Prop where
  visible_answer : (state.step (.item (.visible .ofContext))).1 =
    .item (.shown (state.items.policy.visible principal state.items.item))
  decide_answer : ∀ ownership field,
    (state.step (.item (.decide ownership .ofContext field))).1 =
      .item (.decided (ownership.decide
        { principal := principal, item := state.items.item, field := field }))
  visible_named : state.step (.item (.visible .ofContext)) =
    state.step (.item (.visible (.named principal)))
  decide_named : ∀ ownership field,
    state.step (.item (.decide ownership .ofContext field)) =
      state.step (.item (.decide ownership (.named principal) field))

theorem asksFor_of_contextPrincipal_eq {state : State} {principal : Option Principal}
    (carried : state.contextPrincipal = principal) : state.AsksFor principal := by
  subst carried
  constructor
  · rfl
  · intro ownership field
    rfl
  · rfl
  · intro ownership field
    rfl

/-- On whose behalf a session answers.

After any steps, a question on behalf of the latest request is asked for the
principal of that request, if the request was accepted, and for nobody if it was
turned away or no request was made.  So after a request that was turned away
ownership is denied without a call, and a policy of the owners shows the open
values alone, whoever was accepted before. -/
theorem answers_ofContext (steps : List Step) :
    let state := (State.start.run steps).2
    (∀ before request requirements admission,
        IsLatestOf Step.isGate steps before (.peer (.gate request requirements)) →
        ((State.start.run before).2.step (.peer (.gate request requirements))).1 =
            .peer (.admitted admission) →
          (∀ context, admission.result = .ok context → state.AsksFor request.principal) ∧
          ∀ violation, admission.result = .error violation →
            state.AsksFor none ∧
              (∀ ownership field,
                (state.step (.item (.decide ownership .ofContext field))).1 =
                  .item (.decided { verdict := .ok false, calls := [] })) ∧
              (state.items.policy.IsOwnersOnly → ∃ outcome,
                (state.step (.item (.visible .ofContext))).1 = .item (.shown outcome) ∧
                  outcome.result = .ok (state.items.item.values.zipIdx.filter
                    fun value => value.1.level = none ∨
                      value.1.level = some Level.everyone) ∧
                  outcome.calls = [])) ∧
      ((∀ step ∈ steps, step.isGate = false) → state.AsksFor none) := by
  intro state
  constructor
  · intro before request requirements admission latest answered
    obtain rfl : admissionAfter before request requirements = admission :=
      PeerAnswer.admitted.inj (Answer.peer.inj answered)
    constructor
    · intro context accepted
      exact asksFor_of_contextPrincipal_eq (contextPrincipal_of_accepted latest accepted)
    · intro violation refused
      have forNobody : state.AsksFor none :=
        asksFor_of_contextPrincipal_eq (contextPrincipal_of_refused latest refused)
      refine ⟨forNobody, ?_, ?_⟩
      · intro ownership field
        rw [forNobody.decide_answer]
        rfl
      · intro owners
        exact ⟨_, forNobody.visible_answer, owners.visible_of_anonymous state.items.item⟩
  · intro noRequest
    exact asksFor_of_contextPrincipal_eq (contextPrincipal_of_no_request noRequest)

/-- An administrator who owns the item passes the gate, and then comes again from
a peer that is not trusted: the restricted value, seen after the first request,
is not shown after the second. -/
theorem answers_after_refusal :
    let alice : Principal := { id := ⟨"7"⟩, name := "Alice" }
    let request : Request :=
      { id := "r", principal := some alice, remoteAddress := "203.0.113.5" }
    let prepared : List Step :=
      [.item (.addOwner "Alice" "7"),
        .item (.push
          { field := { schema := "cris", element := "note" }
            text := "for the owner"
            level := some Level.ownerAdministrators }),
        .item (.setPolicy
          [(Level.ownerAdministrators, (Ownership.ofRoster [⟨"7"⟩]).evaluator)])]
    let accepted := prepared ++ [.peer (.gate request [.authenticated])]
    let refused := accepted ++ [.peer (.gate request [.trustedPeer]), .item .dump]
    (State.start.run accepted).2.AsksFor (some alice) ∧
      (∃ outcome,
        ((State.start.run accepted).2.step (.item (.visible .ofContext))).1 =
            .item (.shown outcome) ∧
          outcome.result.map (·.map Prod.snd) = .ok [0, 1]) ∧
      (State.start.run refused).2.AsksFor none ∧
      ∃ outcome,
        ((State.start.run refused).2.step (.item (.visible .ofContext))).1 =
            .item (.shown outcome) ∧
          outcome.result.map (·.map Prod.snd) = .ok [0] := by
  intro alice request prepared accepted refused
  obtain ⟨afterAccepted, -⟩ := answers_ofContext accepted
  obtain ⟨afterRefused, -⟩ := answers_ofContext refused
  have latestAccepted : IsLatestOf Step.isGate accepted prepared
      (.peer (.gate request [.authenticated])) :=
    isLatestOf_append_singleton rfl prepared
  have latestRefused : IsLatestOf Step.isGate refused accepted
      (.peer (.gate request [.trustedPeer])) := by
    refine ⟨rfl, [.item .dump], rfl, ?_⟩
    intro later member
    rw [List.mem_singleton.mp member]
    rfl
  have owners : (State.start.run refused).2.items.policy.IsOwnersOnly := by
    apply VisibilityPolicy.isOwnersOnly_ofRegistrations
    intro registration member
    obtain rfl := List.mem_singleton.mp member
    exact ⟨_, rfl⟩
  obtain ⟨whenAccepted, -⟩ := afterAccepted _ _ _ _ latestAccepted rfl
  have forAlice : (State.start.run accepted).2.AsksFor (some alice) := whenAccepted _ rfl
  obtain ⟨-, whenRefused⟩ := afterRefused _ _ _ _ latestRefused rfl
  obtain ⟨forNobody, -, shows⟩ := whenRefused
    { kind := .untrustedPeer "203.0.113.5"
      message := "Remote address is not a trusted notification peer" } rfl
  obtain ⟨outcome, shown, result, -⟩ := shows owners
  have isPolicy : (State.start.run accepted).2.items.policy =
      .ofRosters [(Level.ownerAdministrators, [⟨"7"⟩])] := rfl
  refine ⟨forAlice, ⟨_, forAlice.visible_answer, ?_⟩, forNobody, outcome, shown, ?_⟩
  · rw [isPolicy, VisibilityPolicy.result_visible_ofRosters]
    rfl
  · rw [result]
    rfl

end State

end AccessPolicy.Session
