import AccessPolicy.Proofs.Session.History

/-!
# Decisions and the history of builds

All questions about peers are answered by the registry and by the directory that
is fixed for remote addresses.  These two depend on the latest build and on the
latest step that fixed the directory, so every other step, a build from a text
that cannot be read included, leaves the answers as they are.
-/

namespace AccessPolicy.Session

/-- Whether a step asks about the peers that are trusted. -/
def Step.asksAboutPeers : Step → Bool
  | .peer (.contains _) | .peer (.check _) | .peer (.gate _ _) => true
  | _ => false

namespace State

variable {step : Step} {steps : List Step}

/-- What a session answers about peers depends on its authorizer alone. -/
theorem answer_of_asksAboutPeers {first second : State}
    (asks : step.asksAboutPeers = true)
    (same : first.peers.authorizer = second.peers.authorizer) :
    (first.step step).1 = (second.step step).1 := by
  have sameRegistry : first.peers.registry = second.peers.registry :=
    congrArg PeerAuthorizer.registry same
  cases step with
  | item step => contradiction
  | peer step =>
      cases step with
      | contains address => simp only [State.step, PeerState.step, sameRegistry]
      | check remoteAddress => simp only [State.step, PeerState.step, same]
      | gate request requirements => simp only [State.step, PeerState.step, same]
      | _ => contradiction

/-- Without a step that fixes the directory the authorizer stays the same. -/
theorem authorizer_run (state : State)
    (unfixed : ∀ step ∈ steps, step.fixesDirectory = false) :
    (state.run steps).2.peers.authorizer = state.peers.authorizer := by
  have unbuilt : ∀ step ∈ steps, step.builds = false := fun step member =>
    Step.not_builds_of_not_fixesDirectory (unfixed step member)
  rw [PeerState.authorizer, registry_run state unbuilt, bound_run state unfixed,
    PeerState.authorizer]

/-- A build from a text that cannot be read changes nothing. -/
theorem step_buildFromText_of_error (state : State) {text words : String}
    {fault : ConfigurationFault} (unreadable : PeerSettings.parse text words = .error fault) :
    state.step (.peer (.buildFromText text words)) = (.peer (.notConfigured fault), state) := by
  simp only [State.step, PeerState.step, PeerState.adoptSettings, unreadable]

/-- What a session decides about peers is fixed by the history of its builds.

After any steps the registry is the one of the latest settings from which one
was built, with the directory as it was filled until then, and remote addresses
are resolved by the directory as it was filled until the latest build or
rebinding; without such a step both are those of a new session.  All questions
about peers are answered by these two, whatever else the steps have done.  So steps
that do not build leave the registry alone, steps that do not fix the directory
either leave every answer alone, and a build from a text that cannot be read does
nothing at all. -/
theorem decisions_of_history (steps : List Step) :
    let state := (State.start.run steps).2
    LeavesRegistry steps state.peers.registry ∧
      LeavesBound steps state.peers.bound ∧
      (∀ registry directory, LeavesRegistry steps registry → LeavesBound steps directory →
        let authorizer : PeerAuthorizer := { registry, resolver := directory.resolver }
        (∀ address, (state.step (.peer (.contains address))).1 =
          .peer (.contained (registry.contains address))) ∧
        (∀ remoteAddress, (state.step (.peer (.check remoteAddress))).1 =
          .peer (.checked (authorizer.check remoteAddress)
            (authorizer.isAuthorized remoteAddress))) ∧
        ∀ request requirements, (state.step (.peer (.gate request requirements))).1 =
          .peer (.admitted
            ((Gate.ofRequirements request requirements).admission authorizer))) ∧
      (∀ more : List Step, (∀ step ∈ more, step.builds = false) →
        (state.run more).2.peers.registry = state.peers.registry) ∧
      (∀ more : List Step, (∀ step ∈ more, step.fixesDirectory = false) →
        ∀ question : Step, question.asksAboutPeers = true →
          ((state.run more).2.step question).1 = (state.step question).1) ∧
      ∀ text words fault, PeerSettings.parse text words = .error fault →
        state.step (.peer (.buildFromText text words)) =
          (.peer (.notConfigured fault), state) := by
  intro state
  refine ⟨leavesRegistry_iff.mpr rfl, leavesBound_iff.mpr rfl, ?_, ?_, ?_, ?_⟩
  · intro registry directory isRegistry isBound
    obtain rfl := leavesRegistry_iff.mp isRegistry
    obtain rfl := leavesBound_iff.mp isBound
    exact ⟨fun address => rfl, fun remoteAddress => rfl, fun request requirements => rfl⟩
  · intro more unbuilt
    exact registry_run state unbuilt
  · intro more unfixed question asks
    exact answer_of_asksAboutPeers asks (authorizer_run state unfixed)
  · intro text words fault unreadable
    exact step_buildFromText_of_error state unreadable

/-- A host is given another address after a build, and a further build fails:
the peer is still trusted under the address that the host had at first. -/
theorem decision_after_failed_build :
    let host := "inbox.example"
    let settings : PeerSettings := { trustLoopback := true, hosts := host }
    let filled : List Step := [.peer (.addHost host (.v4 ⟨203, 0, 113, 5⟩))]
    let steps := filled ++ [.peer (.build settings)]
    let failing : Step := .peer (.buildFromText "=" "invalid key")
    let more : List Step := [.peer (.addHost host (.v4 ⟨127, 0, 0, 1⟩)), failing]
    let state := (State.start.run steps).2
    state.step failing =
        (.peer (.notConfigured { sourceName := "<inline>", message := "invalid key" }),
          state) ∧
      ((state.run more).2.step (.peer (.contains "203.0.113.5"))).1 =
        .peer (.contained true) ∧
      ((state.run more).2.step (.peer (.check host))).1 =
        .peer (.checked
          { decision := .denied, fallback := none, asked := [host] } false) := by
  intro host settings filled steps failing more state
  obtain ⟨-, -, answers, -, unchanged, failed⟩ := decisions_of_history steps
  have noDocument : Toml.Table.ofText? "=".toList = none := by
    decide +kernel
  have unreadable : PeerSettings.parse "=" "invalid key" = .error
      { sourceName := "<inline>", message := "invalid key" } := by
    rw [PeerSettings.parse, PeerSettings.ofText, noDocument]
    rfl
  have unfixed : ∀ step ∈ more, step.fixesDirectory = false := by
    have notBuilt : (PeerSettings.parse "=" "invalid key").toOption.isSome = false := by
      rw [unreadable]
      rfl
    intro step member
    rcases List.mem_cons.mp member with rfl | member
    · rfl
    · obtain rfl := List.mem_singleton.mp member
      exact notBuilt
  let authorizer : PeerAuthorizer :=
    { registry := (RegistryBuild.ofSettings (directoryAfter filled).resolver settings).registry
      resolver := (directoryAfter filled).resolver }
  have built : LeavesRegistry steps authorizer.registry :=
    .inl ⟨filled, _, settings, isLatestOf_append_singleton rfl filled, rfl, rfl⟩
  have fixed : LeavesBound steps (directoryAfter filled) :=
    .inl ⟨filled, _, isLatestOf_append_singleton rfl filled, rfl⟩
  obtain ⟨contains, check, -⟩ := answers _ _ built fixed
  have listed : authorizer.registry.contains "203.0.113.5" = true := by
    decide +kernel
  have denied : authorizer.check host =
      { decision := .denied, fallback := none, asked := [host] } := by
    decide +kernel
  have unauthorized : authorizer.isAuthorized host = false := by
    decide +kernel
  refine ⟨failed _ _ _ unreadable, ?_, ?_⟩
  · rw [unchanged more unfixed _ rfl, contains, listed]
  · rw [unchanged more unfixed _ rfl, check, denied, unauthorized]

end State

end AccessPolicy.Session
