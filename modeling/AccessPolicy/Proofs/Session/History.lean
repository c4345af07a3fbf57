import AccessPolicy.Session.Run

/-!
# The peer side in the course of a session

Few steps change the peer side, and each of its parts is changed by steps of its
own kind.  The directory is filled by the hosts and exceptions that are added.
The registry is the one of the latest build, with the directory as it was then.
Remote addresses are resolved by the directory of the latest step that fixed it.

What a step does to the peer side is said once, for all its parts.  What a run
does to a part follows by induction: the part is as the latest step of its kind
has left it.  What that is can be read off the history alone, without the states
in between.
-/

namespace AccessPolicy.Session

namespace Step

/-- A directory with what a step adds to it. -/
def addedTo (directory : HostDirectory) : Step → HostDirectory
  | .peer (.addHost host address) => directory.addHost host address
  | .peer (.makeException host exception) => directory.addException host exception
  | _ => directory

/-- The settings from which a step builds a registry, if it builds one. -/
def settings? : Step → Option PeerSettings
  | .peer (.build settings) => some settings
  | .peer (.buildFromText text words) => (PeerSettings.parse text words).toOption
  | _ => none

/-- Whether a step builds a registry. -/
def builds (step : Step) : Bool :=
  step.settings?.isSome

/-- Whether a step fixes the directory for remote addresses, as every build
does. -/
def fixesDirectory : Step → Bool
  | .peer .rebind => true
  | step => step.builds

/-- What comes of the request at the gate, if a step is one. -/
def admission? (authorizer : PeerAuthorizer) : Step → Option Admission
  | .peer (.gate request requirements) =>
      some ((Gate.ofRequirements request requirements).admission authorizer)
  | _ => none

theorem settings?_of_not_builds {step : Step} (leaves : step.builds = false) :
    step.settings? = none :=
  Option.isNone_iff_eq_none.mp (Option.isSome_eq_false_iff.mp leaves)

/-- What does not fix the directory does not build either. -/
theorem not_builds_of_not_fixesDirectory {step : Step}
    (leaves : step.fixesDirectory = false) : step.builds = false := by
  cases step with
  | item step => rfl
  | peer step =>
      cases step with
      | rebind => rfl
      | _ => exact leaves

end Step

/-- In a history, a step is the latest of a kind, and the others are before
it. -/
def IsLatestOf (kind : Step → Bool) (history before : List Step) (step : Step) : Prop :=
  kind step = true ∧
    ∃ after, history = before ++ step :: after ∧ ∀ later ∈ after, kind later = false

/-- The last step of a history is the latest of its kind. -/
theorem isLatestOf_append_singleton {kind : Step → Bool} {step : Step}
    (isKind : kind step = true) (before : List Step) :
    IsLatestOf kind (before ++ [step]) before step :=
  ⟨isKind, [], rfl, fun _ member => absurd member List.not_mem_nil⟩

/-- A history has a latest step of a kind or no step of that kind. -/
theorem exists_isLatestOf_or (kind : Step → Bool) (history : List Step) :
    (∃ before step, IsLatestOf kind history before step) ∨
      ∀ step ∈ history, kind step = false := by
  induction history with
  | nil => exact .inr fun _ member => absurd member List.not_mem_nil
  | cons first rest ih =>
      rcases ih with ⟨before, step, isKind, after, rfl, later⟩ | absent
      · exact .inl ⟨first :: before, step, isKind, after, rfl, later⟩
      · cases isKind : kind first with
        | true => exact .inl ⟨[], first, isKind, rest, rfl, absent⟩
        | false => exact .inr (List.forall_mem_cons.mpr ⟨isKind, absent⟩)

/-- The directory that some steps have filled. -/
def directoryAfter (steps : List Step) : HostDirectory :=
  steps.foldl Step.addedTo .empty

/-- The registry that some steps leave: the one of the latest settings from which
one was built, with the directory as it was filled until then, or that of a new
session if none was built. -/
def LeavesRegistry (steps : List Step) (registry : PeerRegistry) : Prop :=
  (∃ before step settings, IsLatestOf Step.builds steps before step ∧
      step.settings? = some settings ∧
      registry =
        (RegistryBuild.ofSettings (directoryAfter before).resolver settings).registry) ∨
    (∀ step ∈ steps, step.builds = false) ∧
      registry = (RegistryBuild.ofSettings HostDirectory.empty.resolver {}).registry

/-- The directory for remote addresses that some steps leave: the one that was
filled until the latest step that fixed it, or an empty one. -/
def LeavesBound (steps : List Step) (directory : HostDirectory) : Prop :=
  (∃ before step, IsLatestOf Step.fixesDirectory steps before step ∧
      directory = directoryAfter before) ∨
    (∀ step ∈ steps, step.fixesDirectory = false) ∧ directory = .empty

namespace State

variable {state : State} {step : Step} {steps : List Step}

/-! ## One step -/

/-- What a step does to each part of the peer side. -/
theorem peers_step (state : State) (step : Step) :
    (state.step step).2.peers =
      { directory := step.addedTo state.peers.directory
        registry := step.settings?.elim state.peers.registry fun settings =>
          (state.peers.buildOf settings).registry
        bound := if step.fixesDirectory then state.peers.directory else state.peers.bound
        context := (step.admission? state.peers.authorizer).elim state.peers.context
          (·.result.toOption) } := by
  cases step with
  | item step => rfl
  | peer step =>
      cases step with
      | buildFromText text words =>
          cases parsed : PeerSettings.parse text words with
          | error fault =>
              simp only [State.step, PeerState.step, PeerState.adoptSettings, parsed,
                Step.settings?, Step.fixesDirectory, Step.builds, Except.toOption]
              rfl
          | ok settings =>
              simp only [State.step, PeerState.step, PeerState.adoptSettings, parsed,
                Step.settings?, Step.fixesDirectory, Step.builds, Except.toOption]
              rfl
      | _ => rfl

theorem directory_step (state : State) (step : Step) :
    (state.step step).2.peers.directory = step.addedTo state.peers.directory :=
  congrArg PeerState.directory (peers_step state step)

theorem registry_step (state : State) (step : Step) :
    (state.step step).2.peers.registry =
      step.settings?.elim state.peers.registry fun settings =>
        (state.peers.buildOf settings).registry :=
  congrArg PeerState.registry (peers_step state step)

theorem bound_step (state : State) (step : Step) :
    (state.step step).2.peers.bound =
      if step.fixesDirectory then state.peers.directory else state.peers.bound :=
  congrArg PeerState.bound (peers_step state step)

/-! ## Runs -/

theorem run_append_snd (state : State) (first second : List Step) :
    (state.run (first ++ second)).2 = ((state.run first).2.run second).2 := by
  rw [run_append]

/-- What no step of a kind changes is not changed by a run of such steps. -/
theorem run_unchanged {α : Type} (view : State → α) {leaves : Step → Prop}
    (unchanged : ∀ state step, leaves step → view (state.step step).2 = view state)
    (all : ∀ step ∈ steps, leaves step) (state : State) :
    view (state.run steps).2 = view state := by
  induction steps generalizing state with
  | nil => rfl
  | cons first rest ih =>
      obtain ⟨leavesFirst, leavesRest⟩ := List.forall_mem_cons.mp all
      rw [run_cons, ih leavesRest, unchanged state first leavesFirst]

theorem directory_run (state : State) (steps : List Step) :
    (state.run steps).2.peers.directory =
      steps.foldl Step.addedTo state.peers.directory := by
  induction steps generalizing state with
  | nil => rfl
  | cons first rest ih => rw [run_cons, ih, directory_step, List.foldl_cons]

/-- A registry lasts until the next build. -/
theorem registry_run (state : State) (unbuilt : ∀ step ∈ steps, step.builds = false) :
    (state.run steps).2.peers.registry = state.peers.registry := by
  refine run_unchanged (·.peers.registry) (fun state step leaves => ?_) unbuilt state
  rw [registry_step, Step.settings?_of_not_builds leaves, Option.elim_none]

/-- A directory stays fixed until the next step that fixes one. -/
theorem bound_run (state : State)
    (unfixed : ∀ step ∈ steps, step.fixesDirectory = false) :
    (state.run steps).2.peers.bound = state.peers.bound := by
  refine run_unchanged (·.peers.bound) (fun state step leaves => ?_) unfixed state
  rw [bound_step, leaves, if_neg Bool.false_ne_true]

theorem directory_run_start (steps : List Step) :
    (start.run steps).2.peers.directory = directoryAfter steps :=
  directory_run start steps

/-- The registry of a session is the one of its latest build, with the directory
as it was then. -/
theorem registry_run_start_of_isLatestOf {before : List Step}
    {settings : PeerSettings} (builds : step.settings? = some settings)
    (latest : IsLatestOf Step.builds steps before step) :
    (start.run steps).2.peers.registry =
      (RegistryBuild.ofSettings (directoryAfter before).resolver settings).registry := by
  obtain ⟨-, after, rfl, unbuilt⟩ := latest
  rw [run_append_snd, run_cons, registry_run _ unbuilt, registry_step, builds,
    Option.elim_some, PeerState.buildOf, directory_run_start]

/-- The directory for remote addresses is the one of the latest step that fixed
it. -/
theorem bound_run_start_of_isLatestOf {before : List Step}
    (latest : IsLatestOf Step.fixesDirectory steps before step) :
    (start.run steps).2.peers.bound = directoryAfter before := by
  obtain ⟨fixes, after, rfl, unfixed⟩ := latest
  rw [run_append_snd, run_cons, bound_run _ unfixed, bound_step, if_pos fixes,
    directory_run_start]

/-- A session has the registry that its history leaves, and that is only one. -/
theorem leavesRegistry_iff {registry : PeerRegistry} :
    LeavesRegistry steps registry ↔ registry = (start.run steps).2.peers.registry := by
  constructor
  · rintro (⟨before, step, settings, latest, builds, rfl⟩ | ⟨unbuilt, rfl⟩)
    · exact (registry_run_start_of_isLatestOf builds latest).symm
    · exact (registry_run start unbuilt).symm
  · rintro rfl
    rcases exists_isLatestOf_or Step.builds steps with ⟨before, step, latest⟩ | unbuilt
    · rcases Option.isSome_iff_exists.mp latest.1 with ⟨settings, builds⟩
      exact .inl ⟨before, step, settings, latest, builds,
        registry_run_start_of_isLatestOf builds latest⟩
    · exact .inr ⟨unbuilt, registry_run start unbuilt⟩

/-- Remote addresses are resolved by the directory that the history leaves. -/
theorem leavesBound_iff {directory : HostDirectory} :
    LeavesBound steps directory ↔ directory = (start.run steps).2.peers.bound := by
  constructor
  · rintro (⟨before, step, latest, rfl⟩ | ⟨unfixed, rfl⟩)
    · exact (bound_run_start_of_isLatestOf latest).symm
    · exact (bound_run start unfixed).symm
  · rintro rfl
    rcases exists_isLatestOf_or Step.fixesDirectory steps with
      ⟨before, step, latest⟩ | unfixed
    · exact .inl ⟨before, step, latest, bound_run_start_of_isLatestOf latest⟩
    · exact .inr ⟨unfixed, bound_run start unfixed⟩

end State

end AccessPolicy.Session
