import AccessPolicy.Session.Items
import AccessPolicy.Session.Peers

/-!
# Sessions

A session has a peer side and an item side.  The only thing that passes between
them is the principal of the latest request: it goes from the gate to the
questions that are asked on its behalf.
-/

namespace AccessPolicy.Session

/-- The state of a session. -/
structure State where
  peers : PeerState
  items : ItemState

/-- A step on one of the two sides. -/
inductive Step where
  | peer (step : PeerStep)
  | item (step : ItemStep)

/-- The answer from the side on which the step was done. -/
inductive Answer where
  | peer (answer : PeerAnswer)
  | item (answer : ItemAnswer)

namespace State

/-- A session before its first step. -/
def start : State where
  peers := .start
  items := .start

/-- The principal of the latest request, if it has passed the gate. -/
def contextPrincipal (state : State) : Option Principal :=
  state.peers.context.bind (·.principal)

/-- Do one step. -/
def step (state : State) : Step → Answer × State
  | .peer step =>
      let (answer, peers) := state.peers.step step
      (.peer answer, { state with peers := peers })
  | .item step =>
      let (answer, items) := state.items.step state.contextPrincipal step
      (.item answer, { state with items := items })

/-- Do steps one after the other. -/
def run (state : State) : List Step → List Answer × State
  | [] => ([], state)
  | first :: rest =>
      let (answer, next) := state.step first
      let (answers, last) := next.run rest
      (answer :: answers, last)

@[simp]
theorem run_nil (state : State) : state.run [] = ([], state) :=
  rfl

theorem run_cons (state : State) (first : Step) (rest : List Step) :
    state.run (first :: rest) =
      ((state.step first).1 :: ((state.step first).2.run rest).1,
        ((state.step first).2.run rest).2) :=
  rfl

/-- A run may be cut in two anywhere. -/
theorem run_append (state : State) (first second : List Step) :
    state.run (first ++ second) =
      ((state.run first).1 ++ ((state.run first).2.run second).1,
        ((state.run first).2.run second).2) := by
  induction first generalizing state with
  | nil => simp
  | cons step rest inductionHypothesis =>
      simp [run_cons, inductionHypothesis]

end State

end AccessPolicy.Session
