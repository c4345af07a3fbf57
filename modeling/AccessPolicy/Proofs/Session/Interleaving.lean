import AccessPolicy.Session.Run

/-!
# The two sides done side by side

The peer side and the item side of a session do not depend on each other.  The
one thing that passes between them is the principal of the latest request, and
only a question on behalf of that request reads it.  Where every question names
its asker, the steps of the two sides may be done in any common order: each step
is answered as if the other side did nothing, and all orders end in one state.

A step reads and changes its own side alone.  So a session runs in step with two
others, of which one does the peer steps and the other the item steps, as long
as it has the peer side of the one and the item side of the other.
-/

namespace AccessPolicy.Session

/-- The steps of the two sides done in a common order, those of each side in
their own order. -/
inductive Interleaving : List PeerStep → List ItemStep → List Step → Prop
  | nil : Interleaving [] [] []
  | peer {peerSteps : List PeerStep} {itemSteps : List ItemStep} {steps : List Step}
      (step : PeerStep) (later : Interleaving peerSteps itemSteps steps) :
      Interleaving (step :: peerSteps) itemSteps (.peer step :: steps)
  | item {peerSteps : List PeerStep} {itemSteps : List ItemStep} {steps : List Step}
      (step : ItemStep) (later : Interleaving peerSteps itemSteps steps) :
      Interleaving peerSteps (step :: itemSteps) (.item step :: steps)

/-- Whether a step says itself on whose behalf it asks, if it asks at all. -/
def ItemStep.namesAsker : ItemStep → Bool
  | .visible .ofContext | .decide _ .ofContext _ => false
  | _ => true

/-- Whether a step is one of the peer side. -/
def Step.isPeer : Step → Bool
  | .peer _ => true
  | .item _ => false

namespace State

variable {peerSteps : List PeerStep} {itemSteps : List ItemStep} {steps : List Step}

/-- Some steps, each with the answer that a session gives to it. -/
def transcript (state : State) (steps : List Step) : List (Step × Answer) :=
  steps.zip (state.run steps).1

theorem transcript_cons (state : State) (first : Step) (rest : List Step) :
    state.transcript (first :: rest) =
      (first, (state.step first).1) :: (state.step first).2.transcript rest :=
  rfl

/-! ## One step -/

/-- A peer step reads and changes the peer side alone. -/
theorem step_peer (state : State) (step : PeerStep) :
    state.step (.peer step) =
      (.peer (state.peers.step step).1,
        { state with peers := (state.peers.step step).2 }) :=
  rfl

/-- An item step that names its asker reads and changes the item side alone: it
is answered as if no request had passed the gate. -/
theorem step_item_of_namesAsker {step : ItemStep} (named : step.namesAsker = true)
    (state : State) :
    state.step (.item step) =
      (.item (state.items.step none step).1,
        { state with items := (state.items.step none step).2 }) := by
  cases step with
  | visible asker =>
      cases asker with
      | named principal => rfl
      | ofContext => contradiction
  | decide ownership asker field =>
      cases asker with
      | named principal => rfl
      | ofContext => contradiction
  | _ => rfl

/-! ## Runs -/

/-- A session and two others, the first with the same peer side and the second
with the same item side: what the session answers on either side is what the one
that does the steps of this side answers, and it ends with their two sides. -/
theorem run_interleaving_of_same {whole first second : State}
    (samePeers : whole.peers = first.peers) (sameItems : whole.items = second.items)
    (interleaved : Interleaving peerSteps itemSteps steps)
    (named : ∀ step ∈ itemSteps, step.namesAsker = true) :
    (whole.transcript steps).filter (·.1.isPeer) =
        first.transcript (peerSteps.map .peer) ∧
      (whole.transcript steps).filter (!·.1.isPeer) =
        second.transcript (itemSteps.map .item) ∧
      (whole.run steps).2 =
        { peers := (first.run (peerSteps.map .peer)).2.peers
          items := (second.run (itemSteps.map .item)).2.items } := by
  induction interleaved generalizing whole first second with
  | nil =>
      refine ⟨rfl, rfl, ?_⟩
      change whole = { peers := first.peers, items := second.items }
      rw [← samePeers, ← sameItems]
  | peer step _ ih =>
      have sameNext : (whole.step (.peer step)).2.peers =
          (first.step (.peer step)).2.peers := by
        rw [step_peer, step_peer, samePeers]
      obtain ⟨peerAnswers, itemAnswers, final⟩ := ih sameNext sameItems named
      refine ⟨?_, itemAnswers, final⟩
      rw [List.map_cons, transcript_cons, transcript_cons, ← peerAnswers,
        List.filter_cons_of_pos rfl, step_peer first, ← samePeers]
      rfl
  | item step _ ih =>
      obtain ⟨namedFirst, namedLater⟩ := List.forall_mem_cons.mp named
      have samePeersNext : (whole.step (.item step)).2.peers = first.peers := samePeers
      have sameNext : (whole.step (.item step)).2.items =
          (second.step (.item step)).2.items := by
        rw [step_item_of_namesAsker namedFirst, step_item_of_namesAsker namedFirst,
          sameItems]
      obtain ⟨peerAnswers, itemAnswers, final⟩ := ih samePeersNext sameNext namedLater
      refine ⟨peerAnswers, ?_, final⟩
      rw [List.map_cons, transcript_cons, transcript_cons, ← itemAnswers,
        List.filter_cons_of_pos rfl, step_item_of_namesAsker namedFirst whole,
        step_item_of_namesAsker namedFirst second, sameItems]

/-- The two sides of a session do not depend on each other.

Let the steps of the two sides be done in any common order, every question
naming its asker.  Then the peer steps are answered, calls included, as if they
were done alone, and so are the item steps; and all such orders end in the same
state, which has each side as its own steps leave it. -/
theorem run_interleaving (state : State)
    (interleaved : Interleaving peerSteps itemSteps steps)
    (named : ∀ step ∈ itemSteps, step.namesAsker = true) :
    (state.transcript steps).filter (·.1.isPeer) =
        state.transcript (peerSteps.map .peer) ∧
      (state.transcript steps).filter (!·.1.isPeer) =
        state.transcript (itemSteps.map .item) ∧
      (state.run steps).2 =
        { peers := (state.run (peerSteps.map .peer)).2.peers
          items := (state.run (itemSteps.map .item)).2.items } ∧
      ∀ other, Interleaving peerSteps itemSteps other →
        (state.run other).2 = (state.run steps).2 := by
  obtain ⟨peerAnswers, itemAnswers, final⟩ :=
    run_interleaving_of_same rfl rfl interleaved named
  refine ⟨peerAnswers, itemAnswers, final, ?_⟩
  intro other otherInterleaved
  obtain ⟨-, -, otherFinal⟩ := run_interleaving_of_same rfl rfl otherInterleaved named
  rw [otherFinal, final]

/-- A host that fails, a build and a refused request come between two questions
to an evaluator that changes its mind after the first.  The peer is denied and
the value is shown once, whichever side comes first. -/
theorem run_interleaving_of_fickle_evaluator :
    let host := "inbox.example"
    let request : Request := { id := "r", principal := none, remoteAddress := host }
    let peerSteps : List PeerStep :=
      [.makeException host (.fails "down"),
        .build { trustLoopback := true, hosts := host },
        .gate request [.trustedPeer],
        .check host]
    let note : FieldValue :=
      { field := { schema := "dc", element := "note" }, text := "draft", level := some ⟨1⟩ }
    let itemSteps : List ItemStep :=
      [.push note,
        .setPolicy [(⟨1⟩, .rehearsed ⟨1⟩ [.ok true, .ok false])],
        .visible (.named none),
        .remove 7,
        .visible (.named none)]
    let steps : List Step :=
      [.item (.push note),
        .peer (.makeException host (.fails "down")),
        .item (.setPolicy [(⟨1⟩, .rehearsed ⟨1⟩ [.ok true, .ok false])]),
        .item (.visible (.named none)),
        .peer (.build { trustLoopback := true, hosts := host }),
        .peer (.gate request [.trustedPeer]),
        .item (.remove 7),
        .item (.visible (.named none)),
        .peer (.check host)]
    Interleaving peerSteps itemSteps steps ∧
      (∀ step ∈ itemSteps, step.namesAsker = true) ∧
      (start.transcript steps).filter (·.1.isPeer) =
        start.transcript (peerSteps.map .peer) ∧
      (∃ first second,
        ((start.transcript steps).filter (!·.1.isPeer)).map Prod.snd =
            [.item (.added 1 note),
              .item (.policy "VisibilityPolicy \x7b levels: [SecurityLevel(1)] \x7d"),
              .item (.shown first), .item (.noValueAt 7), .item (.shown second)] ∧
          first.result = .ok [(note, 0)] ∧ second.result = .ok []) ∧
      (start.run (peerSteps.map .peer ++ itemSteps.map .item)).2 =
        (start.run steps).2 := by
  intro host request peerSteps note itemSteps steps
  have interleaved : Interleaving peerSteps itemSteps steps :=
    .item _ (.peer _ (.item _ (.item _ (.peer _ (.peer _ (.item _ (.item _
      (.peer _ .nil))))))))
  have peersFirst : Interleaving peerSteps itemSteps
      (peerSteps.map .peer ++ itemSteps.map .item) :=
    .peer _ (.peer _ (.peer _ (.peer _ (.item _ (.item _ (.item _ (.item _
      (.item _ .nil))))))))
  have named : ∀ step ∈ itemSteps, step.namesAsker = true := by
    intro step member
    simp only [itemSteps, List.mem_cons, List.not_mem_nil, or_false] at member
    rcases member with rfl | rfl | rfl | rfl | rfl <;> rfl
  obtain ⟨peerAnswers, itemAnswers, -, sameState⟩ :=
    run_interleaving start interleaved named
  refine ⟨interleaved, named, peerAnswers, ?_, sameState _ peersFirst⟩
  rw [itemAnswers]
  exact ⟨_, _, rfl, rfl, rfl⟩

end State

end AccessPolicy.Session
