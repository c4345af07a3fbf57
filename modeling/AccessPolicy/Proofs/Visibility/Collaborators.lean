import AccessPolicy.Visibility.Ownership

/-!
# What the collaborators of a decision decide

A decision about ownership goes one of five ways, and which one is settled by
the answers of its two collaborators.  Only one of the five ends in a yes: both
have answered, the first with a yes, the second with a value that names the
principal.  A collaborator that fails is reported with the fault it gave, and is
never read as an answer.

The calls of a decision are the collaborators it heard.  A collaborator that was
not called has no influence on the reply.
-/

namespace AccessPolicy.Ownership

/-- The question about the owners of an item. -/
def ownersSought (item : Item) : Call :=
  .values item.id FieldName.ownerSchema FieldName.ownerElement

/-- The owner values of an item, as far as the store can tell. -/
def ownerValues (ownership : Ownership) (item : Item) :
    Except RetrievalFault (List FieldValue) :=
  ownership.store item FieldName.ownerSchema FieldName.ownerElement

/-- The ways in which a decision about ownership can go, each with its reply. -/
inductive Decides (ownership : Ownership) (query : Query) : Reply → Prop
  | anonymous (asks : query.principal = none) :
      Decides ownership query { verdict := .ok false }
  | unanswered {asker : Principal} {fault : RetrievalFault}
      (asks : query.principal = some asker)
      (failed : ownership.administrators asker = .error fault) :
      Decides ownership query
        { verdict := .error (.retrieval fault), calls := [.administrator asker.id] }
  | refused {asker : Principal} (asks : query.principal = some asker)
      (noAdministrator : ownership.administrators asker = .ok false) :
      Decides ownership query
        { verdict := .ok false, calls := [.administrator asker.id] }
  | ownersUnknown {asker : Principal} {fault : RetrievalFault}
      (asks : query.principal = some asker)
      (administrator : ownership.administrators asker = .ok true)
      (failed : ownership.ownerValues query.item = .error fault) :
      Decides ownership query
        { verdict := .error (.retrieval fault)
          calls := [.administrator asker.id, ownersSought query.item] }
  | compared {asker : Principal} {values : List FieldValue}
      (asks : query.principal = some asker)
      (administrator : ownership.administrators asker = .ok true)
      (found : ownership.ownerValues query.item = .ok values) :
      Decides ownership query
        { verdict := .ok (values.any (·.namesOwner asker.id))
          calls := [.administrator asker.id, ownersSought query.item] }

variable {ownership other : Ownership} {query : Query} {reply : Reply}

theorem decides_decide (ownership : Ownership) (query : Query) :
    ownership.Decides query (ownership.decide query) := by
  cases asks : query.principal with
  | none =>
      simp only [decide, asks]
      exact .anonymous asks
  | some asker =>
      cases answered : ownership.administrators asker with
      | error fault =>
          simp only [decide, asks, answered]
          exact .unanswered asks answered
      | ok isAdministrator =>
          cases isAdministrator with
          | false =>
              simp only [decide, asks, answered]
              exact .refused asks answered
          | true =>
              cases found : ownership.ownerValues query.item with
              | error fault =>
                  rw [ownerValues] at found
                  simp only [decide, asks, answered, found]
                  exact .ownersUnknown asks answered found
              | ok values =>
                  rw [ownerValues] at found
                  simp only [decide, asks, answered, found]
                  exact .compared asks answered found

/-- The answers of the collaborators leave no choice between the ways. -/
theorem Decides.decide_eq (decides : ownership.Decides query reply) :
    ownership.decide query = reply := by
  cases decides with
  | anonymous asks => simp only [decide, asks]
  | unanswered asks failed => simp only [decide, asks, failed]
  | refused asks noAdministrator => simp only [decide, asks, noAdministrator]
  | ownersUnknown asks administrator failed =>
      rw [ownerValues] at failed
      simp only [decide, asks, administrator, failed, ownersSought]
  | compared asks administrator found =>
      rw [ownerValues] at found
      simp only [decide, asks, administrator, found, ownersSought]

/-- The way that ends in a yes. -/
theorem Decides.verdict_eq_true_iff (decides : ownership.Decides query reply) :
    reply.verdict = .ok true ↔
      ∃ asker values, query.principal = some asker ∧
        ownership.administrators asker = .ok true ∧
        ownership.ownerValues query.item = .ok values ∧
        ∃ value ∈ values, value.authority = some asker.id.text := by
  cases decides with
  | anonymous asks => simp [asks]
  | unanswered asks failed => simp [asks, failed]
  | refused asks noAdministrator => simp [asks, noAdministrator]
  | ownersUnknown asks administrator failed => simp [asks, failed]
  | compared asks administrator found => simp [asks, administrator, found]

/-- The ways that end in an error. -/
theorem Decides.verdict_eq_error_iff {error : AccessError}
    (decides : ownership.Decides query reply) :
    reply.verdict = .error error ↔
      ∃ asker fault, query.principal = some asker ∧ error = .retrieval fault ∧
        (ownership.administrators asker = .error fault ∨
          ownership.administrators asker = .ok true ∧
            ownership.ownerValues query.item = .error fault) := by
  cases decides with
  | anonymous asks => simp [asks]
  | unanswered asks failed => simp [asks, failed, eq_comm]
  | refused asks noAdministrator => simp [asks, noAdministrator]
  | ownersUnknown asks administrator failed =>
      simp [asks, administrator, failed, eq_comm]
  | compared asks administrator found => simp [asks, administrator, found]

/-- The calls that a decision takes: none for nobody, and the store is called for
administrators only. -/
def callsFor (ownership : Ownership) (query : Query) : List Call :=
  match query.principal with
  | none => []
  | some asker =>
      match ownership.administrators asker with
      | .ok true => [.administrator asker.id, ownersSought query.item]
      | _ => [.administrator asker.id]

theorem Decides.calls_eq (decides : ownership.Decides query reply) :
    reply.calls = ownership.callsFor query := by
  cases decides with
  | anonymous asks => simp only [callsFor, asks]
  | unanswered asks failed => simp only [callsFor, asks, failed]
  | refused asks noAdministrator => simp only [callsFor, asks, noAdministrator]
  | ownersUnknown asks administrator | compared asks administrator =>
      simp only [callsFor, asks, administrator]

/-- Other collaborators that answer the same calls alike decide alike. -/
theorem Decides.of_same_answers (decides : ownership.Decides query reply)
    (sameAnswers : ∀ asker, query.principal = some asker →
      (Call.administrator asker.id ∈ reply.calls →
        other.administrators asker = ownership.administrators asker) ∧
      (ownersSought query.item ∈ reply.calls →
        other.ownerValues query.item = ownership.ownerValues query.item)) :
    other.Decides query reply := by
  cases decides with
  | anonymous asks => exact .anonymous asks
  | unanswered asks failed =>
      have sameService := (sameAnswers _ asks).1 (.head _)
      exact .unanswered asks (sameService.trans failed)
  | refused asks noAdministrator =>
      have sameService := (sameAnswers _ asks).1 (.head _)
      exact .refused asks (sameService.trans noAdministrator)
  | ownersUnknown asks administrator failed =>
      have sameService := (sameAnswers _ asks).1 (.head _)
      have sameStore := (sameAnswers _ asks).2 (.tail _ (.head _))
      exact .ownersUnknown asks (sameService.trans administrator) (sameStore.trans failed)
  | compared asks administrator found =>
      have sameService := (sameAnswers _ asks).1 (.head _)
      have sameStore := (sameAnswers _ asks).2 (.tail _ (.head _))
      exact .compared asks (sameService.trans administrator) (sameStore.trans found)

/-- A decision about ownership fails closed, whatever its collaborators are.

It is yes exactly if somebody asks, the service has said that the asker is an
administrator, and the store has found owner values of which one, wherever it
stands, has the identifier of the asker as its authority.  It fails exactly if
the service fails, or if the asker is an administrator and the store fails, and
then with the fault of the one that failed.  For nobody no collaborator is
called; otherwise the service is, and after its yes the store, each once.  The
field plays no part, and neither does anything that a collaborator would have
answered to a call that was not made. -/
theorem decide_of_collaborators (ownership : Ownership) (query : Query) :
    let reply := ownership.decide query
    (reply.verdict = .ok true ↔
        ∃ asker values, query.principal = some asker ∧
          ownership.administrators asker = .ok true ∧
          ownership.store query.item "cris" "owner" = .ok values ∧
          ∃ value ∈ values, value.authority = some asker.id.text) ∧
      (∀ error, reply.verdict = .error error ↔
        ∃ asker fault, query.principal = some asker ∧ error = .retrieval fault ∧
          (ownership.administrators asker = .error fault ∨
            ownership.administrators asker = .ok true ∧
              ownership.store query.item "cris" "owner" = .error fault)) ∧
      reply.calls = ownership.callsFor query ∧
      (∀ field, ownership.decide { query with field := field } = reply) ∧
      ∀ other : Ownership,
        (∀ asker, query.principal = some asker →
          (Call.administrator asker.id ∈ reply.calls →
            other.administrators asker = ownership.administrators asker) ∧
          (Call.values query.item.id "cris" "owner" ∈ reply.calls →
            other.store query.item "cris" "owner" =
              ownership.store query.item "cris" "owner")) →
        other.decide query = reply := by
  intro reply
  have decides : ownership.Decides query reply := decides_decide ownership query
  refine ⟨decides.verdict_eq_true_iff, fun error => decides.verdict_eq_error_iff,
    decides.calls_eq, fun field => rfl, ?_⟩
  intro other sameAnswers
  exact (decides.of_same_answers sameAnswers).decide_eq

/-- A service that knows one administrator and fails for everybody else, and a
store that finds two owner values, the first without an authority.  The
administrator is an owner; another asker gets the fault of the service, as she
would with a store that does not answer. -/
theorem decide_of_failing_service :
    let fault : RetrievalFault := { store := "authorization service", message := "timed out" }
    let down : RetrievalFault := { store := "metadata store", message := "refused" }
    let alice : Principal := { id := ⟨"7"⟩, name := "Alice" }
    let bob : Principal := { id := ⟨"8"⟩, name := "Bob" }
    let service : AdministratorService := fun asker =>
      if asker.id = alice.id then .ok true else .error fault
    let owners : List FieldValue :=
      [{ field := .owner, text := "7" },
        { field := .owner, text := "Alice", authority := some "7" }]
    let ownership : Ownership := { administrators := service, store := .fixed owners }
    let closed : Ownership := { administrators := service, store := .unavailable down }
    let question (asker : Principal) : Query :=
      { principal := some asker, item := { id := "item" }, field := .owner }
    (ownership.decide (question alice)).verdict = .ok true ∧
      (closed.decide (question alice)).verdict = .error (.retrieval down) ∧
      (ownership.decide (question bob)).verdict = .error (.retrieval fault) ∧
      closed.decide (question bob) = ownership.decide (question bob) := by
  intro fault down alice bob service owners ownership closed question
  obtain ⟨allowed, -⟩ := decide_of_collaborators ownership (question alice)
  obtain ⟨-, failsLate, -⟩ := decide_of_collaborators closed (question alice)
  obtain ⟨-, failsEarly, calls, -, unheard⟩ := decide_of_collaborators ownership (question bob)
  refine ⟨?_, ?_, ?_, ?_⟩
  · exact allowed.mpr ⟨alice, owners, rfl, rfl, rfl, _, .tail _ (.head _), rfl⟩
  · exact (failsLate _).mpr ⟨alice, down, rfl, rfl, .inr ⟨rfl, rfl⟩⟩
  · exact (failsEarly _).mpr ⟨bob, fault, rfl, rfl, .inl rfl⟩
  · apply unheard closed
    intro asker _
    constructor
    · exact fun _ => rfl
    · rw [calls]
      simp [callsFor, question, ownership, service, bob, alice]

end AccessPolicy.Ownership
