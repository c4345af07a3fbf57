import AccessPolicy.Proofs.Visibility.OwnerAdministrators
import Mathlib.Logic.Relation

/-!
# Ownership is a set of claims

The owner values of an item claim owners for it.  A roster that decides about
the item asks whether one of the claims is for the asker, and nothing else: the
order of the values, their places, how often a claim is made and what else the
values say are of no account.  Neither is the order of the roster or the name
under which the asker is shown.

Each edit of a question that leaves the asker, the members of the roster and the
set of claims alone is one case below.  It leaves the reply alone, verdict and
calls, and so does any sequence of such edits.
-/

namespace AccessPolicy

/-- The owner that a value claims for its item, if it claims one. -/
def FieldValue.claim? (value : FieldValue) : Option String :=
  if value.field.belongsTo FieldName.ownerSchema FieldName.ownerElement then
    value.authority
  else none

theorem FieldValue.claim?_eq_some_iff {value : FieldValue} {authority : String} :
    value.claim? = some authority ↔
      value.field.schema = "cris" ∧ value.field.element = "owner" ∧
        value.authority = some authority := by
  rw [claim?]
  split
  · rename_i isOwner
    rcases FieldName.belongsTo_eq_true_iff.mp isOwner with ⟨schema, element⟩
    exact ⟨fun claims => ⟨schema, element, claims⟩, fun claims => claims.2.2⟩
  · rename_i noOwner
    constructor
    · exact fun claims => absurd claims (Option.some_ne_none authority).symm
    · rintro ⟨schema, element, -⟩
      exact absurd (FieldName.belongsTo_eq_true_iff.mpr ⟨schema, element⟩) noOwner

/-- The claims that some values make, in their order. -/
def ownerClaims (values : List FieldValue) : List String :=
  values.filterMap FieldValue.claim?

theorem ownerClaims_append (first second : List FieldValue) :
    ownerClaims (first ++ second) = ownerClaims first ++ ownerClaims second :=
  List.filterMap_append

theorem ownerClaims_cons_of_none {value : FieldValue} (claimless : value.claim? = none)
    (rest : List FieldValue) : ownerClaims (value :: rest) = ownerClaims rest :=
  List.filterMap_cons_none claimless

theorem ownerClaims_cons_of_some {value : FieldValue} {authority : String}
    (claimed : value.claim? = some authority) (rest : List FieldValue) :
    ownerClaims (value :: rest) = authority :: ownerClaims rest :=
  List.filterMap_cons_some claimed

theorem mem_ownerClaims_of_mem {values : List FieldValue} {value : FieldValue}
    {authority : String} (member : value ∈ values)
    (claimed : value.claim? = some authority) : authority ∈ ownerClaims values :=
  List.mem_filterMap.mpr ⟨value, member, claimed⟩

/-- An item is owned by those for whom it is claimed. -/
theorem Item.isOwnedBy_eq_true_iff_mem_ownerClaims {item : Item} {id : PrincipalId} :
    item.isOwnedBy id = true ↔ id.text ∈ ownerClaims item.values := by
  rw [isOwnedBy_eq_true_iff, ownerClaims, List.mem_filterMap]
  simp only [FieldValue.claim?_eq_some_iff]

/-! ## Edits of the values -/

/-- One edit of the values of an item that leaves the set of its claims alone. -/
inductive ValuesEdit : List FieldValue → List FieldValue → Prop
  | permute {values others : List FieldValue} (permuted : values.Perm others) :
      ValuesEdit values others
  | duplicate {before after : List FieldValue} {value : FieldValue}
      (occurs : value ∈ before ++ after) :
      ValuesEdit (before ++ after) (before ++ value :: after)
  /-- Change the qualifier, the text, the language, the place, the confidence and
  the level of a value at will. -/
  | revise {before after : List FieldValue} {value other : FieldValue}
      (sameSchema : other.field.schema = value.field.schema)
      (sameElement : other.field.element = value.field.element)
      (sameAuthority : other.authority = value.authority) :
      ValuesEdit (before ++ value :: after) (before ++ other :: after)
  | insert {before after : List FieldValue} {value : FieldValue}
      (claimless : ¬(value.field.schema = "cris" ∧ value.field.element = "owner") ∨
        value.authority = none) :
      ValuesEdit (before ++ after) (before ++ value :: after)
  | delete {before after : List FieldValue} {value : FieldValue}
      (claimless : ¬(value.field.schema = "cris" ∧ value.field.element = "owner") ∨
        value.authority = none) :
      ValuesEdit (before ++ value :: after) (before ++ after)

theorem FieldValue.claim?_eq_none {value : FieldValue}
    (claimless : ¬(value.field.schema = "cris" ∧ value.field.element = "owner") ∨
      value.authority = none) : value.claim? = none := by
  rw [Option.eq_none_iff_forall_ne_some]
  intro authority claimed
  rcases claim?_eq_some_iff.mp claimed with ⟨schema, element, names⟩
  rcases claimless with noOwner | nameless
  · exact noOwner ⟨schema, element⟩
  · rw [nameless] at names
    contradiction

theorem FieldValue.claim?_congr {value other : FieldValue}
    (sameSchema : other.field.schema = value.field.schema)
    (sameElement : other.field.element = value.field.element)
    (sameAuthority : other.authority = value.authority) : other.claim? = value.claim? := by
  have sameKind : other.field.belongsTo FieldName.ownerSchema FieldName.ownerElement =
      value.field.belongsTo FieldName.ownerSchema FieldName.ownerElement := by
    simp only [FieldName.belongsTo, sameSchema, sameElement]
  rw [claim?, claim?, sameKind, sameAuthority]

/-- A value that claims nobody may be put in or taken out. -/
theorem ownerClaims_around_of_none {value : FieldValue} (claimless : value.claim? = none)
    (before after : List FieldValue) :
    ownerClaims (before ++ value :: after) = ownerClaims (before ++ after) := by
  rw [ownerClaims_append, ownerClaims_append, ownerClaims_cons_of_none claimless]

/-- An edit keeps the claims, though not their order and number. -/
theorem ValuesEdit.mem_ownerClaims_iff {values others : List FieldValue}
    (edit : ValuesEdit values others) {authority : String} :
    authority ∈ ownerClaims others ↔ authority ∈ ownerClaims values := by
  cases edit with
  | permute permuted => exact (permuted.filterMap _).mem_iff.symm
  | @duplicate before after value occurs =>
      cases claimed : value.claim? with
      | none => rw [ownerClaims_around_of_none claimed]
      | some another =>
          -- The copy repeats a claim that is made anyway.
          have known : another ∈ ownerClaims (before ++ after) :=
            mem_ownerClaims_of_mem occurs claimed
          rw [ownerClaims_append] at known ⊢
          rw [ownerClaims_append, ownerClaims_cons_of_some claimed, List.perm_middle.mem_iff,
            List.mem_cons]
          constructor
          · rintro (rfl | member)
            · exact known
            · exact member
          · exact .inr
  | @revise before after value other sameSchema sameElement sameAuthority =>
      have sameClaim := FieldValue.claim?_congr sameSchema sameElement sameAuthority
      rw [ownerClaims, ownerClaims, List.filterMap_append, List.filterMap_append,
        List.filterMap_cons, List.filterMap_cons, sameClaim]
  | insert claimless =>
      rw [ownerClaims_around_of_none (FieldValue.claim?_eq_none claimless)]
  | delete claimless =>
      rw [ownerClaims_around_of_none (FieldValue.claim?_eq_none claimless)]

/-! ## Questions put to a roster -/

/-- A question about ownership, and the roster that it is put to. -/
structure RosterQuestion where
  roster : List PrincipalId
  query : Query

namespace RosterQuestion

/-- What the roster replies, with the values on the item. -/
def reply (question : RosterQuestion) : Reply :=
  (Ownership.ofRoster question.roster).decide question.query

/-- One edit of a question that leaves the asker, the members of the roster and
the set of claims alone. -/
inductive Edit (question : RosterQuestion) : RosterQuestion → Prop
  | values {others : List FieldValue}
      (edit : ValuesEdit question.query.item.values others) :
      Edit question
        { question with
          query := { question.query with item := { question.query.item with values := others } } }
  /-- List the same members in another order, or some of them more than once. -/
  | roster {ids : List PrincipalId} (sameMembers : ∀ id, id ∈ ids ↔ id ∈ question.roster) :
      Edit question { question with roster := ids }
  | rename {asker : Principal} (asks : question.query.principal = some asker)
      (name : String) :
      Edit question
        { question with
          query := { question.query with principal := some { asker with name := name } } }
  | askAbout (field : FieldName) :
      Edit question { question with query := { question.query with field := field } }

variable {question other : RosterQuestion}

/-- The reply follows from the identifier of the asker, the members of the
roster, the identifier of the item and the set of its claims. -/
theorem reply_congr
    (sameAsker : question.query.principal.map Principal.id =
      other.query.principal.map Principal.id)
    (sameMembers : ∀ id, id ∈ question.roster ↔ id ∈ other.roster)
    (sameItem : question.query.item.id = other.query.item.id)
    (sameClaims : ∀ authority, authority ∈ ownerClaims question.query.item.values ↔
      authority ∈ ownerClaims other.query.item.values) :
    question.reply = other.reply := by
  cases asks : question.query.principal with
  | none =>
      rw [asks, Option.map_none] at sameAsker
      have asksToo := Option.map_eq_none_iff.mp sameAsker.symm
      rw [reply, reply, (Ownership.Decides.anonymous asks).decide_eq,
        (Ownership.Decides.anonymous asksToo).decide_eq]
  | some asker =>
      rw [asks, Option.map_some] at sameAsker
      rcases Option.map_eq_some_iff.mp sameAsker.symm with ⟨namesake, asksToo, sameId⟩
      by_cases listed : asker.id ∈ question.roster
      · have listedToo : namesake.id ∈ other.roster := by
          rw [sameId]
          exact (sameMembers asker.id).mp listed
        have sameOwners : question.query.item.isOwnedBy asker.id =
            other.query.item.isOwnedBy asker.id := by
          rw [Bool.eq_iff_iff, Item.isOwnedBy_eq_true_iff_mem_ownerClaims,
            Item.isOwnedBy_eq_true_iff_mem_ownerClaims, sameClaims]
        rw [reply, reply, Ownership.decide_ofRoster_of_listed asks listed,
          Ownership.decide_ofRoster_of_listed asksToo listedToo, sameId, sameOwners,
          Ownership.ownersSought, Ownership.ownersSought, sameItem]
      · have unlistedToo : namesake.id ∉ other.roster := by
          rw [sameId]
          exact fun listed' => listed ((sameMembers asker.id).mpr listed')
        rw [reply, reply, Ownership.decide_ofRoster_of_unlisted asks listed,
          Ownership.decide_ofRoster_of_unlisted asksToo unlistedToo, sameId]

theorem Edit.reply_eq (edit : question.Edit other) : other.reply = question.reply := by
  cases edit with
  | values edit =>
      exact reply_congr rfl (fun _ => Iff.rfl) rfl fun _ => edit.mem_ownerClaims_iff
  | roster sameMembers => exact reply_congr rfl sameMembers rfl fun _ => Iff.rfl
  | @rename asker asks name =>
      have sameAsker : (some { asker with name := name }).map Principal.id =
          question.query.principal.map Principal.id := by
        rw [asks]
        rfl
      exact reply_congr sameAsker (fun _ => Iff.rfl) rfl fun _ => Iff.rfl
  | askAbout field => exact reply_congr rfl (fun _ => Iff.rfl) rfl fun _ => Iff.rfl

/-- Ownership is a set of claims, not a list.

Permute the values of an item and duplicate some; change the place, the text,
the language, the confidence, the level and the qualifier of any; put in and
take out values that are no owner values or have no authority; list the members
of the roster in another way; rename the asker; ask about another field.  After
any number of such edits a roster gives the reply that it would have given
before. -/
theorem reply_of_edits {question other : RosterQuestion}
    (edits : Relation.ReflTransGen Edit question other) : other.reply = question.reply := by
  induction edits with
  | refl => rfl
  | tail _ last ih => exact last.reply_eq.trans ih

/-- One edit of each kind.  The owner value moves to the front and is repeated, one
copy loses its qualifier, its place and its level, the title goes, an owner value
without an authority comes in, the roster is written anew, and the asker has
another name and another field in mind.  She is an owner as before. -/
theorem reply_of_each_edit :
    let alice : Principal := { id := ⟨"7"⟩, name := "Alice" }
    let title : FieldValue := { field := { schema := "dc", element := "title" }, text := "Title" }
    let owner : FieldValue :=
      { field := { schema := "cris", element := "owner", qualifier := some "main" }
        text := "Alice", authority := some "7", place := 3, level := some ⟨2⟩ }
    let plain : FieldValue := { field := .owner, text := "A.", authority := some "7" }
    let nameless : FieldValue := { field := .owner, text := "7" }
    let question : RosterQuestion :=
      { roster := [⟨"8"⟩, ⟨"7"⟩]
        query :=
          { principal := some alice
            item := { id := "item", values := [title, owner] }
            field := title.field } }
    let other : RosterQuestion :=
      { roster := [⟨"7"⟩, ⟨"8"⟩, ⟨"7"⟩]
        query :=
          { principal := some { alice with name := "A. Liddell" }
            item := { id := "item", values := [plain, nameless, owner] }
            field := .owner } }
    Relation.ReflTransGen Edit question other ∧ other.reply = question.reply ∧
      question.reply.verdict = .ok true := by
  intro alice title owner plain nameless question other
  have permuted : ValuesEdit [title, owner] [owner, title] :=
    .permute (List.Perm.swap owner title [])
  have repeated : ValuesEdit [owner, title] [owner, owner, title] :=
    @ValuesEdit.duplicate [] [owner, title] owner (.head _)
  have revised : ValuesEdit [owner, owner, title] [plain, owner, title] :=
    @ValuesEdit.revise [] [owner, title] owner plain rfl rfl rfl
  have deleted : ValuesEdit [plain, owner, title] [plain, owner] :=
    @ValuesEdit.delete [plain, owner] [] title (.inl (by decide))
  have inserted : ValuesEdit [plain, owner] [plain, nameless, owner] :=
    @ValuesEdit.insert [plain] [owner] nameless (.inr rfl)
  have sameMembers : ∀ id : PrincipalId,
      id ∈ [⟨"7"⟩, ⟨"8"⟩, ⟨"7"⟩] ↔ id ∈ question.roster := by
    intro id
    simp only [question, List.mem_cons, List.not_mem_nil, or_false]
    rw [or_left_comm, or_self]
  have edits : Relation.ReflTransGen Edit question other :=
    (((((((Relation.ReflTransGen.refl.tail (.values permuted)).tail
      (.values repeated)).tail (.values revised)).tail (.values deleted)).tail
        (.values inserted)).tail (.roster sameMembers)).tail
          (.rename rfl "A. Liddell")).tail (.askAbout .owner)
  have listed : alice.id ∈ question.roster := .tail _ (.head _)
  refine ⟨edits, reply_of_edits edits, ?_⟩
  rw [reply, Ownership.decide_ofRoster_of_listed rfl listed]
  rfl

end RosterQuestion

end AccessPolicy
