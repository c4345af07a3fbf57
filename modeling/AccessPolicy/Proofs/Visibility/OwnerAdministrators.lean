import AccessPolicy.Proofs.Visibility.Collaborators
import AccessPolicy.Proofs.Visibility.Plain

/-!
# Who sees what

A policy that leaves every level to the administrators who own the item never
fails to decide.  A restricted value is seen by those who are on the roster of
its level and whom the item names as an owner, and by nobody else; every value
of the owner field counts for this, even one that is itself restricted.
-/

namespace AccessPolicy

/-- An item is owned by those whom an owner value names as its authority,
whatever the qualifier, the place and the level of that value. -/
def Item.isOwnedBy (item : Item) (id : PrincipalId) : Bool :=
  item.values.any fun value =>
    value.field.belongsTo FieldName.ownerSchema FieldName.ownerElement &&
      value.namesOwner id

theorem Item.isOwnedBy_eq_true_iff {item : Item} {id : PrincipalId} :
    item.isOwnedBy id = true ↔
      ∃ owner ∈ item.values, owner.field.schema = "cris" ∧
        owner.field.element = "owner" ∧ owner.authority = some id.text := by
  simp only [isOwnedBy, List.any_eq_true, Bool.and_eq_true,
    FieldName.belongsTo_eq_true_iff, FieldValue.namesOwner_eq_true_iff,
    FieldName.ownerSchema, FieldName.ownerElement, and_assoc]

/-- Looking the owners up by place finds the same owners. -/
theorem Item.any_namesOwner_valuesOf (item : Item) (id : PrincipalId) :
    (item.valuesOf FieldName.ownerSchema FieldName.ownerElement).any
      (·.namesOwner id) = item.isOwnedBy id := by
  rw [Bool.eq_iff_iff]
  simp only [List.any_eq_true, mem_valuesOf_iff, isOwnedBy, Bool.and_eq_true,
    FieldName.belongsTo_eq_true_iff, and_assoc]

namespace Ownership

variable {ids : List PrincipalId} {query : Query} {asker : Principal}

theorem decide_ofRoster_of_unlisted (asks : query.principal = some asker)
    (unlisted : asker.id ∉ ids) :
    (ofRoster ids).decide query =
      { verdict := .ok false, calls := [.administrator asker.id] } := by
  apply (Decides.refused asks _).decide_eq
  simpa [ofRoster, AdministratorService.roster] using unlisted

theorem decide_ofRoster_of_listed (asks : query.principal = some asker)
    (listed : asker.id ∈ ids) :
    (ofRoster ids).decide query =
      { verdict := .ok (query.item.isOwnedBy asker.id)
        calls := [.administrator asker.id, ownersSought query.item] } := by
  have administrator : (ofRoster ids).administrators asker = .ok true := by
    simpa [ofRoster, AdministratorService.roster] using listed
  rw [← Item.any_namesOwner_valuesOf]
  exact (Decides.compared asks administrator rfl).decide_eq

/-- Over a roster and the values on the item the decision never fails: it is
yes for a principal on the roster who owns the item. -/
theorem verdict_decide_ofRoster (ids : List PrincipalId) (query : Query) :
    ((ofRoster ids).decide query).verdict =
      .ok (query.principal.any fun asker =>
        ids.contains asker.id && query.item.isOwnedBy asker.id) := by
  cases asks : query.principal with
  | none => rw [(Decides.anonymous asks).decide_eq, Option.any_none]
  | some asker =>
      rw [Option.any_some]
      by_cases listed : asker.id ∈ ids
      · rw [decide_ofRoster_of_listed asks listed, List.contains_iff_mem.mpr listed,
          Bool.true_and]
      · have unlisted : ids.contains asker.id = false :=
          Bool.eq_false_iff.mpr fun contained => listed (List.contains_iff_mem.mp contained)
        rw [decide_ofRoster_of_unlisted asks listed, unlisted, Bool.false_and]

end Ownership

namespace VisibilityPolicy

/-- The policy that leaves each registered level to the administrators of a
roster who own the item. -/
def ofRosters (rosters : List (Level × List PrincipalId)) : VisibilityPolicy :=
  ofRegistrations
    (rosters.map (Prod.map id fun ids => (Ownership.ofRoster ids).evaluator))

/-- Whether the policy of some rosters shows a value of an item. -/
def rostersShow (rosters : List (Level × List PrincipalId))
    (principal : Option Principal) (item : Item) (value : FieldValue) : Bool :=
  match value.restriction? with
  | none => true
  | some level =>
      (rosters.reverse.lookup level).any fun ids =>
        principal.any fun asker =>
          ids.contains asker.id && item.isOwnedBy asker.id

variable {rosters : List (Level × List PrincipalId)} {principal : Option Principal}
  {item : Item}

theorem evaluator?_ofRosters_eq_some_iff {level : Level} {evaluator : Evaluator} :
    (ofRosters rosters).evaluator? level = some evaluator ↔
      ∃ ids, IsLatest rosters level ids ∧
        (Ownership.ofRoster ids).evaluator = evaluator := by
  rw [ofRosters, evaluator?_ofRegistrations_eq_some_iff, isLatest_map_iff]

theorem isConsistent_ofRosters : (ofRosters rosters).IsConsistent := by
  apply isConsistent_ofRegistrations
  intro registration member
  obtain ⟨roster, -, rfl⟩ := List.mem_map.mp member
  exact (Evaluator.isSteady_steady _).isConsistent

theorem evaluator?_ofRosters_eq_none {level : Level}
    (unknown : rosters.reverse.lookup level = none) :
    (ofRosters rosters).evaluator? level = none := by
  rw [Option.eq_none_iff_forall_ne_some]
  intro evaluator registered
  obtain ⟨ids, latest, -⟩ := evaluator?_ofRosters_eq_some_iff.mp registered
  rw [← lookup_reverse_eq_some_iff, unknown] at latest
  contradiction

/-- On every value the policy of some rosters comes to a verdict. -/
theorem verdictOn_ofRosters (value : FieldValue) :
    (ofRosters rosters).verdictOn principal item value =
      .ok (rostersShow rosters principal item value) := by
  cases restricted : value.restriction? with
  | none =>
      rw [verdictOn_of_open restricted]
      simp only [rostersShow, restricted]
  | some level =>
      cases known : rosters.reverse.lookup level with
      | none =>
          have unregistered := evaluator?_ofRosters_eq_none known
          rw [verdictOn_of_unregistered restricted unregistered]
          simp only [rostersShow, restricted, known, Option.any_none]
      | some ids =>
          have latest := lookup_reverse_eq_some_iff.mp known
          have registered := evaluator?_ofRosters_eq_some_iff.mpr ⟨ids, latest, rfl⟩
          rw [verdictOn_of_registered restricted registered]
          simp only [rostersShow, restricted, known, Option.any_some]
          exact Ownership.verdict_decide_ofRoster ids _

/-- A policy of rosters never fails, and shows the values that its rosters show,
whatever it was asked before. -/
theorem result_visible_of_continues_ofRosters {policy : VisibilityPolicy}
    (continues : policy.Continues (ofRosters rosters)) :
    (policy.visible principal item).result =
      .ok (item.values.zipIdx.filter fun value =>
        rostersShow rosters principal item value.1) := by
  rw [visible, result_walk_eq_plainWalk isConsistent_ofRosters continues remembers_nil]
  exact plainWalk_of_ok verdictOn_ofRosters _

theorem result_visible_ofRosters :
    ((ofRosters rosters).visible principal item).result =
      .ok (item.values.zipIdx.filter fun value =>
        rostersShow rosters principal item value.1) :=
  result_visible_of_continues_ofRosters (Continues.refl _)

theorem rostersShow_eq_true_iff {value : FieldValue} :
    rostersShow rosters principal item value = true ↔
      value.level = none ∨ value.level = some Level.everyone ∨
        ∃ level ids asker, value.level = some level ∧ IsLatest rosters level ids ∧
          principal = some asker ∧ asker.id ∈ ids ∧
          ∃ owner ∈ item.values, owner.field.schema = "cris" ∧
            owner.field.element = "owner" ∧
            owner.authority = some asker.id.text := by
  rw [← or_assoc, ← FieldValue.restriction?_eq_none_iff]
  simp only [← Item.isOwnedBy_eq_true_iff, ← lookup_reverse_eq_some_iff]
  cases restricted : value.restriction? with
  | none => simp [rostersShow, restricted]
  | some level =>
      obtain ⟨atLevel, -⟩ := FieldValue.restriction?_eq_some_iff.mp restricted
      simp [rostersShow, restricted, atLevel, Option.any_eq_true]

/-- A policy of rosters always decides.  It shows, in the order of the item,
exactly the open values and those restricted ones whose level has a roster with
the principal on it, the latest roster of the level, if some owner value of the
item has the identifier of the principal as its authority. -/
theorem mem_visible_ofRosters_iff (rosters : List (Level × List PrincipalId))
    (principal : Option Principal) (item : Item) :
    ∃ shown, ((ofRosters rosters).visible principal item).result = .ok shown ∧
      shown.Sublist item.values.zipIdx ∧
      ∀ index : Fin item.values.length,
        (item.values[index], index.val) ∈ shown ↔
          item.values[index].level = none ∨
          item.values[index].level = some Level.everyone ∨
          ∃ level ids asker, item.values[index].level = some level ∧
            IsLatest rosters level ids ∧ principal = some asker ∧ asker.id ∈ ids ∧
            ∃ owner ∈ item.values, owner.field.schema = "cris" ∧
              owner.field.element = "owner" ∧
              owner.authority = some asker.id.text := by
  refine ⟨_, result_visible_ofRosters, List.filter_sublist, ?_⟩
  intro index
  have member : (item.values[index], index.val) ∈ item.values.zipIdx := by
    rw [List.mk_mem_zipIdx_iff_getElem?]
    exact List.getElem?_eq_getElem index.isLt
  rw [List.mem_filter, ← rostersShow_eq_true_iff]
  exact and_iff_right member

end VisibilityPolicy

end AccessPolicy
