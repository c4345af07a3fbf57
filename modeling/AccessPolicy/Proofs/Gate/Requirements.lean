import AccessPolicy.Gate
import Mathlib.Data.List.Induction

/-!
# Requirements set one after the other

A gate keeps each requirement once, where it was set first.  Trying the kept
requirements in turn therefore comes to the same first failure as trying all
that were ever set, and no requirement is tried twice.
-/

namespace AccessPolicy

namespace Requirement

/-- A request meets a requirement. -/
def IsMet (authorizer : PeerAuthorizer) (request : Request) : Requirement → Prop
  | .authenticated => request.principal ≠ none
  | .trustedPeer => (authorizer.check request.remoteAddress).decision ≠ .denied

instance (authorizer : PeerAuthorizer) (request : Request) :
    DecidablePred (IsMet authorizer request)
  | .authenticated => inferInstanceAs (Decidable (request.principal ≠ none))
  | .trustedPeer => inferInstanceAs
      (Decidable ((authorizer.check request.remoteAddress).decision ≠ .denied))

/-- The violation of a request that does not meet a requirement. -/
def refusal (request : Request) : Requirement → Violation
  | .authenticated =>
      { kind := .unauthenticated
        message := "Authentication required" }
  | .trustedPeer =>
      { kind := .untrustedPeer request.remoteAddress
        message := "Remote address is not a trusted notification peer" }

/-- The hosts asked for in trying a requirement. -/
def hostsAsked (authorizer : PeerAuthorizer) (request : Request) :
    Requirement → List String
  | .authenticated => []
  | .trustedPeer => (authorizer.check request.remoteAddress).asked

/-- The requirements that are tried: all up to the first that is not met, and
that one. -/
def tried (authorizer : PeerAuthorizer) (request : Request) :
    List Requirement → List Requirement
  | [] => []
  | requirement :: rest =>
      requirement ::
        if requirement.IsMet authorizer request then tried authorizer request rest
        else []

variable {authorizer : PeerAuthorizer} {request : Request}
  {requirement : Requirement} {requirements : List Requirement}

theorem violation?_of_met (met : requirement.IsMet authorizer request) :
    requirement.violation? authorizer request =
      (none, requirement.hostsAsked authorizer request) := by
  cases requirement with
  | authenticated =>
      rw [violation?, if_pos (Option.isSome_iff_ne_none.mpr met), hostsAsked]
  | trustedPeer =>
      rw [violation?, hostsAsked]
      simp only [PeerCheck.isTrusted_eq_true_iff.mpr met, if_true]

theorem violation?_of_not_met (failed : ¬requirement.IsMet authorizer request) :
    requirement.violation? authorizer request =
      (some (requirement.refusal request),
        requirement.hostsAsked authorizer request) := by
  cases requirement with
  | authenticated =>
      have anonymous : ¬request.principal.isSome = true := fun known =>
        failed (Option.isSome_iff_ne_none.mp known)
      rw [violation?, if_neg anonymous, hostsAsked, refusal]
  | trustedPeer =>
      have untrusted : ¬(authorizer.check request.remoteAddress).isTrusted = true :=
        fun trusted => failed (PeerCheck.isTrusted_eq_true_iff.mp trusted)
      rw [violation?, hostsAsked, refusal]
      simp only [if_neg untrusted]

/-- Trying requirements in turn finds the first that is not met, and asks for
the hosts of those that are tried. -/
theorem firstViolation?_eq (requirements : List Requirement) :
    firstViolation? authorizer request requirements =
      ((requirements.find? fun requirement =>
          ¬requirement.IsMet authorizer request).map (refusal request),
        (tried authorizer request requirements).flatMap
          (hostsAsked authorizer request)) := by
  induction requirements with
  | nil => rfl
  | cons requirement rest ih =>
      by_cases met : requirement.IsMet authorizer request
      · rw [firstViolation?, violation?_of_met met, List.find?_cons_of_neg (by simpa),
          tried, if_pos met, List.flatMap_cons]
        simp only [ih]
      · rw [firstViolation?, violation?_of_not_met met, List.find?_cons_of_pos (by simpa),
          tried, if_neg met, List.flatMap_cons]
        simp

theorem tried_of_all_met
    (met : ∀ requirement ∈ requirements, requirement.IsMet authorizer request) :
    tried authorizer request requirements = requirements := by
  induction requirements with
  | nil => rfl
  | cons first rest ih =>
      rw [tried, if_pos (met first List.mem_cons_self),
        ih fun requirement member => met requirement (List.mem_cons_of_mem first member)]

theorem mem_tried_append_singleton (last : Requirement) :
    requirement ∈ tried authorizer request (requirements ++ [last]) ↔
      requirement ∈ tried authorizer request requirements ∨
        (∀ earlier ∈ requirements, earlier.IsMet authorizer request) ∧
          requirement = last := by
  induction requirements with
  | nil => simp [tried]
  | cons first rest ih =>
      rw [List.cons_append, tried, tried]
      by_cases met : first.IsMet authorizer request
      · rw [if_pos met, if_pos met, List.mem_cons, List.mem_cons, ih, or_assoc,
          List.forall_mem_cons, and_iff_right met]
      · simp [met]

theorem tried_sublist (authorizer : PeerAuthorizer) (request : Request)
    (requirements : List Requirement) :
    (tried authorizer request requirements).Sublist requirements := by
  induction requirements with
  | nil => exact List.Sublist.refl []
  | cons first rest ih =>
      rw [tried]
      apply List.Sublist.cons_cons
      split
      · exact ih
      · exact List.nil_sublist rest

/-- A requirement is tried when all that stand before its first occurrence are
met. -/
theorem mem_tried_iff :
    requirement ∈ tried authorizer request requirements ↔
      ∃ before after, requirements = before ++ requirement :: after ∧
        requirement ∉ before ∧
        ∀ earlier ∈ before, earlier.IsMet authorizer request := by
  induction requirements with
  | nil => simp [tried]
  | cons first rest ih =>
      rw [tried, List.mem_cons]
      constructor
      · intro member
        by_cases same : requirement = first
        · exact ⟨[], rest, by rw [same]; rfl, by simp, by simp⟩
        · have later := member.resolve_left same
          split at later
          · rename_i met
            obtain ⟨before, after, rfl, absent, allMet⟩ := ih.mp later
            refine ⟨first :: before, after, rfl, ?_, ?_⟩
            · exact List.not_mem_cons_of_ne_of_not_mem same absent
            · exact List.forall_mem_cons.mpr ⟨met, allMet⟩
          · contradiction
      · rintro ⟨before, after, split, absent, allMet⟩
        cases before with
        | nil => exact .inl (List.cons.inj split).1.symm
        | cons earlier others =>
            obtain ⟨rfl, rfl⟩ := List.cons.inj split
            obtain ⟨met, othersMet⟩ := List.forall_mem_cons.mp allMet
            rw [if_pos met]
            exact .inr (ih.mpr ⟨others, after, rfl,
              List.not_mem_of_not_mem_cons absent, othersMet⟩)

/-- Among requirements that are all different, at most one asks for a host. -/
theorem flatMap_hostsAsked (distinct : requirements.Nodup) :
    requirements.flatMap (hostsAsked authorizer request) =
      if .trustedPeer ∈ requirements then
        (authorizer.check request.remoteAddress).asked
      else [] := by
  induction requirements with
  | nil => rfl
  | cons first rest ih =>
      obtain ⟨absent, restDistinct⟩ := List.nodup_cons.mp distinct
      rw [List.flatMap_cons, ih restDistinct]
      cases first with
      | authenticated => simp [hostsAsked]
      | trustedPeer => simp [hostsAsked, absent]

end Requirement

namespace Gate

variable {authorizer : PeerAuthorizer} {request : Request}
  {requirement : Requirement}

theorem ofRequirements_append_singleton (earlier : List Requirement)
    (last : Requirement) :
    ofRequirements request (earlier ++ [last]) =
      (ofRequirements request earlier).require last := by
  simp only [ofRequirements, List.foldl_append, List.foldl_cons, List.foldl_nil]

theorem require_of_mem {gate : Gate} (member : requirement ∈ gate.requirements) :
    gate.require requirement = gate := by
  rw [require, if_pos member]

theorem requirements_require_of_not_mem {gate : Gate}
    (absent : requirement ∉ gate.requirements) :
    (gate.require requirement).requirements =
      gate.requirements ++ [requirement] := by
  rw [require, if_neg absent]

@[simp]
theorem request_require (gate : Gate) (requirement : Requirement) :
    (gate.require requirement).request = gate.request := by
  unfold require
  split <;> rfl

theorem request_ofRequirements (required : List Requirement) :
    (ofRequirements request required).request = request := by
  induction required using List.reverseRecOn with
  | nil => rfl
  | append_singleton earlier last ih =>
      rw [ofRequirements_append_singleton, request_require, ih]

/-- A gate has the requirements that were set, however often. -/
theorem mem_requirements_ofRequirements {required : List Requirement} :
    requirement ∈ (ofRequirements request required).requirements ↔
      requirement ∈ required := by
  induction required using List.reverseRecOn with
  | nil => rfl
  | append_singleton earlier last ih =>
      rw [ofRequirements_append_singleton, List.mem_append, List.mem_singleton]
      by_cases known : last ∈ (ofRequirements request earlier).requirements
      · rw [require_of_mem known, ih]
        constructor
        · exact Or.inl
        · rintro (member | rfl)
          · exact member
          · exact ih.mp known
      · rw [requirements_require_of_not_mem known, List.mem_append,
          List.mem_singleton, ih]

theorem nodup_requirements_ofRequirements (request : Request)
    (required : List Requirement) :
    (ofRequirements request required).requirements.Nodup := by
  induction required using List.reverseRecOn with
  | nil => exact List.nodup_nil
  | append_singleton earlier last ih =>
      rw [ofRequirements_append_singleton]
      by_cases known : last ∈ (ofRequirements request earlier).requirements
      · rwa [require_of_mem known]
      · rw [requirements_require_of_not_mem known, List.nodup_append]
        refine ⟨ih, List.pairwise_singleton _ last, ?_⟩
        intro requirement member other single same
        rw [same, List.mem_singleton.mp single] at member
        exact known member

/-- The first requirement that fails a test is the same in a gate as among all
that were set. -/
theorem find?_requirements_ofRequirements (test : Requirement → Bool)
    (required : List Requirement) :
    (ofRequirements request required).requirements.find? test =
      required.find? test := by
  induction required using List.reverseRecOn with
  | nil => rfl
  | append_singleton earlier last ih =>
      rw [ofRequirements_append_singleton, List.find?_append]
      by_cases known : last ∈ (ofRequirements request earlier).requirements
      · rw [require_of_mem known, ih]
        cases found : earlier.find? test with
        | some first => rfl
        | none =>
            have passes := List.find?_eq_none.mp found last
              (mem_requirements_ofRequirements.mp known)
            rw [List.find?_cons_of_neg passes]
            rfl
      · rw [requirements_require_of_not_mem known, List.find?_append, ih]

/-- A gate tries the requirements that would be tried among all that were
set. -/
theorem mem_tried_requirements_ofRequirements {required : List Requirement} :
    requirement ∈ Requirement.tried authorizer request
        (ofRequirements request required).requirements ↔
      requirement ∈ Requirement.tried authorizer request required := by
  induction required using List.reverseRecOn with
  | nil => rfl
  | append_singleton earlier last ih =>
      rw [ofRequirements_append_singleton, Requirement.mem_tried_append_singleton]
      by_cases known : last ∈ (ofRequirements request earlier).requirements
      · rw [require_of_mem known, ih]
        constructor
        · exact Or.inl
        · rintro (member | ⟨allMet, rfl⟩)
          · exact member
          · rw [Requirement.tried_of_all_met allMet]
            exact mem_requirements_ofRequirements.mp known
      · rw [requirements_require_of_not_mem known,
          Requirement.mem_tried_append_singleton, ih]
        simp only [mem_requirements_ofRequirements]

end Gate

end AccessPolicy
