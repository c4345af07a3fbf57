import AccessPolicy.Proofs.Peer.Decision
import AccessPolicy.Proofs.Peer.Listing
import AccessPolicy.Proofs.Text.Layouts

/-!
# Members are clean

What a registry trusts comes from two sources, the entries of a list and the texts of
addresses, and neither gives an empty text, one with a comma or one with blanks at an end.
So a remote address of that kind is never found in the registry.  This holds although an
entry may have been listed among blanks: the entry itself is trusted, and not what stands
in the list.
-/

namespace AccessPolicy

namespace PeerRegistry

/-- All that a registry contains may stand in a list as it is. -/
def IsClean (registry : PeerRegistry) : Prop :=
  ∀ text, registry.contains text = true →
    text ≠ "" ∧ ',' ∉ text.toList ∧ ¬Text.IsPadded text.toList

/-- A clean registry does not list what cannot be an entry. -/
theorem IsClean.decision_ne_trustedListed {registry : PeerRegistry} (clean : registry.IsClean)
    (resolver : Resolver) {remoteAddress : String}
    (unclean : remoteAddress = "" ∨ ',' ∈ remoteAddress.toList ∨
      Text.IsPadded remoteAddress.toList) :
    (PeerAuthorizer.check { registry, resolver } remoteAddress).decision ≠ .trustedListed := by
  intro listed
  rcases PeerAuthorizer.decision_eq_trustedListed_iff.mp listed with ⟨-, contained⟩
  rcases clean remoteAddress contained with ⟨nonempty, noComma, unpadded⟩
  rcases unclean with isEmpty | hasComma | padded
  · exact nonempty isEmpty
  · exact noComma hasComma
  · exact unpadded padded

end PeerRegistry

namespace RegistryBuild

theorem isClean_ofSettings (resolver : Resolver) (settings : PeerSettings) :
    (ofSettings resolver settings).registry.IsClean :=
  fun _ trusted => Text.isEntry_iff.mp (isEntry_of_contains trusted)

/-- Registry members are clean.

No member is empty, has a comma, or begins or ends with a blank.  So a check of a remote
address of that kind never finds it listed, with whatever resolver.  An entry that is
listed among blanks is a member without them; with them it is not found. -/
theorem ofSettings_members_clean (settings : PeerSettings) (buildResolver : Resolver) :
    let registry := (ofSettings buildResolver settings).registry
    let decision (checkResolver : Resolver) (remoteAddress : String) : PeerDecision :=
      (PeerAuthorizer.check { registry, resolver := checkResolver } remoteAddress).decision
    (∀ text, registry.contains text = true →
        text ≠ "" ∧ ',' ∉ text.toList ∧ ¬Text.IsPadded text.toList) ∧
      (∀ checkResolver remoteAddress,
        remoteAddress = "" ∨ ',' ∈ remoteAddress.toList ∨ Text.IsPadded remoteAddress.toList →
        decision checkResolver remoteAddress ≠ .trustedListed) ∧
      ∀ left entry right : String,
        Text.AllBlank left.toList → Text.AllBlank right.toList →
        entry ≠ "" ∧ ',' ∉ entry.toList ∧ ¬Text.IsPadded entry.toList →
        Text.StandsBetween ',' settings.addresses.toList (left ++ entry ++ right).toList →
        registry.contains entry = true ∧
          (left ≠ "" ∨ right ≠ "" →
            ∀ checkResolver, decision checkResolver (left ++ entry ++ right) ≠ .trustedListed) := by
  intro registry decision
  have clean : registry.IsClean := isClean_ofSettings buildResolver settings
  refine ⟨clean, fun checkResolver _ => clean.decision_ne_trustedListed checkResolver, ?_⟩
  intro left entry right blankLeft blankRight isEntry between
  rw [String.toList_append, String.toList_append] at between
  constructor
  · apply contains_ofSettings_iff.mpr
    exact .inl ⟨Text.isEntry_iff.mpr isEntry, left.toList, right.toList, blankLeft, blankRight,
      between⟩
  · intro some_blank checkResolver
    apply clean.decision_ne_trustedListed
    refine .inr (.inr (Text.isPadded_iff.mpr
      ⟨left.toList, entry.toList, right.toList, blankLeft, blankRight, ?_, ?_⟩))
    · simpa using some_blank
    · rw [String.toList_append, String.toList_append]

/-- An address listed between a no-break space and a line break, and the text of a host's
address: both are members, and none of three unclean spellings is listed. -/
theorem ofSettings_members_clean_of_padded_entry :
    let hosts := HostTable.empty.add "a.example" (.v4 ⟨203, 0, 113, 1⟩)
    let settings : PeerSettings :=
      { trustLoopback := true
        addresses := ",\u00a0203.0.113.5\n, ,"
        hosts := "a.example" }
    let registry := (ofSettings hosts.resolver settings).registry
    let authorizer : PeerAuthorizer := { registry, resolver := hosts.resolver }
    (registry.contains "203.0.113.1" = true ∧ ¬Text.IsPadded "203.0.113.1".toList) ∧
      registry.contains "203.0.113.5" = true ∧
      (authorizer.check "\u00a0203.0.113.5\n").decision ≠ .trustedListed ∧
      (authorizer.check "").decision ≠ .trustedListed ∧
      (authorizer.check "203.0.113.1,203.0.113.5").decision ≠ .trustedListed := by
  intro hosts settings registry authorizer
  rcases ofSettings_members_clean settings hosts.resolver with ⟨members, unlisted, padded⟩
  have contained : registry.contains "203.0.113.1" = true := by
    decide
  have between : Text.StandsBetween ',' settings.addresses.toList
      ("\u00a0" ++ "203.0.113.5" ++ "\n").toList := by
    rw [← Text.mem_segments_iff]
    decide
  obtain ⟨entered, notAsWritten⟩ := padded "\u00a0" "203.0.113.5" "\n"
    (by decide) (by decide) (by decide) between
  refine ⟨⟨contained, (members _ contained).2.2⟩, entered, ?_, ?_, ?_⟩
  · exact notAsWritten (by decide) hosts.resolver
  · exact unlisted hosts.resolver "" (.inl rfl)
  · exact unlisted hosts.resolver _ (.inr (.inl (by decide)))

end RegistryBuild

end AccessPolicy
