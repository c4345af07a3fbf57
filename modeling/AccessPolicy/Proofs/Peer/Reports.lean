import AccessPolicy.Proofs.Peer.Listing
import Mathlib.Data.Fintype.EquivFin

/-!
# What a build reports

A build asks for every listed host, in order and as often as it is listed, whatever
the answers are.  Each answer is kept: a fault is reported, one for each failure, and
an address is trusted.  The number of members is that of the different texts which
are listed or found in this way.

That a host was asked for is more than a line in a log.  These are the hosts on whose
answers the build depends.
-/

namespace AccessPolicy

/-- A set is empty when there is no text of which it is the set. -/
theorem AddressSet.isEmpty_eq_true_iff {set : AddressSet} {texts : List String}
    (members : ∀ text, set.contains text = true ↔ text ∈ texts) :
    set.isEmpty = true ↔ texts = [] := by
  rw [isEmpty, List.isEmpty_iff, List.eq_nil_iff_forall_not_mem,
    List.eq_nil_iff_forall_not_mem]
  simp only [← contains_iff_mem, members]

/-- Some fault is not among finitely many. -/
theorem ResolutionFault.exists_not_mem (faults : List ResolutionFault) :
    ∃ fault, fault ∉ faults := by
  obtain ⟨reason, fresh⟩ :=
    Infinite.exists_notMem_finset (faults.map ResolutionFault.reason).toFinset
  refine ⟨{ host := "", reason }, ?_⟩
  intro member
  exact fresh (List.mem_toFinset.mpr (List.mem_map_of_mem member))

namespace RegistryBuild

variable {resolver other : Resolver} {settings : PeerSettings} {host : String}

/-- The answers for other hosts than those listed do not matter. -/
theorem ofSettings_congr
    (agree : ∀ host ∈ Text.entries settings.hosts, other host = resolver host) :
    ofSettings other settings = ofSettings resolver settings := by
  have sameTexts : (Text.entries settings.hosts).filterMap other.addressText? =
      (Text.entries settings.hosts).filterMap resolver.addressText? := by
    apply List.filterMap_congr
    intro host member
    rw [Resolver.addressText?, Resolver.addressText?, agree host member]
  have sameFaults : (Text.entries settings.hosts).filterMap other.fault? =
      (Text.entries settings.hosts).filterMap resolver.fault? := by
    apply List.filterMap_congr
    intro host member
    rw [Resolver.fault?, Resolver.fault?, agree host member]
  rw [ofSettings_eq, ofSettings_eq, PeerSettings.trustedTexts, PeerSettings.trustedTexts,
    sameTexts, sameFaults]

/-- A host is asked for exactly when the build depends on its answer: a new fault of
this host alone would be reported. -/
theorem mem_asked_iff :
    host ∈ (ofSettings resolver settings).asked ↔
      ∃ other : Resolver, (∀ another, another ≠ host → other another = resolver another) ∧
        ofSettings other settings ≠ ofSettings resolver settings := by
  rw [asked_ofSettings]
  constructor
  · intro listed
    obtain ⟨fault, unreported⟩ :=
      ResolutionFault.exists_not_mem (ofSettings resolver settings).failures
    refine ⟨Function.update resolver host (.error fault), ?_, ?_⟩
    · intro another differs
      exact Function.update_of_ne differs _ _
    · intro same
      apply unreported
      rw [← same, failures_ofSettings, List.mem_filterMap]
      refine ⟨host, listed, ?_⟩
      simp only [Resolver.fault?, Function.update_self]
  · rintro ⟨other, agree, differs⟩
    by_contra notListed
    apply differs
    apply ofSettings_congr
    intro another listed
    apply agree
    rintro rfl
    exact notListed listed

/-- A build reports every failure and loses nothing.

The resolver is asked for the entries of the host list, in their order and for each of
them as often as it occurs; these are the hosts on whose answers the build depends.
The faults among the answers are reported in the same order.  Trusted are the entries
of the address list and the texts of the addresses among the answers: there are as many
members as different texts, and none when there is no text.  The choice about the host
itself is the one of the settings. -/
theorem ofSettings_reports (settings : PeerSettings) (resolver : Resolver) :
    let build := ofSettings resolver settings
    let texts := Text.entries settings.addresses ++
      (Text.entries settings.hosts).filterMap resolver.addressText?
    build.asked = Text.entries settings.hosts ∧
      (∀ host, host ∈ build.asked ↔
        ∃ other : Resolver, (∀ another, another ≠ host → other another = resolver another) ∧
          ofSettings other settings ≠ build) ∧
      build.failures = (Text.entries settings.hosts).filterMap resolver.fault? ∧
      (∀ text, build.registry.contains text = true ↔ text ∈ texts) ∧
      build.registry.trusted.size = texts.toFinset.card ∧
      (build.registry.trusted.isEmpty = true ↔ texts = []) ∧
      build.registry.trustsLoopback = settings.trustLoopback := by
  intro build texts
  have members (text : String) : build.registry.contains text = true ↔ text ∈ texts :=
    contains_ofSettings_iff_mem
  refine ⟨asked_ofSettings, fun _ => mem_asked_iff, failures_ofSettings, members, ?_, ?_,
    trustsLoopback_ofSettings⟩
  · exact AddressSet.size_eq_card members
  · exact AddressSet.isEmpty_eq_true_iff members

/-- Two hosts that are listed twice, one of them unknown, and a host with an address
that is listed too. -/
theorem ofSettings_reports_of_repeated_hosts :
    let resolver : Resolver :=
      ((HostTable.empty.add "a.example" (.v4 ⟨203, 0, 113, 1⟩)).add "b.example"
        (.v4 ⟨203, 0, 113, 5⟩)).resolver
    let settings : PeerSettings :=
      { addresses := " 203.0.113.5 ,,"
        hosts := "a.example,inbox.invalid ,b.example,, a.example,inbox.invalid" }
    let build := ofSettings resolver settings
    let fault : ResolutionFault := { host := "inbox.invalid", reason := HostTable.unknownHost }
    build.asked =
        ["a.example", "inbox.invalid", "b.example", "a.example", "inbox.invalid"] ∧
      build.failures = [fault, fault] ∧
      build.registry.trusted.size = 2 ∧ ¬build.registry.trusted.isEmpty = true ∧
      ¬∃ other : Resolver,
        (∀ another, another ≠ "203.0.113.5" → other another = resolver another) ∧
          ofSettings other settings ≠ build := by
  intro resolver settings build fault
  obtain ⟨asked, depends, failures, -, size, isEmpty, -⟩ := ofSettings_reports settings resolver
  refine ⟨?_, ?_, ?_, ?_, ?_⟩
  · rw [asked]
    decide
  · rw [failures]
    decide
  · rw [size]
    decide
  · rw [isEmpty]
    decide
  · rw [← depends, asked]
    decide

end RegistryBuild

end AccessPolicy
