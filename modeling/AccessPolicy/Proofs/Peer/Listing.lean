import AccessPolicy.Proofs.Peer.AddressText
import AccessPolicy.Proofs.Peer.Registry
import Mathlib.Data.Finset.Card

/-!
# Registries written as lists

What a registry trusts can be listed, between commas, and read again.  Each
member is an entry: those that were listed are, and the text of an address has
nothing in it but digits, dots and colons.  So a registry is built again from
the list of its members, and addresses may be listed as hosts or as they are.
-/

namespace AccessPolicy

/-! ## Address texts -/

/-- The characters of an address lie between the dot and the last digit. -/
def IsAddressChar (c : Char) : Prop :=
  '.'.toNat ≤ c.toNat ∧ c.toNat ≤ 'f'.toNat

instance (c : Char) : Decidable (IsAddressChar c) :=
  inferInstanceAs (Decidable (_ ∧ _))

/-- No such character is a comma or blank. -/
theorem IsAddressChar.plain {c : Char} (isAddressChar : IsAddressChar c) :
    c ≠ ',' ∧ Text.isBlank c = false := by
  obtain ⟨first, last⟩ := isAddressChar
  constructor
  · rintro rfl
    exact absurd first (by decide)
  · have outside : ∀ codePoint ∈ Text.blankCodePoints,
        codePoint < '.'.toNat ∨ 'f'.toNat < codePoint := by
      decide
    apply Bool.eq_false_iff.mpr
    intro blank
    rcases outside c.toNat (List.contains_iff_mem.mp blank) with before | behind
    · exact absurd first (Nat.not_le_of_lt before)
    · exact absurd last (Nat.not_le_of_lt behind)

theorem isAddressChar_of_mem_digits {base number : Nat} (isBase : Text.IsBase base) {c : Char}
    (member : c ∈ Text.digits base number) : IsAddressChar c := by
  obtain ⟨first, last⟩ := Text.toNat_of_isDigit (Text.isDigit_of_mem_digits isBase member)
  exact ⟨Nat.le_trans (by decide) first, last⟩

/-- Numbers in digits, a separator between them, are written in these characters. -/
theorem isAddressChar_of_mem_joined {α : Type} {base : Nat} {separator c : Char}
    {number : α → Nat} {entries : List α} (isBase : Text.IsBase base)
    (isSeparator : IsAddressChar separator)
    (member : c ∈ Text.joined separator
      (entries.map fun entry => Text.digits base (number entry))) :
    IsAddressChar c := by
  rcases Text.eq_or_mem_of_mem_joined member with rfl | ⟨part, isPart, inPart⟩
  · exact isSeparator
  · obtain ⟨entry, -, rfl⟩ := List.mem_map.mp isPart
    exact isAddressChar_of_mem_digits isBase inPart

theorem IPv4Address.isAddressChar_of_mem_written {address : IPv4Address} {c : Char}
    (member : c ∈ address.written) : IsAddressChar c :=
  isAddressChar_of_mem_joined Text.isBase_ten (by decide) member

namespace IPv6Address

theorem isAddressChar_of_mem_writtenGroups {groups : List UInt16} {c : Char}
    (member : c ∈ writtenGroups groups) : IsAddressChar c :=
  isAddressChar_of_mem_joined Text.isBase_sixteen (by decide) member

theorem isAddressChar_of_mem_written {address : IPv6Address} {c : Char}
    (member : c ∈ address.written) : IsAddressChar c := by
  have colons : ∀ c ∈ [':', ':'], IsAddressChar c := by
    simp [IsAddressChar]
  have mark : ∀ c ∈ "::ffff:".toList, IsAddressChar c := by
    simp [IsAddressChar]
  unfold written at member
  split at member
  · rcases List.mem_append.mp member with inMark | inInner
    · exact mark c inMark
    · exact IPv4Address.isAddressChar_of_mem_written inInner
  · dsimp only at member
    split at member
    · rcases List.mem_append.mp member with inFront | behind
      · rcases List.mem_append.mp inFront with before | inGap
        · exact isAddressChar_of_mem_writtenGroups before
        · exact colons c inGap
      · exact isAddressChar_of_mem_writtenGroups behind
    · exact isAddressChar_of_mem_writtenGroups member

end IPv6Address

namespace IpAddress

theorem isAddressChar_of_mem_written {address : IpAddress} {c : Char}
    (member : c ∈ address.written) : IsAddressChar c := by
  cases address with
  | v4 address => exact IPv4Address.isAddressChar_of_mem_written member
  | v6 address => exact IPv6Address.isAddressChar_of_mem_written member

theorem written_ne_nil (address : IpAddress) : address.written ≠ [] := by
  intro empty
  have read := read?_written address
  rw [empty] at read
  contradiction

/-- The text of an address may be listed. -/
theorem isEntry_text (address : IpAddress) : Text.IsEntry address.text := by
  apply Text.isEntry_ofList address.written_ne_nil
  intro c member
  exact (isAddressChar_of_mem_written member).plain

end IpAddress

/-- An address text resolves to the address, whatever the other hosts are. -/
theorem Resolver.literalFirst_text (others : Resolver) (address : IpAddress) :
    literalFirst others address.text = .ok address :=
  literalFirst_of_spelled address.ofString?_text others

/-! ## Members -/

/-- A set has as many members as there are different texts in a list of them. -/
theorem AddressSet.size_eq_card {set : AddressSet} {texts : List String}
    (members : ∀ text, set.contains text = true ↔ text ∈ texts) :
    set.size = texts.toFinset.card := by
  have distinct : set.toList.Nodup :=
    set.ascending.imp fun less equal => by
      rw [equal] at less
      exact String.lt_irrefl _ less
  rw [size, ← List.toFinset_card_of_nodup distinct]
  congr 1
  ext text
  rw [List.mem_toFinset, List.mem_toFinset, ← contains_iff_mem, members]

namespace RegistryBuild

variable {resolver : Resolver} {settings : PeerSettings}

/-- Whatever a registry trusts may be listed. -/
theorem isEntry_of_contains {text : String}
    (trusted : (ofSettings resolver settings).registry.contains text = true) :
    Text.IsEntry text := by
  rcases contains_ofSettings_iff.mp trusted with listed | ⟨_, address, -, -, rfl⟩
  · exact listed.1
  · exact address.isEntry_text

/-! ## Members listed again -/

/-- Settings without hosts are read without a question and without a fault. -/
theorem ofSettings_of_no_hosts (noHosts : settings.hosts = "") :
    ofSettings resolver settings = ofAddresses settings := by
  rw [ofSettings, noHosts]
  rfl

/-- Listed entries are trusted as they are. -/
theorem contains_ofAddresses_listing_iff {trustLoopback : Bool} {items : List String}
    (areEntries : ∀ item ∈ items, Text.IsEntry item) {text : String} :
    (ofAddresses { trustLoopback, addresses := Text.listing items }).registry.contains text =
        true ↔ text ∈ items := by
  rw [PeerRegistry.contains, ofAddresses, AddressSet.contains_ofList_iff,
    Text.entries_listing areEntries]

/-- A registry is built again from a list of its members.

List all that the registry of some settings trusts, in any order and with any
repetitions.  From this list of addresses and from no hosts, with the same
choice about the host itself, the same registry is built; no resolver is asked,
and nothing fails. -/
theorem ofSettings_listing_members (settings : PeerSettings) (resolver other : Resolver)
    {members : List String}
    (complete : ∀ text, text ∈ members ↔
      (ofSettings resolver settings).registry.contains text = true) :
    ofSettings other
        { trustLoopback := settings.trustLoopback
          addresses := Text.listing members
          hosts := "" } =
      { registry := (ofSettings resolver settings).registry, failures := [], asked := [] } := by
  have areEntries : ∀ member ∈ members, Text.IsEntry member := by
    intro member isMember
    exact isEntry_of_contains ((complete member).mp isMember)
  have sameRegistry :
      (ofAddresses
          { trustLoopback := settings.trustLoopback
            addresses := Text.listing members }).registry =
        (ofSettings resolver settings).registry := by
    apply PeerRegistry.eq_of_contains
    · exact trustsLoopback_ofSettings.symm
    · intro text
      rw [contains_ofAddresses_listing_iff areEntries, complete]
  rw [ofSettings_of_no_hosts rfl, ← sameRegistry]
  rfl

/-- A registry of a padded address, of a text that is no address, and of a host
with an address of version 6, listed backwards and with a repetition. -/
theorem ofSettings_listing_of_mixed_members :
    let resolver : Resolver :=
      (HostTable.empty.add "inbox.example"
        (.v6 ⟨[0x2001, 0xdb8, 0, 0, 0, 0, 0, 1], rfl⟩)).resolver
    let settings : PeerSettings :=
      { trustLoopback := true
        addresses := " 203.0.113.5 ,,not an address"
        hosts := "inbox.example,inbox.invalid" }
    let members := ["not an address", "203.0.113.5", "2001:db8::1", "203.0.113.5"]
    (∀ text, text ∈ members ↔
        (ofSettings resolver settings).registry.contains text = true) ∧
      Text.listing members = "not an address,203.0.113.5,2001:db8::1,203.0.113.5" ∧
      ofSettings HostTable.empty.resolver
          { trustLoopback := true, addresses := Text.listing members, hosts := "" } =
        { registry := (ofSettings resolver settings).registry
          failures := []
          asked := [] } := by
  intro resolver settings members
  have complete : ∀ text, text ∈ members ↔
      (ofSettings resolver settings).registry.contains text = true := by
    have listed : (ofSettings resolver settings).registry.trusted.toList =
        ["2001:db8::1", "203.0.113.5", "not an address"] := by
      decide
    intro text
    rw [PeerRegistry.contains, AddressSet.contains_iff_mem, listed]
    simp only [members, List.mem_cons, List.not_mem_nil, or_false]
    constructor
    · rintro (equal | equal | equal | equal) <;> simp [equal]
    · rintro (equal | equal | equal) <;> simp [equal]
  exact ⟨complete, rfl, ofSettings_listing_members settings resolver _ complete⟩

/-! ## Addresses listed as hosts -/

/-- When every listed host has an address, nothing fails. -/
theorem failures_ofSettings_of_resolved
    (resolved : ∀ host ∈ Text.entries settings.hosts, ∃ address, resolver host = .ok address) :
    (ofSettings resolver settings).failures = [] := by
  rw [failures_ofSettings, List.filterMap_eq_nil_iff]
  intro host member
  obtain ⟨address, isAddress⟩ := resolved host member
  exact Resolver.fault?_of_ok isAddress

/-- Hosts with their own names as addresses are trusted as if these were listed. -/
theorem contains_ofSettings_listing_iff {trustLoopback : Bool} {hosts : List String}
    (areEntries : ∀ host ∈ hosts, Text.IsEntry host)
    (selfNamed : ∀ host ∈ hosts, ∃ address, resolver host = .ok address ∧ address.text = host)
    {text : String} :
    (ofSettings resolver { trustLoopback, hosts := Text.listing hosts }).registry.contains text =
        true ↔ text ∈ hosts := by
  have noAddresses : ¬Text.Lists "" text := by
    rw [← Text.mem_entries_iff]
    exact List.not_mem_nil
  rw [contains_ofSettings_iff, PeerSettings.Trusts, or_iff_right noAddresses]
  simp only [← Text.mem_entries_iff, Text.entries_listing areEntries]
  constructor
  · rintro ⟨host, address, member, resolved, written⟩
    obtain ⟨named, resolvedNamed, writtenNamed⟩ := selfNamed host member
    obtain rfl := Except.ok.inj (resolved.symm.trans resolvedNamed)
    rwa [← written, writtenNamed]
  · intro member
    obtain ⟨address, resolved, written⟩ := selfNamed text member
    exact ⟨text, address, member, resolved, written⟩

/-- Addresses are known by their texts.

An address text resolves to the address, with any table of hosts, even one that
has another address for it, and with any name service; and no two addresses
have one text.  So if the texts of some addresses are listed as hosts, nothing
fails, their texts are trusted and no others, one for each of the different
addresses, and the registry is the one that is built when they are listed as
addresses. -/
theorem ofSettings_addressTexts (table : HostTable) (addresses : List IpAddress)
    (trustLoopback : Bool) :
    let texts := addresses.map IpAddress.text
    let build := ofSettings table.resolver { trustLoopback, hosts := Text.listing texts }
    (∀ address : IpAddress, table.resolver address.text = .ok address ∧
        ∀ service : NameService, service.resolver address.text = .ok address) ∧
      Function.Injective IpAddress.text ∧
      build.failures = [] ∧
      (∀ text, build.registry.contains text = true ↔ text ∈ texts) ∧
      build.registry.trusted.size = addresses.toFinset.card ∧
      build.registry = (ofSettings table.resolver
        { trustLoopback, addresses := Text.listing texts }).registry := by
  intro texts build
  have areEntries : ∀ text ∈ texts, Text.IsEntry text := by
    intro text member
    obtain ⟨address, -, rfl⟩ := List.mem_map.mp member
    exact address.isEntry_text
  have selfNamed : ∀ text ∈ texts, ∃ address,
      table.resolver text = .ok address ∧ address.text = text := by
    intro text member
    obtain ⟨address, -, rfl⟩ := List.mem_map.mp member
    exact ⟨address, Resolver.literalFirst_text _ address, rfl⟩
  have members (text : String) : build.registry.contains text = true ↔ text ∈ texts :=
    contains_ofSettings_listing_iff areEntries selfNamed
  refine ⟨?_, IpAddress.text_injective, ?_, members, ?_, ?_⟩
  · intro address
    constructor
    · exact Resolver.literalFirst_text _ address
    · intro service
      exact Resolver.literalFirst_text _ address
  · apply failures_ofSettings_of_resolved
    intro host member
    rw [Text.entries_listing areEntries] at member
    obtain ⟨address, resolved, -⟩ := selfNamed host member
    exact ⟨address, resolved⟩
  · have image : texts.toFinset = addresses.toFinset.image IpAddress.text := by
      ext text
      simp only [texts, List.mem_toFinset, List.mem_map, Finset.mem_image]
    rw [AddressSet.size_eq_card members, image,
      Finset.card_image_of_injective _ IpAddress.text_injective]
  · rw [ofSettings_of_no_hosts rfl]
    apply PeerRegistry.eq_of_contains
    · exact trustsLoopback_ofSettings
    · intro text
      rw [members, contains_ofAddresses_listing_iff areEntries]

end RegistryBuild

end AccessPolicy
