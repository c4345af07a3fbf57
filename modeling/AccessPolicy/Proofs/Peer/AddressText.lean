import AccessPolicy.Peer.IpAddress.Printer
import AccessPolicy.Peer.IpAddress.Reader
import AccessPolicy.Proofs.Text.Digits

/-!
# Addresses read from their texts

Every address is read from the text in which it is written.  Since the reader
finds one address at most, no two addresses are written alike.

An address of version 4 is cut at its dots.  An address of version 6 is cut at
its two colons in a row, if it has them, and then at the others.
-/

namespace AccessPolicy

open Text

/-- Entries are read from some texts when each is read from its own text. -/
theorem mapM_eq_some_iff {α β : Type} {read : β → Option α} {texts : List β}
    {entries : List α} : texts.mapM read = some entries ↔ texts.map read = entries.map some := by
  induction texts generalizing entries with
  | nil => cases entries <;> simp
  | cons first rest ih =>
      simp only [List.mapM_cons, Option.bind_eq_bind, Option.pure_def,
        Option.bind_eq_some_iff, Option.some.injEq, ih, List.map_cons]
      constructor
      · rintro ⟨entry, readFirst, others, readRest, rfl⟩
        rw [readFirst, readRest, List.map_cons]
      · intro same
        cases entries with
        | nil => contradiction
        | cons entry others =>
            rw [List.map_cons, List.cons.injEq] at same
            exact ⟨entry, same.1, others, same.2, rfl⟩

theorem mapM_map_of_read {α β : Type} {write : α → β} {read : β → Option α}
    (inverse : ∀ entry, read (write entry) = some entry) (entries : List α) :
    (entries.map write).mapM read = some entries := by
  rw [mapM_eq_some_iff, List.map_map]
  exact List.map_congr_left fun entry _ => inverse entry

theorem not_mem_digits {base : Nat} {c : Char} (isBase : IsBase base)
    (notDigit : isDigit base c = false) (number : Nat) :
    c ∉ digits base number := by
  intro member
  rw [isDigit_of_mem_digits isBase member] at notDigit
  contradiction

/-! ## Version 4 -/

namespace IPv4Address

/-- The address carried by two groups is carried in these. -/
theorem asGroups_ofGroups (high low : UInt16) : (ofGroups high low).asGroups = [high, low] := by
  have whole (group : UInt16) :
      joinOctets (UInt8.ofNat (group.toNat / 256)) (UInt8.ofNat (group.toNat % 256)) =
        group := by
    have bound := group.toNat_lt
    apply UInt16.toNat_inj.mp
    simp only [joinOctets, UInt16.toNat_ofNat', UInt8.toNat_ofNat']
    omega
  simp [asGroups, ofGroups, whole]

theorem octet?_digits (octet : UInt8) : octet? (digits 10 octet.toNat) = some octet := by
  have bound := octet.toNat_lt
  have length : (digits 10 octet.toNat).length ≤ 3 :=
    (Nat.length_toDigits_le_iff isBase_ten.several (by decide)).mpr (by omega)
  have noZero : (digits 10 octet.toNat).length ≤ 1 ∨
      (digits 10 octet.toNat).head? ≠ some '0' := by
    rcases Nat.eq_zero_or_pos octet.toNat with zero | positive
    · rw [zero]
      decide
    · exact .inr (head?_digits_ne_zero isBase_ten positive)
  rw [octet?, if_pos ⟨length, noZero⟩, number?_digits isBase_ten,
    Option.bind_some, if_pos bound, UInt8.ofNat_toNat]

/-- An address of version 4 is read from its text. -/
theorem read?_written (address : IPv4Address) : read? address.written = some address := by
  have noDot : ∀ part ∈ address.octets.map fun octet => digits 10 octet.toNat,
      '.' ∉ part := by
    intro part member
    obtain ⟨octet, -, rfl⟩ := List.mem_map.mp member
    exact not_mem_digits isBase_ten (by decide) _
  rw [read?, written, segments_joined (by simp [octets]) noDot,
    mapM_map_of_read octet?_digits, Option.bind_some, ofOctets?_octets]

theorem isDigit_of_octet? {part : List Char} {octet : UInt8}
    (read : octet? part = some octet) : ∀ c ∈ part, isDigit 10 c = true := by
  unfold octet? at read
  split at read
  · obtain ⟨number, readNumber, -⟩ := Option.bind_eq_some_iff.mp read
    exact isDigit_of_number? readNumber
  · contradiction

/-- An address of version 4 is read from four octets. -/
theorem map_octet?_of_read? {text : List Char} {address : IPv4Address}
    (read : read? text = some address) :
    (segments '.' text).map octet? = address.octets.map some := by
  obtain ⟨octets, readOctets, isAddress⟩ := Option.bind_eq_some_iff.mp read
  rw [← mapM_eq_some_iff, readOctets]
  unfold ofOctets? at isAddress
  split at isAddress
  · obtain rfl := Option.some.inj isAddress
    rfl
  · contradiction

/-- A text without a dot is no address of version 4. -/
theorem read?_of_no_dot {text : List Char} (noDot : '.' ∉ text) : read? text = none := by
  apply Option.eq_none_iff_forall_ne_some.mpr
  intro address read
  have octets := map_octet?_of_read? read
  rw [segments_of_not_mem noDot] at octets
  have lengths := congrArg List.length octets
  simp [IPv4Address.octets] at lengths

/-- A text with a colon is no address of version 4. -/
theorem read?_of_colon {text : List Char} (colon : ':' ∈ text) : read? text = none := by
  apply Option.eq_none_iff_forall_ne_some.mpr
  intro address read
  rw [← joined_segments '.' text] at colon
  rcases eq_or_mem_of_mem_joined colon with isDot | ⟨part, isPart, inPart⟩
  · contradiction
  · have readPart : octet? part ∈ address.octets.map some := by
      rw [← map_octet?_of_read? read]
      exact List.mem_map_of_mem isPart
    obtain ⟨octet, -, readOctet⟩ := List.mem_map.mp readPart
    have isDigit := isDigit_of_octet? readOctet.symm ':' inPart
    contradiction

end IPv4Address

/-! ## Version 6 -/

namespace IPv6Address

/-- The text of a group: not empty, and without a colon. -/
def IsPart (part : List Char) : Prop :=
  part ≠ [] ∧ ':' ∉ part

theorem group?_digits (group : UInt16) : group? (digits 16 group.toNat) = some group := by
  have bound := group.toNat_lt
  have length : (digits 16 group.toNat).length ≤ 4 :=
    (Nat.length_toDigits_le_iff isBase_sixteen.several (by decide)).mpr (by omega)
  rw [group?, if_pos length, number?_digits isBase_sixteen, Option.map_some,
    UInt16.ofNat_toNat]

/-- The texts of some groups. -/
def parts (groups : List UInt16) : List (List Char) :=
  groups.map fun group => digits 16 group.toNat

theorem areParts_parts (groups : List UInt16) : ∀ part ∈ parts groups, IsPart part := by
  intro part member
  obtain ⟨group, -, rfl⟩ := List.mem_map.mp member
  exact ⟨digits_ne_nil, not_mem_digits isBase_sixteen (by decide) _⟩

theorem colonParts_joined {texts : List (List Char)} (areParts : ∀ part ∈ texts, IsPart part) :
    colonParts (joined ':' texts) = texts := by
  cases texts with
  | nil => rfl
  | cons first rest =>
      have nonempty : joined ':' (first :: rest) ≠ [] := by
        rw [joined_cons]
        exact List.append_ne_nil_of_left_ne_nil (areParts first List.mem_cons_self).1 _
      rw [colonParts, if_neg (by simpa using nonempty),
        segments_joined (by simp) fun part member => (areParts part member).2]

/-! ### The gap -/

theorem splitAtGap?_append {part : List Char} (noColon : ':' ∉ part) (rest : List Char) :
    splitAtGap? (part ++ rest) =
      (splitAtGap? rest).map fun (before, behind) => (part ++ before, behind) := by
  induction part with
  | nil => simp
  | cons c others ih =>
      simp only [List.mem_cons, not_or] at noColon
      have different : c ≠ ':' := Ne.symm noColon.1
      rw [List.cons_append, splitAtGap?, ih noColon.2]
      · simp [Function.comp_def]
      · intro behind colon
        exact absurd colon different

/-- A single colon is no gap. -/
theorem splitAtGap?_colon_append {part : List Char} (isPart : IsPart part)
    (rest : List Char) :
    splitAtGap? (':' :: (part ++ rest)) =
      (splitAtGap? (part ++ rest)).map fun (before, behind) => (':' :: before, behind) := by
  cases part with
  | nil => exact absurd rfl isPart.1
  | cons c others =>
      rw [List.cons_append, splitAtGap?]
      intro behind _ same
      obtain ⟨rfl, -⟩ := List.cons.inj same
      exact isPart.2 List.mem_cons_self

/-- There is no gap within the texts of some groups: the first gap is behind
them. -/
theorem splitAtGap?_joined_append {texts : List (List Char)}
    (areParts : ∀ part ∈ texts, IsPart part) (rest : List Char) :
    splitAtGap? (joined ':' texts ++ rest) =
      (splitAtGap? rest).map fun (before, behind) => (joined ':' texts ++ before, behind) := by
  induction texts with
  | nil => simp
  | cons first others ih =>
      obtain ⟨isPart, areLater⟩ := List.forall_mem_cons.mp areParts
      cases others with
      | nil => rw [joined_singleton, splitAtGap?_append isPart.2]
      | cons second others =>
          have single : splitAtGap? (':' :: (joined ':' (second :: others) ++ rest)) =
              (splitAtGap? (joined ':' (second :: others) ++ rest)).map
                fun (before, behind) => (':' :: before, behind) := by
            rw [joined_cons, List.append_assoc]
            exact splitAtGap?_colon_append (areLater second List.mem_cons_self) _
          rw [joined_cons_cons, List.append_assoc, List.cons_append,
            splitAtGap?_append isPart.2, single, ih areLater, Option.map_map, Option.map_map]
          simp [Function.comp_def]

theorem splitAtGap?_parts (groups : List UInt16) :
    splitAtGap? (joined ':' (parts groups)) = none := by
  have noGap := splitAtGap?_joined_append (areParts_parts groups) []
  rwa [List.append_nil] at noGap

theorem splitAtGap?_parts_append_gap (groups : List UInt16) (behind : List Char) :
    splitAtGap? (joined ':' (parts groups) ++ ':' :: ':' :: behind) =
      some (joined ':' (parts groups), behind) := by
  have atGap := splitAtGap?_joined_append (areParts_parts groups)
    (':' :: ':' :: behind)
  simpa [splitAtGap?] using atGap

/-- Groups are read from their texts. -/
theorem mapM_group?_parts (groups : List UInt16) : (parts groups).mapM group? = some groups :=
  mapM_map_of_read group?_digits groups

theorem groupsOrQuad?_parts (groups : List UInt16) :
    groupsOrQuad? (parts groups) = some groups := by
  induction groups with
  | nil => rfl
  | cons group rest ih =>
      cases rest with
      | nil =>
          have noDot : '.' ∉ digits 16 group.toNat :=
            not_mem_digits isBase_sixteen (by decide) _
          simp only [parts, List.map_cons, List.map_nil, groupsOrQuad?,
            IPv4Address.read?_of_no_dot noDot, group?_digits, Option.map_some]
      | cons next others =>
          simp only [parts, List.map_cons] at ih
          simp only [parts, List.map_cons, groupsOrQuad?, group?_digits, ih]
          rfl

/-! ### The three shapes -/

theorem aroundGap?_of_zeros {address : IPv6Address} {head tail : List UInt16} {length : Nat}
    (some_zero : 0 < length)
    (split : address.groups = head ++ List.replicate length 0 ++ tail) :
    aroundGap? head tail = some address := by
  have eight := address.length_groups
  rw [split, List.length_append, List.length_append, List.length_replicate] at eight
  have gap : 8 - (head.length + tail.length) = length := by omega
  rw [aroundGap?, if_pos (by omega), gap, ← split, ofGroups?_groups]

/-- Eight groups between colons. -/
theorem read?_writtenGroups (address : IPv6Address) :
    read? (writtenGroups address.groups) = some address := by
  have noGap : splitAtGap? (writtenGroups address.groups) = none :=
    splitAtGap?_parts address.groups
  have texts : colonParts (writtenGroups address.groups) = parts address.groups :=
    colonParts_joined (areParts_parts _)
  simp only [read?, noGap, texts, groupsOrQuad?_parts, Option.bind_some, ofGroups?_groups]

/-- Groups on both sides of a gap. -/
theorem read?_writtenGroups_gap (head tail : List UInt16) :
    read? (writtenGroups head ++ [':', ':'] ++ writtenGroups tail) = aroundGap? head tail := by
  have atGap : splitAtGap? (writtenGroups head ++ [':', ':'] ++ writtenGroups tail) =
      some (writtenGroups head, writtenGroups tail) := by
    rw [List.append_assoc]
    exact splitAtGap?_parts_append_gap head (writtenGroups tail)
  have headTexts : colonParts (writtenGroups head) = parts head :=
    colonParts_joined (areParts_parts _)
  have tailTexts : colonParts (writtenGroups tail) = parts tail :=
    colonParts_joined (areParts_parts _)
  simp only [read?, atGap, headTexts, tailTexts, mapM_group?_parts, groupsOrQuad?_parts]
  rfl

/-- Where some zeros begin, the groups are those before them, the zeros, and
those behind them. -/
theorem groups_eq_around_zeroRun (groups : List UInt16) (start : Nat) :
    groups = groups.take start ++ List.replicate (zeroRun groups start) 0 ++
      groups.drop (start + zeroRun groups start) := by
  have zeros : (groups.drop start).takeWhile (· == 0) =
      List.replicate (zeroRun groups start) 0 := by
    apply List.eq_replicate_iff.mpr
    constructor
    · rfl
    · intro group member
      exact beq_iff_eq.mp (List.all_eq_true.mp List.all_takeWhile group member)
  have front : (groups.drop start).take (zeroRun groups start) =
      List.replicate (zeroRun groups start) 0 := by
    rw [← zeros]
    exact (List.prefix_iff_eq_take.mp (List.takeWhile_prefix _)).symm
  rw [← front, ← List.drop_drop, List.append_assoc, List.take_append_drop,
    List.take_append_drop]

/-- What an address carries fills its last two groups. -/
theorem groups_of_carried? {address : IPv6Address} {inner : IPv4Address}
    (carries : address.carried? = some inner) :
    address.groups = [0, 0, 0, 0, 0, 0xFFFF] ++ inner.asGroups := by
  unfold carried? at carries
  split at carries
  · rename_i high low groups
    obtain rfl := Option.some.inj carries
    rw [groups, IPv4Address.asGroups_ofGroups]
    rfl
  · contradiction

/-- An address of version 4 behind the mark of one that is carried. -/
theorem read?_carried {address : IPv6Address} {inner : IPv4Address}
    (carries : address.carried? = some inner) :
    read? ("::ffff:".toList ++ inner.written) = some address := by
  have noColon : ':' ∉ inner.written := by
    intro colon
    have read := IPv4Address.read?_written inner
    rw [IPv4Address.read?_of_colon colon] at read
    contradiction
  have texts : colonParts (['f', 'f', 'f', 'f'] ++ ':' :: inner.written) =
      [['f', 'f', 'f', 'f'], inner.written] := by
    rw [colonParts, if_neg (by simp), segments_append_cons (by decide),
      segments_of_not_mem noColon]
  have mark : group? ['f', 'f', 'f', 'f'] = some 0xFFFF := by decide
  have split : address.groups = [] ++ List.replicate 5 0 ++ (0xFFFF :: inner.asGroups) :=
    groups_of_carried? carries
  change (do
    let head ← (colonParts []).mapM group?
    let tail ← groupsOrQuad? (colonParts (['f', 'f', 'f', 'f'] ++ ':' :: inner.written))
    aroundGap? head tail) = some address
  rw [texts]
  simp only [groupsOrQuad?, mark, IPv4Address.read?_written]
  exact aroundGap?_of_zeros (by decide) split

/-- An address of version 6 is read from its text. -/
theorem read?_written (address : IPv6Address) : read? address.written = some address := by
  unfold written
  split
  · rename_i inner carries
    exact read?_carried carries
  · dsimp only
    split
    · rename_i several
      rw [read?_writtenGroups_gap]
      exact aroundGap?_of_zeros (Nat.lt_of_succ_lt several) (groups_eq_around_zeroRun _ _)
    · exact read?_writtenGroups address

theorem colon_mem_written (address : IPv6Address) : ':' ∈ address.written := by
  unfold written
  split
  · simp
  · dsimp only
    split
    · simp
    · obtain ⟨groups, eight⟩ := address
      match groups with
      | first :: second :: rest => simp [writtenGroups]

end IPv6Address

namespace IpAddress

/-- An address is read from its text. -/
theorem read?_written (address : IpAddress) : read? address.written = some address := by
  cases address with
  | v4 address => simp only [read?, written, IPv4Address.read?_written]
  | v6 address =>
      have notVersion4 := IPv4Address.read?_of_colon address.colon_mem_written
      simp only [read?, written, notVersion4, IPv6Address.read?_written, Option.map_some]

theorem ofString?_text (address : IpAddress) : ofString? address.text = some address := by
  rw [ofString?, text, String.toList_ofList, read?_written]

/-- No two addresses have one text. -/
theorem text_injective : Function.Injective text := by
  intro first second same
  have read := ofString?_text first
  rw [same, ofString?_text] at read
  exact (Option.some.inj read).symm

end IpAddress

end AccessPolicy
