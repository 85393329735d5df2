import ScimQuery.Projection
import ScimQuery.Proofs.Attribute.Members
import ScimQuery.Proofs.Text.Lowering
import ScimQuery.Proofs.Text.Pieces

/-! # What names address

A name addresses a member as a whole (`AddressesWhole`) or, failing that, a part of one
(`AddressesPart`): what follows the key of an extension and a colon, or what follows the first point
behind a name that fits a key.  These are the addresses that a projection finds
(`address?_eq_whole_iff`, `address?_eq_part_iff`), and two names address two different parts of a
member (`AddressesPart.lower_ne`).  So the share of a member that names address is the whole, or parts
that no two names fit (`share?_eq_parts`). -/

namespace ScimQuery
namespace Projection

/-! ### Addresses -/

/-- `AddressesWhole r name key`: a name is the lower-case form of a key, of which it is the first. -/
def AddressesWhole (r : Object) (name key : String) : Prop :=
  r.IsFirst (fun k => Text.lower k = name) key

/-- Whether a name starts as a schema URN does. -/
def IsUrnName (name : String) : Prop := urnStart <+: name.toList

instance (name : String) : Decidable (IsUrnName name) := inferInstanceAs (Decidable (_ <+: _))

theorem IsUrnName.append {s : String} (h : IsUrnName s) (t : String) : IsUrnName (s ++ t) := by
  rw [IsUrnName, String.toList_append]
  exact h.trans (List.prefix_append _ _)

/-- `AddressesPart r name key part`: a name, which addresses no member as a whole, addresses a part of
the member with a key. -/
inductive AddressesPart (r : Object) (name : String) : String → String → Prop
  | extension {key part : String} :
      (∀ k, ¬ AddressesWhole r name k) → IsUrnName name →
      r.IsFirst (fun k => IsUrnName (Text.lower k) ∧ ∃ s, name = Text.lower k ++ ":" ++ s) key →
      name = Text.lower key ++ ":" ++ part → AddressesPart r name key part
  | dotted (top : String) {key part : String} :
      (∀ k, ¬ AddressesWhole r name k) → ¬ IsUrnName name →
      '.' ∉ top.toList → name = top ++ "." ++ part →
      r.IsFirst (fun k => Text.lower k = Text.lower top) key → AddressesPart r name key part

section FirstKeys

variable {r : Object}

theorem AddressesPart.not_whole {name key part : String} (h : AddressesPart r name key part) :
    ∀ k, ¬ AddressesWhole r name k := by
  cases h with
  | extension hno => exact hno
  | dotted _ hno => exact hno

theorem AddressesPart.isFirst {name key part : String} (h : AddressesPart r name key part) :
    r.IsFirst (fun k => Text.lower k = Text.lower key) key := by
  cases h with
  | extension _ _ hfirst _ =>
      refine hfirst.imp rfl fun k hk => ?_
      rw [hk]
      exact hfirst.prop
  | dotted top _ _ _ _ hfirst => exact hfirst.imp rfl fun k hk => hk.trans hfirst.prop

theorem AddressesWhole.isFirst {name key : String} (h : AddressesWhole r name key) :
    r.IsFirst (fun k => Text.lower k = Text.lower key) key :=
  h.imp rfl fun _ hk => hk.trans h.prop

end FirstKeys

/-- A text is cut at its first point in one way. -/
theorem dotted_unique {top rest top' rest' : String} (htop : '.' ∉ top.toList)
    (htop' : '.' ∉ top'.toList) (h : top ++ "." ++ rest = top' ++ "." ++ rest') :
    top = top' ∧ rest = rest' := by
  have hchars : top.toList ++ '.' :: rest.toList = top'.toList ++ '.' :: rest'.toList := by
    simpa using congrArg String.toList h
  have hcut : Text.cutFirst '.' (top.toList ++ '.' :: rest.toList) =
      some (top.toList, rest.toList) := Text.cutFirst_eq_some_iff.mpr ⟨rfl, htop⟩
  rw [hchars, Text.cutFirst_eq_some_iff.mpr ⟨rfl, htop'⟩] at hcut
  simp only [Option.some.injEq, Prod.mk.injEq, String.toList_inj] at hcut
  exact ⟨hcut.1.symm, hcut.2.symm⟩

/-! ### Schemas inside schemas -/

/-- `Encloses outer inner`: a key is, ignoring case, another one that is a schema URN, followed by a
colon and more. -/
def Encloses (outer inner : String) : Prop :=
  IsUrnName (Text.lower outer) ∧ ∃ s, Text.lower inner = Text.lower outer ++ ":" ++ s

theorem encloses_iff {outer inner : String} : Encloses outer inner ↔
    urnStart <+: (Text.lower outer).toList ∧
      (Text.lower outer).toList ++ [':'] <+: (Text.lower inner).toList := by
  refine and_congr_right fun _ => ⟨?_, ?_⟩
  · rintro ⟨s, hs⟩
    refine ⟨s.toList, ?_⟩
    rw [hs]
    simp
  · rintro ⟨rest, hrest⟩
    refine ⟨String.ofList rest, ?_⟩
    rw [← String.toList_inj, ← hrest]
    simp

instance (outer inner : String) : Decidable (Encloses outer inner) :=
  decidable_of_iff _ encloses_iff.symm

/-- Of two schema URNs that a name starts with, one encloses the other. -/
theorem encloses_of_starts {name k k' s s' : String} (hk : IsUrnName (Text.lower k))
    (hk' : IsUrnName (Text.lower k')) (hs : name = Text.lower k ++ ":" ++ s)
    (hs' : name = Text.lower k' ++ ":" ++ s') (hne : Text.lower k ≠ Text.lower k') :
    Encloses k k' ∨ Encloses k' k := by
  have henclose : ∀ {k k' s s' : String}, IsUrnName (Text.lower k) →
      name = Text.lower k ++ ":" ++ s → name = Text.lower k' ++ ":" ++ s' →
      (Text.lower k).toList.length < (Text.lower k').toList.length → Encloses k k' := by
    intro k k' s s' hk hs hs' hlt
    have hpre : (Text.lower k).toList ++ [':'] <+: name.toList := ⟨s.toList, by rw [hs]; simp⟩
    have hpre' : (Text.lower k').toList <+: name.toList := ⟨':' :: s'.toList, by rw [hs']; simp⟩
    exact encloses_iff.mpr ⟨hk, List.prefix_of_prefix_length_le hpre hpre' (by simp; omega)⟩
  rcases Nat.lt_trichotomy (Text.lower k).toList.length (Text.lower k').toList.length with
    hlt | heq | hlt
  · exact .inl (henclose hk hs hs' hlt)
  · refine absurd ?_ hne
    have hlists : (Text.lower k).toList ++ ':' :: s.toList =
        (Text.lower k').toList ++ ':' :: s'.toList := by
      have := congrArg String.toList (hs.symm.trans hs')
      simpa using this
    exact String.toList_injective (List.append_inj_left hlists heq)
  · exact .inr (henclose hk' hs' hs hlt)

/-! ### Finding addresses -/

section Find

variable {r : Object} {name key part : String} (hname : ∀ c ∈ name.toList, Text.IsPlain c)

theorem isUrnName_iff : urnStart.isPrefixOf name.toList = true ↔ IsUrnName name := by
  rw [List.isPrefixOf_iff_prefix, IsUrnName]

include hname in
theorem key?_eq_some_iff_addressesWhole : r.key? name = some key ↔ AddressesWhole r name key := by
  rw [Object.key?_eq_some_iff, Text.lower_eq_self hname, AddressesWhole]

include hname in
theorem key?_eq_none_iff_not_addressesWhole :
    r.key? name = none ↔ ∀ k, ¬ AddressesWhole r name k := by
  rw [Option.eq_none_iff_forall_ne_some]
  refine forall_congr' fun k => ?_
  rw [ne_eq, key?_eq_some_iff_addressesWhole hname]

/-- The part of an extension is what follows its key and a colon. -/
theorem extensionPart?_eq_some_iff {s : List Char} :
    extensionPart? key name.toList = some s ↔
      IsUrnName (Text.lower key) ∧ name = Text.lower key ++ ":" ++ String.ofList s := by
  have hsplit : name = Text.lower key ++ ":" ++ String.ofList s ↔
      name.toList = (Text.lower key).toList ++ [':'] ++ s := by
    rw [← String.toList_inj]
    simp
  rw [hsplit, extensionPart?]
  simp only [Option.ite_none_right_eq_some, Bool.and_eq_true,
    List.isPrefixOf_iff_prefix, Option.some.injEq]
  constructor
  · rintro ⟨⟨hurn, rest, hrest⟩, rfl⟩
    refine ⟨hurn, ?_⟩
    rw [← hrest]
    simp
  · rintro ⟨hurn, hs⟩
    refine ⟨⟨hurn, s, hs.symm⟩, ?_⟩
    rw [hs]
    simp

theorem extensionPart?_eq_none_iff :
    extensionPart? key name.toList = none ↔
      ¬ (IsUrnName (Text.lower key) ∧ ∃ s, name = Text.lower key ++ ":" ++ s) := by
  rw [Option.eq_none_iff_forall_ne_some]
  constructor
  · rintro h ⟨hurn, s, hs⟩
    exact h s.toList (extensionPart?_eq_some_iff.mpr ⟨hurn, by simpa using hs⟩)
  · intro h s hs
    obtain ⟨hurn, hs⟩ := extensionPart?_eq_some_iff.mp hs
    exact h ⟨hurn, _, hs⟩

/-- The extension that a name addresses is the first one whose key the name starts with. -/
theorem findSome?_extensionPart?_iff :
    (r.findSome? fun (k, _) => (extensionPart? k name.toList).map fun s =>
        (⟨k, some (String.ofList s)⟩ : Address)) = some ⟨key, some part⟩ ↔
      r.IsFirst (fun k => IsUrnName (Text.lower k) ∧ ∃ s, name = Text.lower k ++ ":" ++ s) key ∧
        name = Text.lower key ++ ":" ++ part := by
  rw [List.findSome?_eq_some_iff]
  constructor
  · rintro ⟨before, ⟨k, v⟩, after, rfl, hm, hbefore⟩
    obtain ⟨s, hs, he⟩ := Option.map_eq_some_iff.mp hm
    simp only [Address.mk.injEq, Option.some.injEq] at he
    obtain ⟨rfl, rfl⟩ := he
    obtain ⟨hurn, hsplit⟩ := extensionPart?_eq_some_iff.mp hs
    refine ⟨⟨before, v, after, rfl, ⟨hurn, _, hsplit⟩, fun m hm => ?_⟩, hsplit⟩
    exact extensionPart?_eq_none_iff.mp (Option.map_eq_none_iff.mp (hbefore m hm))
  · rintro ⟨⟨before, v, after, rfl, ⟨hurn, -⟩, hbefore⟩, hsplit⟩
    refine ⟨before, (key, v), after, rfl, ?_, fun m hm => ?_⟩
    · have hs : extensionPart? key name.toList = some part.toList :=
        extensionPart?_eq_some_iff.mpr ⟨hurn, by simpa using hsplit⟩
      simp [hs]
    · have hs : extensionPart? m.1 name.toList = none :=
        extensionPart?_eq_none_iff.mpr (hbefore m hm)
      simp [hs]

/-- The member that a dotted name addresses is the one that what stands before the first point
fits. -/
theorem dotted_eq_some_iff :
    ((Text.cutFirst '.' name.toList).bind fun (top, part) =>
        (r.key? (String.ofList top)).map fun key =>
          (⟨key, some (String.ofList part)⟩ : Address)) = some ⟨key, some part⟩ ↔
      ∃ top, '.' ∉ top.toList ∧ name = top ++ "." ++ part ∧
        r.IsFirst (fun k => Text.lower k = Text.lower top) key := by
  rw [Option.bind_eq_some_iff]
  constructor
  · rintro ⟨⟨top, after⟩, hcut, hkey⟩
    obtain ⟨k, hk, he⟩ := Option.map_eq_some_iff.mp hkey
    simp only [Address.mk.injEq, Option.some.injEq] at he
    obtain ⟨rfl, rfl⟩ := he
    obtain ⟨hsplit, hdot⟩ := Text.cutFirst_eq_some_iff.mp hcut
    refine ⟨String.ofList top, by simpa using hdot, ?_, Object.key?_eq_some_iff.mp hk⟩
    rw [← String.toList_inj, hsplit]
    simp
  · rintro ⟨top, hdot, hsplit, hfirst⟩
    refine ⟨(top.toList, part.toList), Text.cutFirst_eq_some_iff.mpr ⟨?_, hdot⟩, ?_⟩
    · rw [hsplit]
      simp
    · simp [Object.key?_eq_some_iff.mpr hfirst]

theorem partAddress?_eq (r : Object) (s : List Char) :
    partAddress? r s =
      if urnStart.isPrefixOf s then
        r.findSome? fun (k, _) => (extensionPart? k s).map fun part =>
          (⟨k, some (String.ofList part)⟩ : Address)
      else (Text.cutFirst '.' s).bind fun (top, part) =>
        (r.key? (String.ofList top)).map fun key =>
          (⟨key, some (String.ofList part)⟩ : Address) := by
  unfold partAddress?
  split
  · rfl
  · cases Text.cutFirst '.' s with
    | none => rfl
    | some cut =>
        obtain ⟨top, part⟩ := cut
        cases hk : r.key? (String.ofList top) with
        | none => simp [hk]
        | some key => simp [hk]

theorem partAddress?_ne_whole (s : List Char) : partAddress? r s ≠ some ⟨key, none⟩ := by
  rw [partAddress?_eq]
  intro h
  split at h
  · obtain ⟨_, ⟨k, v⟩, _, -, hm, -⟩ := List.findSome?_eq_some_iff.mp h
    obtain ⟨_, -, he⟩ := Option.map_eq_some_iff.mp hm
    simp at he
  · obtain ⟨cut, -, hm⟩ := Option.bind_eq_some_iff.mp h
    obtain ⟨_, -, he⟩ := Option.map_eq_some_iff.mp hm
    simp at he

include hname in
/-- The members that are found as wholes are those that names address as wholes. -/
theorem address?_eq_whole_iff : address? r name = some ⟨key, none⟩ ↔ AddressesWhole r name key := by
  rw [← key?_eq_some_iff_addressesWhole hname, address?]
  cases r.key? name with
  | some k => simp
  | none => simp [partAddress?_ne_whole]

include hname in
/-- The parts that are found are those that names address. -/
theorem address?_eq_part_iff :
    address? r name = some ⟨key, some part⟩ ↔ AddressesPart r name key part := by
  rw [address?]
  cases hkey : r.key? name with
  | some k =>
      have hwhole := (key?_eq_some_iff_addressesWhole hname).mp hkey
      simp only [Option.some.injEq, Address.mk.injEq, reduceCtorEq, and_false, false_iff]
      exact fun h => h.not_whole k hwhole
  | none =>
      have hno := (key?_eq_none_iff_not_addressesWhole hname).mp hkey
      dsimp only
      rw [partAddress?_eq]
      by_cases hurn : IsUrnName name
      · rw [if_pos (isUrnName_iff.mpr hurn), findSome?_extensionPart?_iff]
        constructor
        · rintro ⟨hfirst, hsplit⟩
          exact .extension hno hurn hfirst hsplit
        · intro h
          cases h with
          | extension _ _ hfirst hsplit => exact ⟨hfirst, hsplit⟩
          | dotted _ _ hnot => exact absurd hurn hnot
      · rw [if_neg fun h => hurn (isUrnName_iff.mp h), dotted_eq_some_iff]
        constructor
        · rintro ⟨top, hdot, hsplit, hfirst⟩
          exact .dotted top hno hurn hdot hsplit hfirst
        · intro h
          cases h with
          | extension _ h' => exact absurd h' hurn
          | dotted top _ _ hdot hsplit hfirst => exact ⟨top, hdot, hsplit, hfirst⟩

end Find

/-! ### Parts of one member -/

section Parts

variable {r : Object} {name key part : String}

/-- A part of a name in normal form has plain characters only. -/
theorem AddressesPart.isPlain (h : AddressesPart r name key part)
    (hname : ∀ c ∈ name.toList, Text.IsPlain c) : ∀ c ∈ part.toList, Text.IsPlain c := by
  intro c hc
  cases h with
  | extension _ _ _ hsplit => exact hname c (by rw [hsplit]; simp [hc])
  | dotted _ _ _ _ hsplit _ => exact hname c (by rw [hsplit]; simp [hc])

/-- A name is made of the key and the part that it addresses. -/
theorem AddressesPart.name_eq (h : AddressesPart r name key part)
    (hname : ∀ c ∈ name.toList, Text.IsPlain c) :
    name = Text.lower key ++
      (if urnStart.isPrefixOf (Text.lower key).toList then ":" else ".") ++ part := by
  cases h with
  | extension _ _ hfirst hsplit =>
      rw [if_pos (isUrnName_iff.mpr hfirst.prop.1)]
      exact hsplit
  | dotted top _ hurn _ hsplit hfirst =>
      have htop : Text.lower top = top :=
        Text.lower_eq_self fun c hc => hname c (by rw [hsplit]; simp [hc])
      have hkey : Text.lower key = top := hfirst.prop.trans htop
      have hnot : ¬ IsUrnName (Text.lower key) := by
        intro hk
        rw [hkey] at hk
        refine hurn ?_
        rw [hsplit, String.append_assoc]
        exact hk.append _
      rw [if_neg fun h => hnot (isUrnName_iff.mp h), hkey]
      exact hsplit

/-- Two names address parts of a member that differ even in lower case. -/
theorem AddressesPart.lower_ne {name' part' : String} (h : AddressesPart r name key part)
    (h' : AddressesPart r name' key part') (hname : ∀ c ∈ name.toList, Text.IsPlain c)
    (hname' : ∀ c ∈ name'.toList, Text.IsPlain c) (hne : name ≠ name') :
    Text.lower part ≠ Text.lower part' := by
  intro he
  rw [Text.lower_eq_self (h.isPlain hname), Text.lower_eq_self (h'.isPlain hname')] at he
  refine hne ?_
  rw [h.name_eq hname, h'.name_eq hname', he]

end Parts

/-! ### Shares -/

section Shares

variable {r : Object} {names : List String}

/-- `PartOf r names key part`: some name addresses a part of the member with a key. -/
def PartOf (r : Object) (names : List String) (key part : String) : Prop :=
  ∃ name ∈ names, AddressesPart r name key part

theorem mem_addresses {a : Address} : a ∈ addresses r names ↔ ∃ name ∈ names, address? r name = some a := by
  simp [addresses, List.mem_filterMap]

variable (hnames : ∀ name ∈ names, ∀ c ∈ name.toList, Text.IsPlain c) {key : String}
include hnames

theorem mem_addresses_whole_iff :
    ⟨key, none⟩ ∈ addresses r names ↔ ∃ name ∈ names, AddressesWhole r name key := by
  rw [mem_addresses]
  refine exists_congr fun name => and_congr_right fun hn => ?_
  exact address?_eq_whole_iff (hnames name hn)

theorem mem_addresses_part_iff {part : String} :
    ⟨key, some part⟩ ∈ addresses r names ↔ PartOf r names key part := by
  rw [mem_addresses]
  refine exists_congr fun name => and_congr_right fun hn => ?_
  exact address?_eq_part_iff (hnames name hn)

/-- No two addresses have one key and parts that are alike in lower case. -/
theorem pairwise_addresses (hnodup : names.Nodup) :
    (addresses r names).Pairwise fun a b => a.key = b.key →
      ∀ s, a.part = some s → ∀ t, b.part = some t → Text.lower s ≠ Text.lower t := by
  refine List.Pairwise.filterMap _ ?_ (List.Pairwise.and_mem.mp hnodup)
  rintro name name' ⟨hn, hn', hne⟩ ⟨k, _⟩ ha ⟨_, _⟩ ha' rfl s rfl t rfl
  exact ((address?_eq_part_iff (hnames name hn)).mp ha).lower_ne
    ((address?_eq_part_iff (hnames name' hn')).mp ha') (hnames name hn) (hnames name' hn') hne

theorem share?_eq_whole (h : ∃ name ∈ names, AddressesWhole r name key) :
    share? (addresses r names) key = some .whole := by
  have hm := (mem_addresses_whole_iff hnames).mpr h
  have hne : ((addresses r names).filter (·.key == key)) ≠ [] :=
    List.ne_nil_of_mem (List.mem_filter.mpr ⟨hm, by simp⟩)
  have hany : ((addresses r names).filter (·.key == key)).any (·.part.isNone) = true :=
    List.any_eq_true.mpr ⟨_, List.mem_filter.mpr ⟨hm, by simp⟩, rfl⟩
  simp only [share?, hany, List.isEmpty_iff, hne, if_false, if_true]

/-- Where no name addresses the whole, a part stands once in the share. -/
theorem share?_eq_parts (hnodup : names.Nodup) (hwhole : ¬ ∃ name ∈ names, AddressesWhole r name key)
    (h : ∃ part, PartOf r names key part) :
    ∃ parts, share? (addresses r names) key = some (.parts parts) ∧
      (∀ part, part ∈ parts ↔ PartOf r names key part) ∧
      parts.Pairwise fun s t => Text.lower s ≠ Text.lower t := by
  obtain ⟨part, hpart⟩ := h
  have hm := (mem_addresses_part_iff hnames).mpr hpart
  have hne : ((addresses r names).filter (·.key == key)) ≠ [] :=
    List.ne_nil_of_mem (List.mem_filter.mpr ⟨hm, by simp⟩)
  have hany : ((addresses r names).filter (·.key == key)).any (·.part.isNone) = false := by
    rw [List.any_eq_false]
    rintro ⟨k, part⟩ ha hnone
    rw [List.mem_filter, beq_iff_eq] at ha
    obtain ⟨ha, rfl⟩ := ha
    rw [Option.isNone_iff_eq_none] at hnone
    subst hnone
    exact hwhole ((mem_addresses_whole_iff hnames).mp ha)
  refine ⟨_, by simp only [share?, hany, List.isEmpty_iff, hne, if_false]; rfl, fun part => ?_, ?_⟩
  · rw [← mem_addresses_part_iff hnames, List.mem_filterMap]
    constructor
    · rintro ⟨⟨k, _⟩, ha, rfl⟩
      rw [List.mem_filter, beq_iff_eq] at ha
      obtain ⟨ha, rfl⟩ := ha
      exact ha
    · intro ha
      exact ⟨_, List.mem_filter.mpr ⟨ha, by simp⟩, rfl⟩
  · refine List.Pairwise.filterMap _ ?_
      (List.Pairwise.and_mem.mp ((pairwise_addresses hnames hnodup).filter _))
    rintro a b ⟨ha, hb, hab⟩ s hs t ht
    rw [List.mem_filter, beq_iff_eq] at ha hb
    exact hab (ha.2.trans hb.2.symm) s hs t ht

theorem share?_eq_none (hwhole : ¬ ∃ name ∈ names, AddressesWhole r name key)
    (h : ¬ ∃ part, PartOf r names key part) : share? (addresses r names) key = none := by
  have hnil : (addresses r names).filter (·.key == key) = [] := by
    rw [List.filter_eq_nil_iff]
    rintro ⟨k, part⟩ ha hk
    rw [beq_iff_eq] at hk
    subst hk
    cases part with
    | none => exact hwhole ((mem_addresses_whole_iff hnames).mp ha)
    | some part => exact h ⟨part, (mem_addresses_part_iff hnames).mp ha⟩
  simp only [share?, hnil, List.isEmpty_nil, if_true]

/-- No two parts in the share of a member differ at most in case. -/
theorem pairwise_of_share? {parts : List String} (hnodup : names.Nodup)
    (h : share? (addresses r names) key = some (.parts parts)) :
    parts.Pairwise fun s t => Text.lower s ≠ Text.lower t := by
  by_cases hwhole : ∃ name ∈ names, AddressesWhole r name key
  · rw [share?_eq_whole hnames hwhole] at h
    cases h
  by_cases hpart : ∃ part, PartOf r names key part
  · obtain ⟨parts', hshare, -, hpairwise⟩ := share?_eq_parts hnames hnodup hwhole hpart
    rw [hshare] at h
    cases h
    exact hpairwise
  · rw [share?_eq_none hnames hwhole hpart] at h
    cases h

end Shares

end Projection
end ScimQuery
