import Mathlib.Data.List.Perm.Subperm
import ScimQuery.Proofs.Json.Sameness
import ScimQuery.Proofs.Projection.Complement

/-! # Objects that keeping leaves as they are

The keys that are kept are those of members that are always there or addressed (`mem_keys_keep_iff`),
and they differ in more than case (`namesDiffer_keep`).  Keeping some names leaves an object as it is,
but for the order of members, if and only if the names cover it (`same_keep_iff`): each of its members
is always there, or addressed as a whole, or addressed by parts that fit all it holds. -/

namespace ScimQuery
namespace Projection

/-! ### Keys of what is kept -/

section Keys

variable {names : List String} {r : Object}

/-- `IsAddressed r names key`: some name addresses the member with a key, or a part of it. -/
def IsAddressed (r : Object) (names : List String) (key : String) : Prop :=
  ∃ name ∈ names, AddressesWhole r name key ∨ ∃ part, AddressesPart r name key part

theorem IsAddressed.isFirst {key : String} (h : IsAddressed r names key) :
    r.IsFirst (fun k => Text.lower k = Text.lower key) key := by
  obtain ⟨name, -, hwhole | ⟨part, hpart⟩⟩ := h
  · exact hwhole.isFirst
  · exact hpart.isFirst

theorem share?_ne_none {as : List Address} {a : Address} (ha : a ∈ as) :
    share? as a.key ≠ none := by
  have hne : as.filter (·.key == a.key) ≠ [] :=
    List.ne_nil_of_mem (List.mem_filter.mpr ⟨ha, beq_self_eq_true a.key⟩)
  simp only [share?, List.isEmpty_iff, hne, if_false]
  split
  · simp
  · simp

variable (hnames : ∀ name ∈ names, ∀ c ∈ name.toList, Text.IsPlain c)
include hnames

theorem isAddressed_iff {key : String} :
    IsAddressed r names key ↔ ∃ part, ⟨key, part⟩ ∈ addresses r names := by
  constructor
  · rintro ⟨name, hname, hwhole | ⟨part, hpart⟩⟩
    · exact ⟨none, (mem_addresses_whole_iff hnames).mpr ⟨name, hname, hwhole⟩⟩
    · exact ⟨some part, (mem_addresses_part_iff hnames).mpr ⟨name, hname, hpart⟩⟩
  · rintro ⟨part, hmem⟩
    cases part with
    | none =>
        obtain ⟨name, hname, hwhole⟩ := (mem_addresses_whole_iff hnames).mp hmem
        exact ⟨name, hname, .inl hwhole⟩
    | some part =>
        obtain ⟨name, hname, hpart⟩ := (mem_addresses_part_iff hnames).mp hmem
        exact ⟨name, hname, .inr ⟨part, hpart⟩⟩

/-- The keys that are kept are those of members that are always there or addressed. -/
theorem mem_keys_keep_iff {key : String} :
    key ∈ (keep names r).keys ↔ IsAlways r key ∨ IsAddressed r names key := by
  by_cases ha : IsAlways r key
  · have hkey : key ∈ (keep names r).keys := by
      rw [keep, Object.keys, List.map_append, List.mem_append]
      exact .inl (isAlways_iff.mp ha)
    exact iff_of_true hkey (.inl ha)
  · rw [or_iff_right ha, ← not_iff_not, ← Object.get?_eq_none_iff, get?_keep names ha, shareOf?]
    constructor
    · intro hnone haddr
      have hkey : r.get? key ≠ none := fun h => Object.get?_eq_none_iff.mp h haddr.isFirst.mem
      obtain ⟨v, hv⟩ := Option.ne_none_iff_exists'.mp hkey
      obtain ⟨part, hmem⟩ := (isAddressed_iff hnames).mp haddr
      obtain ⟨share, hshare⟩ := Option.ne_none_iff_exists'.mp (share?_ne_none hmem)
      dsimp only at hshare
      rw [hshare, hv] at hnone
      cases hnone
    · intro hno
      have hnone : share? (addresses r names) key = none := by
        refine share?_of_forall_ne fun a hmem he => hno ?_
        exact (isAddressed_iff hnames).mpr ⟨a.part, he ▸ hmem⟩
      rw [hnone]
      rfl

/-- A key that is kept is the first of those that differ from it at most in case. -/
theorem isFirst_of_mem_keys_keep {key : String} (h : key ∈ (keep names r).keys) :
    r.IsFirst (fun k => Text.lower k = Text.lower key) key := by
  rcases (mem_keys_keep_iff hnames).mp h with ⟨name, -, hfirst⟩ | haddr
  · exact hfirst.imp rfl fun k hk => hk.trans hfirst.prop
  · exact haddr.isFirst

/-- A key that is kept is a key of the resource. -/
theorem mem_keys_of_mem_keys_keep {key : String} (h : key ∈ (keep names r).keys) : key ∈ r.keys :=
  (isFirst_of_mem_keys_keep hnames h).mem

/-- Keys that are kept and differ at most in case are the same. -/
theorem eq_of_lower_eq {key key' : String} (h : key ∈ (keep names r).keys)
    (h' : key' ∈ (keep names r).keys) (he : Text.lower key = Text.lower key') : key = key' := by
  have hfirst := isFirst_of_mem_keys_keep hnames h
  rw [he] at hfirst
  exact hfirst.unique (isFirst_of_mem_keys_keep hnames h')

/-- The keys that are kept differ in more than case. -/
theorem namesDiffer_keep : (keep names r).NamesDiffer := by
  have hnodup := nodup_keys_keep names r
  rw [Object.keys, List.Nodup, List.pairwise_map] at hnodup
  refine hnodup.imp_of_mem fun {m n} hm hn hne he => hne ?_
  exact eq_of_lower_eq hnames (List.mem_map_of_mem hm) (List.mem_map_of_mem hn) he

end Keys

/-! ### Objects that keeping leaves as they are -/

end Projection

/-- `v.Within parts`: parts fit every member of the object that a value is, or of the objects in the
array that it is. -/
def Json.Within (parts : String → Prop) : Json → Prop
  | .object o => ∀ m ∈ o, Object.FirstFor o parts m.1
  | .array items => ∀ o, .object o ∈ items → ∀ m ∈ o, Object.FirstFor o parts m.1
  | .scalar _ => True

namespace Projection

/-- `Covers names o`: each member of an object is always there, or addressed as a whole, or some of its
parts are addressed and it is within them. -/
def Covers (names : List String) (o : Object) : Prop :=
  ∀ m ∈ o, IsAlways o m.1 ∨ (∃ name ∈ names, AddressesWhole o name m.1) ∨
    ((∃ part, PartOf o names m.1 part) ∧ m.2.Within (PartOf o names m.1))

section Parts

variable {parts : List String} {P : String → Prop} (hparts : ∀ part, part ∈ parts ↔ P part)
  (hp : parts.Pairwise fun s t => Text.lower s ≠ Text.lower t)
include hparts hp

theorem same_keepMembers_iff {o : Object} (ho : (Json.object o).HasDistinctKeys) :
    Json.same (.object (keepMembers parts o)) (.object o) = true ↔
      ∀ m ∈ o, o.FirstFor P m.1 := by
  cases ho with
  | object hkeys hvalues =>
      have hsplit := split_members hkeys hparts hp
      constructor
      · intro h m hm
        have hlength := hsplit.perm.length_eq
        rw [List.length_append, Json.length_eq_of_same h] at hlength
        have hnil : dropMembers parts o = [] := List.eq_nil_of_length_eq_zero (by omega)
        by_contra hnot
        have hleft := (hsplit.mem_left m).mpr ⟨hm, hnot⟩
        rw [hnil] at hleft
        cases hleft
      · intro h
        have hnil : dropMembers parts o = [] := by
          refine List.eq_nil_iff_forall_not_mem.mpr fun m hm => ?_
          obtain ⟨hmo, hnot⟩ := (hsplit.mem_left m).mp hm
          exact hnot (h m hmo)
        have hperm := hsplit.perm
        rw [hnil, List.append_nil] at hperm
        exact Json.same_object_of_perm hkeys hperm fun m hm => Json.same_self (hvalues m hm)

theorem same_onObjects_iff {v : Json} (hv : v.HasDistinctKeys) :
    (onObjects (keepMembers parts) v).same v = true ↔ v.Within P := by
  cases hv with
  | scalar s => exact iff_of_true (Json.same_self (.scalar s)) trivial
  | object hkeys hvalues => exact same_keepMembers_iff hparts hp (.object hkeys hvalues)
  | @array items hitems =>
      rw [onObjects, Json.same, Json.sameItems_iff, List.forall₂_map_left_iff, List.forall₂_same,
        Json.Within]
      constructor
      · intro h o ho
        exact (same_keepMembers_iff hparts hp (hitems _ ho)).mp (h _ ho)
      · intro h v hv
        cases v with
        | object o => exact (same_keepMembers_iff hparts hp (hitems _ hv)).mpr (h o hv)
        | scalar s => exact Json.same_self (hitems _ hv)
        | array vs => exact Json.same_self (hitems _ hv)

end Parts

section Fixed

variable {names : List String} {o : Object}
  (hnames : ∀ name ∈ names, ∀ c ∈ name.toList, Text.IsPlain c) (hnodup : names.Nodup)
include hnames hnodup

/-- A member is kept as it is if it is always there, or addressed as a whole, or within its parts that
are addressed. -/
theorem get?_keep_same_iff {key : String} {v : Json} (hv : o.get? key = some v)
    (hkeys : v.HasDistinctKeys) :
    (∃ w, (keep names o).get? key = some w ∧ w.same v = true) ↔
      IsAlways o key ∨ (∃ name ∈ names, AddressesWhole o name key) ∨
        ((∃ part, PartOf o names key part) ∧ v.Within (PartOf o names key)) := by
  by_cases ha : IsAlways o key
  · have hkept : (keep names o).get? key = some v := (get?_of_isAlways hv ha).1
    exact iff_of_true ⟨v, hkept, Json.same_self hkeys⟩ (.inl ha)
  · rw [or_iff_right ha]
    by_cases hw : ∃ name ∈ names, AddressesWhole o name key
    · have hkept := (get?_of_whole hnames hv ha hw).1
      exact iff_of_true ⟨v, hkept, Json.same_self hkeys⟩ (.inl hw)
    · rw [or_iff_right hw]
      by_cases hp : ∃ part, PartOf o names key part
      · obtain ⟨parts, hshare, hparts, hpairwise⟩ := share?_eq_parts hnames hnodup hw hp
        rw [and_iff_right hp, get?_keep names ha, shareOf?, hshare, hv,
          ← same_onObjects_iff hparts hpairwise hkeys]
        constructor
        · rintro ⟨w, hw, hsame⟩
          obtain rfl := Option.some.inj hw
          exact hsame
        · exact fun hsame => ⟨_, rfl, hsame⟩
      · have hnone := (get?_of_unaddressed hnames hv ha hw hp).1
        rw [hnone]
        simp [hp]

/-- Keeping some names leaves an object as it is, but for the order of members, if and only if the
names cover it. -/
theorem same_keep_iff (ho : (Json.object o).HasDistinctKeys) :
    Json.same (.object (keep names o)) (.object o) = true ↔ Covers names o := by
  cases ho with
  | object hkeys hvalues =>
      have hkept := nodup_keys_keep names o
      have hsub : (keep names o).keys ⊆ o.keys := fun k => mem_keys_of_mem_keys_keep hnames
      rw [Json.same, Bool.and_eq_true, beq_iff_eq, Json.sameMembers_iff]
      constructor
      · rintro ⟨hlength, hsame⟩ m hm
        have hperm : (keep names o).keys.Perm o.keys := by
          refine (List.subperm_of_subset hkept hsub).perm_of_length_le ?_
          simp only [Object.keys, List.length_map]
          omega
        have hkey : m.1 ∈ (keep names o).keys := hperm.mem_iff.mpr (List.mem_map_of_mem hm)
        have hget := Object.get?_of_mem hkeys hm
        obtain ⟨w, hw⟩ := Option.ne_none_iff_exists'.mp
          fun hnone => Object.get?_eq_none_iff.mp hnone hkey
        obtain ⟨v, hv, hwv⟩ := hsame _ (Object.mem_of_get? hw)
        rw [hget] at hv
        obtain rfl := Option.some.inj hv
        exact (get?_keep_same_iff hnames hnodup hget (hvalues m hm)).mp ⟨w, hw, hwv⟩
      · intro hcovers
        have hget : ∀ m ∈ o, ∃ w, (keep names o).get? m.1 = some w ∧ w.same m.2 = true := by
          intro m hm
          have hv := Object.get?_of_mem hkeys hm
          exact (get?_keep_same_iff hnames hnodup hv (hvalues m hm)).mpr (hcovers m hm)
        have hperm : (keep names o).keys.Perm o.keys := by
          rw [List.perm_ext_iff_of_nodup hkept hkeys]
          refine fun k => ⟨fun hk => hsub hk, fun hk => ?_⟩
          obtain ⟨m, hm, rfl⟩ := List.mem_map.mp hk
          obtain ⟨w, hw, -⟩ := hget m hm
          exact List.mem_map.mpr ⟨_, Object.mem_of_get? hw, rfl⟩
        refine ⟨?_, fun m hm => ?_⟩
        · have := hperm.length_eq
          rwa [Object.keys, Object.keys, List.length_map, List.length_map] at this
        · obtain ⟨n, hn, hkey⟩ := List.mem_map.mp (hsub (List.mem_map_of_mem hm))
          obtain ⟨w, hw, hsame⟩ := hget n hn
          rw [hkey, Object.get?_of_mem hkept hm] at hw
          obtain rfl := Option.some.inj hw
          exact ⟨n.2, hkey ▸ Object.get?_of_mem hkeys hn, hsame⟩

end Fixed

/-! ### Keys in what is kept -/

theorem keepMembers_subset (parts : List String) (o : Object) : keepMembers parts o ⊆ o := by
  intro m hm
  obtain ⟨part, -, hm⟩ := mem_keepMembers.mp hm
  exact Object.mem_of_member? hm

/-- A change of objects that leaves some of their members makes no key stand twice. -/
theorem hasDistinctKeys_onObjects {change : Object → Object} (hsub : ∀ o, change o ⊆ o)
    (hkeys : ∀ o : Object, o.keys.Nodup → (change o).keys.Nodup) {v : Json}
    (hv : v.HasDistinctKeys) : (onObjects change v).HasDistinctKeys := by
  have hobject : ∀ {o : Object}, (Json.object o).HasDistinctKeys →
      (Json.object (change o)).HasDistinctKeys := by
    intro o ho
    cases ho with
    | object ho hvalues => exact .object (hkeys o ho) fun m hm => hvalues m (hsub o hm)
  cases hv with
  | scalar s => exact .scalar s
  | object ho hvalues => exact hobject (.object ho hvalues)
  | @array items hitems =>
      refine .array fun w hw => ?_
      obtain ⟨v, hv, rfl⟩ := List.mem_map.mp hw
      cases v with
      | object o => exact hobject (hitems _ hv)
      | scalar s => exact hitems _ hv
      | array vs => exact hitems _ hv

section Kept

variable {names : List String} {r : Object}
  (hnames : ∀ name ∈ names, ∀ c ∈ name.toList, Text.IsPlain c) (hnodup : names.Nodup)
include hnames hnodup

/-- No object in what is kept has a key twice, if none does in the resource. -/
theorem hasDistinctKeys_keep (hr : (Json.object r).HasDistinctKeys) :
    (Json.object (keep names r)).HasDistinctKeys := by
  have hkeys := nodup_keys_keep names r
  refine .object hkeys fun m hm => ?_
  have hget := Object.get?_of_mem hkeys hm
  by_cases ha : IsAlways r m.1
  · rw [get?_keep_of_isAlways names ha] at hget
    exact hr.of_get? hget
  rw [get?_keep names ha, shareOf?, Option.bind_eq_some_iff] at hget
  obtain ⟨share, hshare, hget⟩ := hget
  obtain ⟨v, hv, hkept⟩ := Option.map_eq_some_iff.mp hget
  rw [← hkept]
  cases share with
  | whole => exact hr.of_get? hv
  | parts parts =>
      have hpairwise := pairwise_of_share? hnames hnodup hshare
      exact hasDistinctKeys_onObjects (keepMembers_subset parts)
        (fun o _ => nodup_keys_keepMembers hpairwise o) (hr.of_get? hv)

end Kept

end Projection
end ScimQuery
