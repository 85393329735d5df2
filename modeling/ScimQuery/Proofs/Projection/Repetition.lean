import ScimQuery.Proofs.Projection.Covering
import ScimQuery.Proofs.Projection.Subobject

/-! # Keeping twice

What is kept of a resource by some names, and what is kept of that by the same names.  It is the same
value if and only if the names cover what was kept (`same_kept_again_iff`).

They do unless a name changes what it addresses, and only one kind of name can.  The keys that are
kept differ in more than case, so a name finds no other key for its whole text or for what stands
before its point.  But where the key of one extension starts with the key of another and a colon, a
name stands for a part of either, and what is kept may have the two in the other order.  In a resource
without such keys names address in what is kept what they addressed (`addresses_keep`), and keeping
twice is keeping once (`keep_keep`). -/

namespace ScimQuery
namespace Projection

/-! ### Addresses in what is kept -/

section Addresses

variable {names : List String} {r : Object}
  (hnames : ∀ name ∈ names, ∀ c ∈ name.toList, Text.IsPlain c)

include hnames

/-- Names address in what is kept what they address in the resource, if no key encloses another. -/
theorem addresses_keep (hflat : ∀ outer ∈ r.keys, ∀ inner ∈ r.keys, ¬ Encloses outer inner) :
    addresses (keep names r) names = addresses r names := by
  have hsub : (keep names r).keys ⊆ r.keys := fun _ => mem_keys_of_mem_keys_keep hnames
  unfold addresses
  refine List.filterMap_congr fun name hname => ?_
  have hplain := hnames name hname
  cases h : address? r name with
  | none => exact address?_eq_none_of_subset hsub hplain h
  | some a =>
      have haddr : IsAddressed r names a.key :=
        (isAddressed_iff hnames).mpr ⟨a.part, mem_addresses.mpr ⟨name, hname, h⟩⟩
      have hkey := (mem_keys_keep_iff hnames).mpr (.inr haddr)
      exact address?_of_mem hsub (namesDiffer_keep hnames) hflat hplain h hkey

end Addresses

/-! ### Keeping twice -/

/-- Parts that no two names fit keep members whose keys differ in more than case. -/
theorem namesDiffer_keepMembers {parts : List String}
    (hp : parts.Pairwise fun s t => Text.lower s ≠ Text.lower t) (o : Object) :
    (keepMembers parts o : Object).NamesDiffer := by
  refine List.Pairwise.filterMap _ (fun s t hst m hm n hn he => ?_) hp
  rw [Object.lower_of_member? hm, Object.lower_of_member? hn] at he
  exact hst he

theorem keepMembers_keepMembers {parts : List String}
    (hp : parts.Pairwise fun s t => Text.lower s ≠ Text.lower t) (o : Object) :
    keepMembers parts (keepMembers parts o) = keepMembers parts o := by
  refine List.filterMap_congr fun part hpart => ?_
  refine (namesDiffer_keepMembers hp o).member?_eq ?_ fun m hm => ?_
  · exact List.map_subset _ (keepMembers_subset parts o)
  · exact mem_keepMembers.mpr ⟨part, hpart, hm⟩

section Twice

variable {names : List String} {r : Object}
  (hnames : ∀ name ∈ names, ∀ c ∈ name.toList, Text.IsPlain c)
include hnames

/-- The members that are always there are found in what is kept. -/
theorem always_keep : always (keep names r) = always r := by
  refine List.filterMap_congr fun name hname => ?_
  refine (namesDiffer_keep hnames).member?_eq (fun k => mem_keys_of_mem_keys_keep hnames) ?_
  intro m hm
  rw [keep, List.mem_append]
  exact .inl (mem_always_iff.mpr ⟨name, hname, hm⟩)

variable (hnodup : names.Nodup)
include hnodup

/-- The share of a value that is addressed has no other share that is. -/
theorem keepShare_keepShare {key : String} {share : Share}
    (h : share? (addresses r names) key = some share) (v : Json) :
    keepShare share (keepShare share v) = keepShare share v := by
  cases share with
  | whole => rfl
  | parts parts =>
      have hwhole : ¬ ∃ name ∈ names, AddressesWhole r name key := by
        intro hw
        rw [share?_eq_whole hnames hw] at h
        cases h
      have hpart : ∃ part, PartOf r names key part := by
        by_contra hno
        rw [share?_eq_none hnames hwhole hno] at h
        cases h
      obtain ⟨parts', hshare, -, hpairwise⟩ := share?_eq_parts hnames hnodup hwhole hpart
      obtain rfl : parts = parts' := by
        rw [h] at hshare
        simpa using hshare
      exact onObjects_onObjects fun o _ => keepMembers_keepMembers hpairwise o

/-- Keeping names twice is keeping them once, with all members in their places, if no key encloses
another. -/
theorem keep_keep (hflat : ∀ outer ∈ r.keys, ∀ inner ∈ r.keys, ¬ Encloses outer inner) :
    keep names (keep names r) = keep names r := by
  have hsecond : addressed (keep names r) (addresses r names) (always r) =
      addressed r (addresses r names) (always r) := by
    rw [addressed_eq_filterMap, addressed_eq_filterMap]
    refine List.filterMap_congr fun key hkey => ?_
    have hnot : ¬ IsAlways r key := by
      intro ha
      have := (List.mem_filter.mp hkey).2
      simp only [Bool.not_eq_true', List.contains_eq_mem, decide_eq_false_iff_not] at this
      exact this (isAlways_iff.mp ha)
    congr 1
    rw [shareOf?, get?_keep names hnot, shareOf?]
    cases hshare : share? (addresses r names) key with
    | none => rfl
    | some share =>
        cases r.get? key with
        | none => rfl
        | some v => simp [keepShare_keepShare hnames hnodup hshare]
  calc keep names (keep names r)
      = always (keep names r) ++
          addressed (keep names r) (addresses (keep names r) names) (always (keep names r)) := rfl
    _ = always r ++ addressed (keep names r) (addresses r names) (always r) := by
        rw [always_keep hnames, addresses_keep hnames hflat]
    _ = keep names r := by rw [hsecond, keep]

end Twice

/-! ### Keeping what was kept -/

/-- What is kept of what is kept is the same value if and only if the names cover what is kept, or
there are none.  They do, and every member keeps its place, in each resource of which no key is the URN
of a schema inside another one that is a key, ignoring case. -/
theorem same_kept_again_iff (r : Object) (given : AttributeNames)
    (hr : (Json.object r).HasDistinctKeys) :
    let projection : Projection := ⟨some given, none⟩
    let kept := projection.apply r
    (Json.same (.object (projection.apply kept)) (.object kept) = true ↔
      given.names = [] ∨ Covers given.names kept) ∧
    ((∀ outer ∈ r.keys, ∀ inner ∈ r.keys, ¬ Encloses outer inner) →
      projection.apply kept = kept) := by
  have hplain : ∀ name ∈ given.names, ∀ c ∈ name.toList, Text.IsPlain c :=
    fun name => AttributeNames.isPlain_of_mem_names
  have hnodup := AttributeNames.nodup_names given
  intro projection kept
  by_cases hn : given.names = []
  · have hall : ∀ o, projection.apply o = o := fun o => (apply_of_nil hn o).1
    have hkept : kept = r := hall r
    rw [hall, hkept]
    exact ⟨iff_of_true (Json.same_self hr) (.inl hn), fun _ => rfl⟩
  · have happly : ∀ o, projection.apply o = keep given.names o := apply_attributes hn
    have hkept : kept = keep given.names r := happly r
    rw [happly, hkept, or_iff_right hn]
    exact ⟨same_keep_iff hplain hnodup (hasDistinctKeys_keep hplain hnodup hr),
      keep_keep hplain hnodup⟩

/-- A resource with an extension of two attributes and a name of two parts. -/
def extended : Object :=
  [("urn:a:b", .object [("c", .bool true), ("d", .null)]),
    ("name", .object [("familyName", .text "Li"), ("givenName", .text "Bo")]), ("id", .text "1")]

/-- What is kept of it by a part of each stays as it is. -/
theorem same_kept_again_extended :
    (Json.object extended).HasDistinctKeys ∧
    (∀ outer ∈ extended.keys, ∀ inner ∈ extended.keys, ¬ Encloses outer inner) ∧
    (let projection : Projection := ⟨some (.list ["NAME.givenName", "urn:A:b:c"]), none⟩
     let kept := projection.apply extended
     kept.keys = ["id", "name", "urn:a:b"] ∧ projection.apply kept = kept ∧
     Covers ["name.givenname", "urn:a:b:c"] kept) := by
  have hkeys : (Json.object extended).HasDistinctKeys := by
    simp [extended, Object.keys]
  have hflat : ∀ outer ∈ extended.keys, ∀ inner ∈ extended.keys, ¬ Encloses outer inner := by
    decide +kernel
  have hnames : (AttributeNames.list ["NAME.givenName", "urn:A:b:c"]).names =
      ["name.givenname", "urn:a:b:c"] := by decide +kernel
  obtain ⟨hiff, hequal⟩ :=
    same_kept_again_iff extended (.list ["NAME.givenName", "urn:A:b:c"]) hkeys
  rw [hnames] at hiff
  refine ⟨hkeys, hflat, by decide +kernel, hequal hflat, ?_⟩
  exact (hiff.mp (by decide +kernel)).resolve_left (List.cons_ne_nil _ _)

/-- Two schemas, the URN of the one inside that of the other. -/
def nestedSchemas : Object := [("urn:a", .object []), ("urn:a:b", .object [])]

/-- Keeping twice may lose a member.  The first time `urn:a:b:c` is read as `b:c` in `urn:a`, which is
then kept behind `urn:a:b`, and the second time as `c` in `urn:a:b`. -/
theorem not_same_kept_again :
    let projection : Projection := ⟨some (.list ["urn:a:b", "urn:a:b:c"]), none⟩
    let kept := projection.apply nestedSchemas
    (Json.object nestedSchemas).HasDistinctKeys ∧ kept.keys = ["urn:a:b", "urn:a"] ∧
      (projection.apply kept).keys = ["urn:a:b"] ∧
      Json.same (.object (projection.apply kept)) (.object kept) = false := by
  exact ⟨by simp [nestedSchemas, Object.keys], by decide +kernel, by decide +kernel,
    by decide +kernel⟩

end Projection
end ScimQuery
