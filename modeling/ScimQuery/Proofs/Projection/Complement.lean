import ScimQuery.Proofs.Attribute.Names
import ScimQuery.Proofs.Projection.Address
import ScimQuery.Proofs.Projection.Splitting

/-! # Keeping and leaving out are complementary

What is kept of a resource by some names, and what is left of it without them.  The value of each
key in either (`get?_keep`, `get?_drop`) depends on the share of it that the names address: the
whole, which is kept and not left (`get?_of_whole`), parts, by which the value is split
(`get?_of_parts`), or nothing (`get?_of_unaddressed`).  So the two projections share nothing but the
members that are always there, and lose nothing (`kept_and_left`). -/

namespace ScimQuery
namespace Projection

/-! ### Members that are always there -/

/-- A key that is the first one for a member that is always there. -/
def IsAlways (r : Object) (key : String) : Prop :=
  ∃ name ∈ alwaysReturned, r.IsFirst (fun k => Text.lower k = name) key

theorem lower_of_mem_alwaysReturned {name : String} (h : name ∈ alwaysReturned) :
    Text.lower name = name := by
  have hall : ∀ name ∈ alwaysReturned, Text.lower name = name := by decide
  exact hall name h

theorem mem_always_iff {r : Object} {m : String × Json} :
    m ∈ always r ↔ ∃ name ∈ alwaysReturned, r.member? name = some m := List.mem_filterMap

theorem isAlways_iff {r : Object} {key : String} : IsAlways r key ↔ key ∈ (always r).keys := by
  rw [Object.keys, List.mem_map, IsAlways]
  constructor
  · rintro ⟨name, hname, hfirst⟩
    have hk : r.key? name = some key := by
      rw [Object.key?_eq_some_iff, lower_of_mem_alwaysReturned hname]
      exact hfirst
    obtain ⟨m, hm, he⟩ := Option.map_eq_some_iff.mp hk
    exact ⟨m, mem_always_iff.mpr ⟨name, hname, hm⟩, he⟩
  · rintro ⟨m, hm, rfl⟩
    obtain ⟨name, hname, hm⟩ := mem_always_iff.mp hm
    refine ⟨name, hname, ?_⟩
    have hk := Object.key?_eq_some_iff.mp (Option.map_eq_some_iff.mpr ⟨m, hm, rfl⟩)
    rwa [lower_of_mem_alwaysReturned hname] at hk

theorem get?_always {r : Object} {key : String} (h : IsAlways r key) :
    (always r).get? key = r.get? key := by
  cases hv : (always r).get? key with
  | none => exact absurd (isAlways_iff.mp h) (Object.get?_eq_none_iff.mp hv)
  | some v =>
      obtain ⟨_, -, hm⟩ := mem_always_iff.mp (Object.mem_of_get? hv)
      rw [Object.get?_of_member? hm]

theorem isAlwaysReturned_of_isAlways {r : Object} {key : String} (h : IsAlways r key) :
    isAlwaysReturned key = true := by
  obtain ⟨name, hname, hfirst⟩ := h
  rw [isAlwaysReturned, hfirst.prop]
  simpa using hname

/-- Of the keys that name members that are always there, names address only the first ones. -/
theorem isAlways_of_addressesWhole {r : Object} {name key : String}
    (h : AddressesWhole r name key) (ha : isAlwaysReturned key = true) : IsAlways r key := by
  have hk : Text.lower key = name := h.prop
  refine ⟨name, ?_, h⟩
  rw [isAlwaysReturned, hk] at ha
  simpa using ha

/-- No member that is always there has the key of an extension. -/
theorem not_isAlwaysReturned {key : String} (h : IsUrnName (Text.lower key)) :
    ¬ isAlwaysReturned key = true := by
  have hnone : ∀ s ∈ alwaysReturned, ¬ urnStart <+: s.toList := by decide
  intro ha
  rw [isAlwaysReturned, List.contains_iff_mem] at ha
  exact hnone _ ha h

theorem isAlways_of_addressesPart {r : Object} {name key part : String}
    (h : AddressesPart r name key part) (ha : isAlwaysReturned key = true) : IsAlways r key := by
  cases h with
  | extension _ _ hfirst _ => exact absurd ha (not_isAlwaysReturned hfirst.prop.1)
  | dotted top _ _ _ _ hfirst =>
      rw [isAlwaysReturned, List.contains_iff_mem] at ha
      exact ⟨Text.lower top, hfirst.prop ▸ ha, hfirst⟩

/-! ### Values of keys in projections -/

theorem share?_of_forall_ne {as : List Address} {key : String} (h : ∀ a ∈ as, a.key ≠ key) :
    share? as key = none := by
  have hnil : as.filter (·.key == key) = [] := by
    rw [List.filter_eq_nil_iff]
    exact fun a ha he => h a ha (beq_iff_eq.mp he)
  simp only [share?, hnil, List.isEmpty_nil, if_true]

/-- The share of a member's value that is addressed. -/
def shareOf? (r : Object) (as : List Address) (key : String) : Option Json :=
  (share? as key).bind fun share => (r.get? key).map (keepShare share)

theorem addressed_eq_filterMap (r : Object) (as : List Address) (done : Object) :
    addressed r as done =
      ((as.map (·.key)).eraseDups.filter fun key => !done.keys.contains key).filterMap fun key =>
        (shareOf? r as key).map fun v => (key, v) := by
  rw [addressed]
  refine List.filterMap_congr fun key _ => ?_
  rw [shareOf?]
  cases share? as key with
  | none => rfl
  | some share =>
      cases r.get? key with
      | none => rfl
      | some v => rfl

theorem get?_addressed (r : Object) (as : List Address) (done : Object) {key : String}
    (hdone : key ∉ done.keys) : (addressed r as done).get? key = shareOf? r as key := by
  rw [addressed_eq_filterMap, Object.get?_ofKeys]
  split
  · rfl
  · rename_i hkey
    rw [shareOf?, share?_of_forall_ne]
    · rfl
    · rintro a ha rfl
      refine hkey (List.mem_filter.mpr ⟨?_, by simpa using hdone⟩)
      exact List.mem_eraseDups.mpr (List.mem_map_of_mem ha)

/-- What is kept of the value of a key that is always there. -/
theorem get?_keep_of_isAlways (names : List String) {r : Object} {key : String}
    (h : IsAlways r key) : (keep names r).get? key = r.get? key := by
  rw [keep, Object.get?_append, get?_always h]
  cases hv : r.get? key with
  | some v => rfl
  | none =>
      rw [← get?_always h] at hv
      exact absurd (isAlways_iff.mp h) (Object.get?_eq_none_iff.mp hv)

/-- What is kept of the value of any other key. -/
theorem get?_keep (names : List String) {r : Object} {key : String} (h : ¬ IsAlways r key) :
    (keep names r).get? key = shareOf? r (addresses r names) key := by
  have hnot : key ∉ (always r).keys := fun hk => h (isAlways_iff.mpr hk)
  rw [keep, Object.get?_append, Object.get?_eq_none_iff.mpr hnot, Option.none_or,
    get?_addressed r _ _ hnot]

/-- What is left of a member's value. -/
def left? (as : List Address) (key : String) (v : Json) : Option Json :=
  if isAlwaysReturned key then some v
  else match share? as key with
    | none => some v
    | some share => dropShare? share v

theorem drop_eq_filterMap (names : List String) (r : Object) :
    drop names r =
      r.filterMap fun (key, v) => (left? (addresses r names) key v).map fun w => (key, w) := by
  rw [drop]
  refine List.filterMap_congr fun m _ => ?_
  obtain ⟨key, v⟩ := m
  simp only [left?]
  split
  · rfl
  · cases share? (addresses r names) key with
    | none => rfl
    | some share => rfl

section Left

variable {as : List Address} {key : String} {v w : Json}

/-- What is left of a member's value is all of it, or all but the parts that are addressed. -/
theorem left?_eq_some_iff : left? as key v = some w ↔
    w = v ∧ (isAlwaysReturned key = true ∨ share? as key = none) ∨
    ∃ parts, w = onObjects (dropMembers parts) v ∧ ¬ isAlwaysReturned key = true ∧
      share? as key = some (.parts parts) := by
  unfold left?
  by_cases ha : isAlwaysReturned key = true
  · simpa [ha] using eq_comm
  · rw [if_neg ha]
    cases share? as key with
    | none => simpa [ha] using eq_comm
    | some share =>
        cases share with
        | whole => simp [dropShare?, ha]
        | parts parts => simpa [dropShare?, ha] using eq_comm

/-- Nothing is left of a member that is addressed as a whole, whatever its value. -/
theorem left?_eq_none_iff : left? as key v = none ↔
    ¬ isAlwaysReturned key = true ∧ share? as key = some .whole := by
  unfold left?
  by_cases ha : isAlwaysReturned key = true
  · simp [ha]
  · rw [if_neg ha]
    cases share? as key with
    | none => simp
    | some share =>
        cases share with
        | whole => simp [dropShare?, ha]
        | parts parts => simp [dropShare?]

end Left

/-- What is left of the value of a key. -/
theorem get?_drop (names : List String) (r : Object) (key : String) :
    (drop names r).get? key = (r.get? key).bind (left? (addresses r names) key) := by
  rw [drop_eq_filterMap, Object.get?_ofMembers (left? (addresses r names))]
  exact fun key v w h => left?_eq_none_iff.mpr (left?_eq_none_iff.mp h)

/-! ### Keys of projections -/

theorem nodup_keys_always (r : Object) : (always r).keys.Nodup := by
  refine nodup_keys_keepMembers ?_ r
  decide

theorem keys_addressed_sublist (r : Object) (as : List Address) (done : Object) :
    (addressed r as done).keys.Sublist
      ((as.map (·.key)).eraseDups.filter fun key => !done.keys.contains key) := by
  rw [addressed_eq_filterMap]
  exact Object.keys_ofKeys_sublist _ _

/-- No key stands twice in what is kept. -/
theorem nodup_keys_keep (names : List String) (r : Object) : (keep names r).keys.Nodup := by
  have hsub := keys_addressed_sublist r (addresses r names) (always r)
  rw [keep, Object.keys, List.map_append, List.nodup_append]
  refine ⟨nodup_keys_always r, hsub.nodup ((AttributeNames.nodup_eraseDups _).filter _), ?_⟩
  rintro key hkey _ hmem rfl
  have := (List.mem_filter.mp (hsub.mem hmem)).2
  simp only [Bool.not_eq_true', List.contains_eq_mem, decide_eq_false_iff_not] at this
  exact this hkey

theorem keys_drop_sublist (names : List String) (r : Object) : (drop names r).keys.Sublist r.keys := by
  rw [drop_eq_filterMap]
  exact Object.keys_ofMembers_sublist _ r

theorem keys_drop_subset (names : List String) (r : Object) : (drop names r).keys ⊆ r.keys :=
  (keys_drop_sublist names r).subset

theorem namesDiffer_drop (names : List String) {r : Object} (hr : r.NamesDiffer) :
    (drop names r).NamesDiffer := by
  rw [Object.namesDiffer_iff] at hr ⊢
  exact hr.sublist (keys_drop_sublist names r)

/-- No key stands twice in what is left, if none does in the resource. -/
theorem nodup_keys_drop (names : List String) {r : Object} (hr : r.keys.Nodup) :
    (drop names r).keys.Nodup := (keys_drop_sublist names r).nodup hr

/-! ### The kinds of keys -/

section Kinds

variable {names : List String} {r : Object} {key : String} {v : Json}

theorem get?_of_none (hkey : r.get? key = none) :
    (keep names r).get? key = none ∧ (drop names r).get? key = none := by
  constructor
  · by_cases ha : IsAlways r key
    · rw [get?_keep_of_isAlways _ ha, hkey]
    · rw [get?_keep _ ha, shareOf?, hkey]
      cases share? (addresses r names) key <;> rfl
  · rw [get?_drop, hkey, Option.bind_none]

theorem get?_of_isAlways (hv : r.get? key = some v) (ha : IsAlways r key) :
    (keep names r).get? key = some v ∧ (drop names r).get? key = some v := by
  constructor
  · rw [get?_keep_of_isAlways _ ha, hv]
  · rw [get?_drop, hv, Option.bind_some, left?, if_pos (isAlwaysReturned_of_isAlways ha)]

variable (hnames : ∀ name ∈ names, ∀ c ∈ name.toList, Text.IsPlain c)
  (hv : r.get? key = some v)
include hnames hv

theorem get?_of_whole (ha : ¬ IsAlways r key) (hw : ∃ name ∈ names, AddressesWhole r name key) :
    (keep names r).get? key = some v ∧ (drop names r).get? key = none := by
  have hshare := share?_eq_whole hnames hw
  obtain ⟨name, -, haddr⟩ := hw
  have hnot : ¬ isAlwaysReturned key = true := fun h => ha (isAlways_of_addressesWhole haddr h)
  constructor
  · rw [get?_keep _ ha, shareOf?, hshare, hv]
    rfl
  · rw [get?_drop, hv, Option.bind_some, left?, if_neg hnot, hshare]
    rfl

theorem get?_of_parts (hnodup : names.Nodup) (hkeys : v.HasDistinctKeys) (ha : ¬ IsAlways r key)
    (hw : ¬ ∃ name ∈ names, AddressesWhole r name key) (hp : ∃ part, PartOf r names key part) :
    ∃ a b, (keep names r).get? key = some a ∧ (drop names r).get? key = some b ∧
      v.Split (PartOf r names key) a b := by
  obtain ⟨parts, hshare, hparts, hpairwise⟩ := share?_eq_parts hnames hnodup hw hp
  obtain ⟨part, name, -, haddr⟩ := hp
  have hnot : ¬ isAlwaysReturned key = true := fun h => ha (isAlways_of_addressesPart haddr h)
  refine ⟨_, _, ?_, ?_, split_onObjects hkeys hparts hpairwise⟩
  · rw [get?_keep _ ha, shareOf?, hshare, hv]
    rfl
  · rw [get?_drop, hv, Option.bind_some, left?, if_neg hnot, hshare]
    rfl

theorem get?_of_unaddressed (ha : ¬ IsAlways r key)
    (hw : ¬ ∃ name ∈ names, AddressesWhole r name key) (hp : ¬ ∃ part, PartOf r names key part) :
    (keep names r).get? key = none ∧ (drop names r).get? key = some v := by
  have hshare := share?_eq_none hnames hw hp
  constructor
  · rw [get?_keep _ ha, shareOf?, hshare]
    rfl
  · rw [get?_drop, hv, Option.bind_some, left?, hshare]
    split <;> rfl

end Kinds

/-! ### The two projections -/

theorem apply_attributes {given : AttributeNames} (hn : given.names ≠ []) (r : Object) :
    (⟨some given, none⟩ : Projection).apply r = keep given.names r := by
  simp [Projection.apply, AttributeNames.namesOf, hn]

theorem apply_excluded {given : AttributeNames} (hn : given.names ≠ []) (r : Object) :
    (⟨none, some given⟩ : Projection).apply r = drop given.names r := by
  simp [Projection.apply, AttributeNames.namesOf, hn]

/-- Without names the whole resource is kept and left. -/
theorem apply_of_nil {given : AttributeNames} (hn : given.names = []) (r : Object) :
    (⟨some given, none⟩ : Projection).apply r = r ∧ (⟨none, some given⟩ : Projection).apply r = r := by
  simp [Projection.apply, AttributeNames.namesOf, hn]

/-- Keeping some names and leaving out the same names are complementary.  Each key of a resource is
of one of four kinds:

* the first key of a member that is always there, which is in both projections;
* another key that a name addresses as a whole, which is kept and not left;
* another key of which names address parts, whose value the parts split in two;
* any other key, which is left and not kept.

Neither projection has a key twice, or one that the resource lacks. -/
theorem kept_and_left (r : Object) (given : AttributeNames)
    (hr : (Json.object r).HasDistinctKeys) (hn : given.names ≠ []) :
    let kept := (⟨some given, none⟩ : Projection).apply r
    let left := (⟨none, some given⟩ : Projection).apply r
    kept.keys.Nodup ∧ left.keys.Nodup ∧
    (∀ key, r.get? key = none → kept.get? key = none ∧ left.get? key = none) ∧
    ∀ key v, r.get? key = some v →
      (IsAlways r key → kept.get? key = some v ∧ left.get? key = some v) ∧
      (¬ IsAlways r key → (∃ name ∈ given.names, AddressesWhole r name key) →
        kept.get? key = some v ∧ left.get? key = none) ∧
      (¬ IsAlways r key → (¬ ∃ name ∈ given.names, AddressesWhole r name key) →
        (∃ part, PartOf r given.names key part) →
        ∃ a b, kept.get? key = some a ∧ left.get? key = some b ∧
          v.Split (PartOf r given.names key) a b) ∧
      (¬ IsAlways r key → (¬ ∃ name ∈ given.names, AddressesWhole r name key) →
        (¬ ∃ part, PartOf r given.names key part) →
        kept.get? key = none ∧ left.get? key = some v) := by
  have hplain : ∀ name ∈ given.names, ∀ c ∈ name.toList, Text.IsPlain c :=
    fun name => AttributeNames.isPlain_of_mem_names
  intro kept left
  rw [show kept = keep given.names r from apply_attributes hn r,
    show left = drop given.names r from apply_excluded hn r]
  refine ⟨nodup_keys_keep _ r, nodup_keys_drop _ hr.nodup_keys, fun key => get?_of_none,
    fun key v hv => ?_⟩
  exact ⟨get?_of_isAlways hv, get?_of_whole hplain hv,
    get?_of_parts hplain hv (AttributeNames.nodup_names given) (hr.of_get? hv),
    get?_of_unaddressed hplain hv⟩

/-- A resource with a title and a name of two parts. -/
def account : Object :=
  [("id", .text "1"), ("Title", .text "Dr"),
    ("name", .object [("familyName", .text "Li"), ("givenName", .text "Bo")])]

/-- Its title is kept as a whole and its name is split. -/
theorem kept_and_left_account :
    (Json.object account).HasDistinctKeys ∧
    (AttributeNames.list ["title", "name.familyName"]).names ≠ [] ∧
    (let kept := (⟨some (.list ["title", "name.familyName"]), none⟩ : Projection).apply account
     let left := (⟨none, some (.list ["title", "name.familyName"])⟩ : Projection).apply account
     kept.get? "Title" = some (.text "Dr") ∧ left.get? "Title" = none ∧
     ∃ a b, kept.get? "name" = some a ∧ left.get? "name" = some b ∧
       (Json.object [("familyName", .text "Li"), ("givenName", .text "Bo")]).Split
         (PartOf account ["title", "name.familyname"] "name") a b) := by
  have hkeys : (Json.object account).HasDistinctKeys := by
    simp [account, Object.keys]
  have hnames : (AttributeNames.list ["title", "name.familyName"]).names =
      ["title", "name.familyname"] := by decide +kernel
  have hne : (AttributeNames.list ["title", "name.familyName"]).names ≠ [] := by
    rw [hnames]
    exact List.cons_ne_nil _ _
  have hplain : ∀ name ∈ ["title", "name.familyname"], ∀ c ∈ name.toList, Text.IsPlain c :=
    fun name hname => AttributeNames.isPlain_of_mem_names (hnames ▸ hname)
  have halways : ∀ key, isAlwaysReturned key = false → ¬ IsAlways account key :=
    fun key hfalse h => Bool.false_ne_true (hfalse ▸ isAlwaysReturned_of_isAlways h)
  have htitle : AddressesWhole account "title" "Title" :=
    (key?_eq_some_iff_addressesWhole (hplain _ (by simp))).mp (by decide +kernel)
  have hpart : PartOf account ["title", "name.familyname"] "name" "familyname" :=
    ⟨"name.familyname", by simp,
      (address?_eq_part_iff (hplain _ (by simp))).mp (by decide +kernel)⟩
  have hnot : ¬ ∃ name ∈ ["title", "name.familyname"], AddressesWhole account name "name" := by
    rintro ⟨name, hname, h⟩
    have hlower : Text.lower "name" ∉ ["title", "name.familyname"] := by decide +kernel
    rw [h.prop] at hlower
    exact hlower hname
  obtain ⟨-, -, -, hkey⟩ := kept_and_left account (.list ["title", "name.familyName"]) hkeys hne
  rw [hnames] at hkey
  obtain ⟨-, hwhole, -, -⟩ := hkey "Title" (.text "Dr") rfl
  obtain ⟨-, -, hparts, -⟩ := hkey "name" _ rfl
  obtain ⟨hkept, hleft⟩ := hwhole (halways _ (by decide +kernel)) ⟨"title", by simp, htitle⟩
  exact ⟨hkeys, hne, hkept, hleft, hparts (halways _ (by decide +kernel)) hnot ⟨_, hpart⟩⟩

end Projection
end ScimQuery
