import ScimQuery.Proofs.Json.Order
import ScimQuery.Proofs.Projection.Covering

/-! # Naming more

Of a member, more names address at least the share that fewer do (`covered_of_subset`).  More parts keep
more members of an object (`keepMembers_mono`) and leave fewer (`dropMembers_anti`).  So what is kept of
a resource grows with the names (`below_keep`), what is left of it shrinks (`below_drop`), and neither
holds anything that the resource does not.  `kept_grows_and_left_shrinks` says so of the projections. -/

namespace ScimQuery
namespace Projection

open Json (Below)

/-! ### Shares of fewer and of more names -/

/-- `Covered s t`: what is addressed of a member by the share `s`, if by any, is addressed by `t`. -/
inductive Covered : Option Share → Option Share → Prop
  | none (t : Option Share) : Covered none t
  | whole (s : Option Share) : Covered s (some .whole)
  | parts {few many : List String} : few ⊆ many → Covered (some (.parts few)) (some (.parts many))

theorem covered_of_subset {as bs : List Address} (h : as ⊆ bs) (key : String) :
    Covered (share? as key) (share? bs key) := by
  -- Only the addresses of this key matter.
  have hsub : as.filter (·.key == key) ⊆ bs.filter (·.key == key) := List.filter_subset _ h
  unfold share?
  dsimp only
  generalize as.filter (·.key == key) = few at hsub
  generalize bs.filter (·.key == key) = many at hsub
  by_cases hfew : few = []
  · rw [if_pos (List.isEmpty_iff.mpr hfew)]
    exact .none _
  have hmany : many ≠ [] := by
    rintro rfl
    exact hfew (List.subset_nil.mp hsub)
  rw [if_neg (mt List.isEmpty_iff.mp hfew), if_neg (mt List.isEmpty_iff.mp hmany)]
  by_cases hwhole : many.any (·.part.isNone) = true
  · rw [if_pos hwhole]
    exact .whole _
  have hparts : ¬ few.any (·.part.isNone) = true := by
    intro hany
    obtain ⟨a, ha, hnone⟩ := List.any_eq_true.mp hany
    exact hwhole (List.any_eq_true.mpr ⟨a, hsub ha, hnone⟩)
  rw [if_neg hwhole, if_neg hparts]
  exact .parts (List.filterMap_subset _ hsub)

/-! ### Parts of a value -/

theorem onObjects_id (v : Json) : onObjects (fun o => o) v = v := by
  cases v with
  | scalar s => rfl
  | object o => rfl
  | array items =>
      refine congrArg Json.array ((List.map_congr_left fun item _ => ?_).trans (List.map_id items))
      cases item with
      | scalar s => rfl
      | object o => rfl
      | array vs => rfl

/-- A change that leaves some members of what another leaves, of each object. -/
theorem below_onObjects {f g : Object → Object} (hsub : ∀ o : Object, o.keys.Nodup → f o ⊆ g o)
    (hkeys : ∀ o : Object, o.keys.Nodup → (g o).keys.Nodup) {v : Json} (hv : v.HasDistinctKeys) :
    Below (onObjects f v) (onObjects g v) := by
  cases v with
  | scalar s => exact .self _
  | object o => exact Json.below_of_subset (hkeys o hv.nodup_keys) (hsub o hv.nodup_keys)
  | array items =>
      refine .array (by simp) fun i v w hv' hw => ?_
      simp only [List.getElem?_map, Option.map_eq_some_iff] at hv' hw
      obtain ⟨item, hitem, rfl⟩ := hv'
      obtain ⟨item', hitem', rfl⟩ := hw
      rw [hitem] at hitem'
      obtain rfl := Option.some.inj hitem'
      have hkeys' := hv.of_mem (List.mem_of_getElem? hitem)
      cases item with
      | scalar s => exact .self _
      | array vs => exact .self _
      | object o =>
          exact Json.below_of_subset (hkeys o hkeys'.nodup_keys) (hsub o hkeys'.nodup_keys)

theorem keepMembers_mono {few many : List String} (h : few ⊆ many) (o : Object) :
    keepMembers few o ⊆ keepMembers many o := by
  intro m hm
  obtain ⟨part, hpart, hm⟩ := mem_keepMembers.mp hm
  exact mem_keepMembers.mpr ⟨part, h hpart, hm⟩

theorem nodup_keys_dropMembers (parts : List String) {o : Object} (ho : o.keys.Nodup) :
    (Object.keys (dropMembers parts o)).Nodup := ((dropMembers_sublist parts o).map _).nodup ho

theorem dropMembers_anti {few many : List String} (h : few ⊆ many)
    (hmany : many.Pairwise fun s t => Text.lower s ≠ Text.lower t)
    (hfew : few.Pairwise fun s t => Text.lower s ≠ Text.lower t) {o : Object} (ho : o.keys.Nodup) :
    dropMembers many o ⊆ dropMembers few o := by
  rw [dropMembers_eq_filter hmany ho, dropMembers_eq_filter hfew ho]
  refine (List.monotone_filter_right o fun m hm => ?_).subset
  rw [Bool.not_eq_true', List.any_eq_false] at hm ⊢
  exact fun part hpart => hm part (h hpart)

/-- A share of a value holds nothing that the value does not. -/
theorem below_keepShare (share : Share) {v : Json} (hv : v.HasDistinctKeys) :
    Below (keepShare share v) v := by
  cases share with
  | whole => exact .self v
  | parts parts =>
      have hbelow := below_onObjects (g := fun o => o) (fun o _ => keepMembers_subset parts o)
        (fun _ ho => ho) hv
      rwa [onObjects_id] at hbelow

theorem below_of_left? {as : List Address} {key : String} {v w : Json} (hv : v.HasDistinctKeys)
    (h : left? as key v = some w) : Below w v := by
  rcases left?_eq_some_iff.mp h with ⟨rfl, -⟩ | ⟨parts, rfl, -⟩
  · exact .self w
  · have hbelow := below_onObjects (g := fun o => o)
      (fun o _ => (dropMembers_sublist parts o).subset) (fun _ ho => ho) hv
    rwa [onObjects_id] at hbelow

/-! ### Keeping and leaving out -/

section Resource

variable {r : Object} (hr : (Json.object r).HasDistinctKeys)
include hr

/-- What is kept of a resource holds nothing that the resource does not. -/
theorem below_of_keep (names : List String) : Below (.object (keep names r)) (.object r) := by
  refine Json.below_object fun key v hv => ?_
  by_cases ha : IsAlways r key
  · rw [get?_keep_of_isAlways _ ha] at hv
    exact ⟨v, hv, .self v⟩
  · rw [get?_keep _ ha, shareOf?, Option.bind_eq_some_iff] at hv
    obtain ⟨share, -, hv⟩ := hv
    obtain ⟨w, hw, rfl⟩ := Option.map_eq_some_iff.mp hv
    exact ⟨w, hw, below_keepShare share (hr.of_get? hw)⟩

/-- What is left of a resource holds nothing that the resource does not. -/
theorem below_of_drop (names : List String) : Below (.object (drop names r)) (.object r) := by
  refine Json.below_object fun key v hv => ?_
  rw [get?_drop, Option.bind_eq_some_iff] at hv
  obtain ⟨w, hw, hleft⟩ := hv
  exact ⟨w, hw, below_of_left? (hr.of_get? hw) hleft⟩

/-- No object in what is left has a key twice, if none does in the resource. -/
theorem hasDistinctKeys_drop (names : List String) : (Json.object (drop names r)).HasDistinctKeys := by
  have hkeys := nodup_keys_drop names hr.nodup_keys
  refine .object hkeys fun m hm => ?_
  have hget := Object.get?_of_mem hkeys hm
  rw [get?_drop, Option.bind_eq_some_iff] at hget
  obtain ⟨v, hv, hleft⟩ := hget
  rcases left?_eq_some_iff.mp hleft with ⟨he, -⟩ | ⟨parts, he, -⟩
  · exact he ▸ hr.of_get? hv
  · rw [he]
    exact hasDistinctKeys_onObjects (fun o => (dropMembers_sublist parts o).subset)
      (fun o ho => nodup_keys_dropMembers parts ho) (hr.of_get? hv)

variable {few many : List String} (hsub : few ⊆ many)
  (hnames : ∀ name ∈ many, ∀ c ∈ name.toList, Text.IsPlain c) (hmany : many.Nodup)
include hsub hnames hmany

/-- More names keep more. -/
theorem below_keep : Below (.object (keep few r)) (.object (keep many r)) := by
  refine Json.below_object fun key v hv => ?_
  by_cases ha : IsAlways r key
  · rw [get?_keep_of_isAlways _ ha] at hv ⊢
    exact ⟨v, hv, .self v⟩
  rw [get?_keep _ ha, shareOf?] at hv ⊢
  obtain ⟨share, hshare, hv⟩ := Option.bind_eq_some_iff.mp hv
  obtain ⟨w, hw, rfl⟩ := Option.map_eq_some_iff.mp hv
  have hvalue := hr.of_get? hw
  have hcovered := covered_of_subset (List.filterMap_subset (address? r) hsub) key
  rw [← addresses, ← addresses, hshare] at hcovered
  rw [hw]
  generalize ht : share? (addresses r many) key = t at hcovered
  cases hcovered with
  | whole _ => exact ⟨w, rfl, below_keepShare share hvalue⟩
  | @parts ps qs hparts =>
      have hpairwise := pairwise_of_share? hnames hmany ht
      refine ⟨keepShare (.parts qs) w, rfl, below_onObjects ?_ ?_ hvalue⟩
      · exact fun o _ => keepMembers_mono hparts o
      · exact fun o _ => nodup_keys_keepMembers hpairwise o

/-- More names leave less. -/
theorem below_drop (hfew : few.Nodup) : Below (.object (drop many r)) (.object (drop few r)) := by
  refine Json.below_object fun key v hv => ?_
  rw [get?_drop] at hv ⊢
  obtain ⟨w, hw, hleft⟩ := Option.bind_eq_some_iff.mp hv
  have hvalue := hr.of_get? hw
  have hcovered := covered_of_subset (List.filterMap_subset (address? r) hsub) key
  rw [← addresses, ← addresses] at hcovered
  rw [hw, Option.bind_some]
  by_cases ha : isAlwaysReturned key = true
  · rw [left?, if_pos ha] at hleft ⊢
    exact ⟨v, hleft, .self v⟩
  have hbelow := below_of_left? hvalue hleft
  rw [left?, if_neg ha] at hleft ⊢
  generalize hs : share? (addresses r few) key = s at hcovered
  generalize ht : share? (addresses r many) key = t at hcovered hleft
  cases hcovered with
  | none t => exact ⟨w, rfl, hbelow⟩
  | whole _ => cases hleft
  | @parts ps qs hparts =>
      have hps := pairwise_of_share? (fun name hname => hnames name (hsub hname)) hfew hs
      have hqs := pairwise_of_share? hnames hmany ht
      obtain rfl := Option.some.inj hleft
      refine ⟨onObjects (dropMembers ps) w, rfl, below_onObjects ?_ ?_ hvalue⟩
      · exact fun o ho => dropMembers_anti hparts hqs hps ho
      · exact fun o ho => nodup_keys_dropMembers ps ho

end Resource

/-! ### The two projections -/

/-- Projections of a resource in which no object has a key twice have none that does. -/
theorem hasDistinctKeys_apply (given : AttributeNames) {r : Object}
    (hr : (Json.object r).HasDistinctKeys) :
    (Json.object ((⟨some given, none⟩ : Projection).apply r)).HasDistinctKeys ∧
      (Json.object ((⟨none, some given⟩ : Projection).apply r)).HasDistinctKeys := by
  by_cases hn : given.names = []
  · obtain ⟨hkept, hleft⟩ := apply_of_nil hn r
    rw [hkept, hleft]
    exact ⟨hr, hr⟩
  · rw [apply_attributes hn, apply_excluded hn]
    exact ⟨hasDistinctKeys_keep (fun name => AttributeNames.isPlain_of_mem_names)
      (AttributeNames.nodup_names given) hr, hasDistinctKeys_drop hr given.names⟩

theorem below_apply {few many : AttributeNames} (hsub : few.names ⊆ many.names)
    (hfew : few.names ≠ []) {r : Object} (hr : (Json.object r).HasDistinctKeys) :
    Below (.object ((⟨some few, none⟩ : Projection).apply r))
        (.object ((⟨some many, none⟩ : Projection).apply r)) ∧
      Below (.object ((⟨none, some many⟩ : Projection).apply r))
        (.object ((⟨none, some few⟩ : Projection).apply r)) := by
  have hmany : many.names ≠ [] := fun hnil => hfew (List.subset_nil.mp (hnil ▸ hsub))
  have hplain : ∀ name ∈ many.names, ∀ c ∈ name.toList, Text.IsPlain c :=
    fun name => AttributeNames.isPlain_of_mem_names
  have hnodup := AttributeNames.nodup_names many
  rw [apply_attributes hfew, apply_attributes hmany, apply_excluded hfew, apply_excluded hmany]
  exact ⟨below_keep hr hsub hplain hnodup,
    below_drop hr hsub hplain hnodup (AttributeNames.nodup_names few)⟩

theorem below_of_apply (given : AttributeNames) {r : Object} (hr : (Json.object r).HasDistinctKeys) :
    Below (.object ((⟨some given, none⟩ : Projection).apply r)) (.object r) ∧
      Below (.object ((⟨none, some given⟩ : Projection).apply r)) (.object r) := by
  by_cases hn : given.names = []
  · obtain ⟨hkept, hleft⟩ := apply_of_nil hn r
    rw [hkept, hleft]
    exact ⟨.self _, .self _⟩
  · rw [apply_attributes hn, apply_excluded hn]
    exact ⟨below_of_keep hr given.names, below_of_drop hr given.names⟩

/-- What is kept of a resource by fewer names is below what is kept by more, what is left without more
names is below what is left without fewer, and all of it is below the resource.  So names that are the
same but for their order, their repetition and the way they are written keep and leave the same. -/
theorem kept_grows_and_left_shrinks (r : Object) (hr : (Json.object r).HasDistinctKeys) :
    let kept (given : AttributeNames) := Json.object ((⟨some given, none⟩ : Projection).apply r)
    let left (given : AttributeNames) := Json.object ((⟨none, some given⟩ : Projection).apply r)
    (∀ few many : AttributeNames, few.names ≠ [] → few.names ⊆ many.names →
      (kept few).Below (kept many) ∧ (kept many).Below (.object r) ∧
      (left many).Below (left few) ∧ (left few).Below (.object r)) ∧
    ∀ given other : AttributeNames, (∀ name, name ∈ given.names ↔ name ∈ other.names) →
      (kept given).same (kept other) = true ∧ (left given).same (left other) = true := by
  intro kept left
  refine ⟨fun few many hfew hsub => ?_, fun given other hnames => ?_⟩
  · obtain ⟨hkept, hleft⟩ := below_apply hsub hfew hr
    exact ⟨hkept, (below_of_apply many hr).1, hleft, (below_of_apply few hr).2⟩
  have hsub : given.names ⊆ other.names := fun name hname => (hnames name).mp hname
  have hsub' : other.names ⊆ given.names := fun name hname => (hnames name).mpr hname
  by_cases hgiven : given.names = []
  · have hother : other.names = [] := List.subset_nil.mp (hgiven ▸ hsub')
    obtain ⟨hkept, hleft⟩ := apply_of_nil hgiven r
    obtain ⟨hkept', hleft'⟩ := apply_of_nil hother r
    simp only [kept, left, hkept, hleft, hkept', hleft']
    exact ⟨Json.same_self hr, Json.same_self hr⟩
  · have hother : other.names ≠ [] := fun hnil => hgiven (List.subset_nil.mp (hnil ▸ hsub))
    obtain ⟨hkept, hleft⟩ := below_apply hsub hgiven hr
    obtain ⟨hkept', hleft'⟩ := below_apply hsub' hother hr
    obtain ⟨hkeys, hkeys'⟩ := hasDistinctKeys_apply given hr
    obtain ⟨hkeysOther, hkeysOther'⟩ := hasDistinctKeys_apply other hr
    exact ⟨Json.same_of_below hkept hkept' hkeys hkeysOther,
      Json.same_of_below hleft' hleft hkeys' hkeysOther'⟩

/-- An account with two members whose keys differ in case only. -/
def twoSpellings : Object :=
  [("id", .text "1"), ("name", .object [("familyName", .text "Li"), ("givenName", .text "Bo")]),
    ("NAME", .text "Bo Li"), ("title", .text "Dr")]

/-- One part of its name is kept by one name and more by two; and the two may be written in another
order, twice, in other letters and as one text. -/
theorem kept_grows_and_left_shrinks_two_spellings :
    (Json.object twoSpellings).HasDistinctKeys ∧
    (AttributeNames.list ["name.givenName"]).names ≠ [] ∧
    (AttributeNames.list ["name.givenName"]).names ⊆
      (AttributeNames.list ["title", "name.givenName"]).names ∧
    Below (.object ((⟨some (.list ["name.givenName"]), none⟩ : Projection).apply twoSpellings))
      (.object ((⟨some (.list ["title", "name.givenName"]), none⟩ : Projection).apply twoSpellings)) ∧
    (∀ name, name ∈ (AttributeNames.list ["title", "name.givenName"]).names ↔
      name ∈ (AttributeNames.text "NAME.givenname, Title,title").names) ∧
    Json.same
      (.object ((⟨none, some (.list ["title", "name.givenName"])⟩ : Projection).apply twoSpellings))
      (.object ((⟨none, some (.text "NAME.givenname, Title,title")⟩ : Projection).apply twoSpellings))
        = true := by
  have hkeys : (Json.object twoSpellings).HasDistinctKeys := by
    simp [twoSpellings, Object.keys]
  obtain ⟨hgrows, hsame⟩ := kept_grows_and_left_shrinks twoSpellings hkeys
  have hfew : (AttributeNames.list ["name.givenName"]).names = ["name.givenname"] := by
    decide +kernel
  have hmany : (AttributeNames.list ["title", "name.givenName"]).names =
      ["title", "name.givenname"] := by decide +kernel
  have hother : (AttributeNames.text "NAME.givenname, Title,title").names =
      ["name.givenname", "title"] := by decide +kernel
  have hne : (AttributeNames.list ["name.givenName"]).names ≠ [] := by simp [hfew]
  have hsub : (AttributeNames.list ["name.givenName"]).names ⊆
      (AttributeNames.list ["title", "name.givenName"]).names := by simp [hfew, hmany]
  have hnames : ∀ name, name ∈ (AttributeNames.list ["title", "name.givenName"]).names ↔
      name ∈ (AttributeNames.text "NAME.givenname, Title,title").names := by
    intro name
    simp [hmany, hother, or_comm]
  exact ⟨hkeys, hne, hsub, (hgrows _ _ hne hsub).1, hnames, (hsame _ _ hnames).2⟩

end Projection
end ScimQuery
