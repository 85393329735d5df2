import ScimQuery.Projection
import ScimQuery.Proofs.Attribute.Members

/-! # Splitting by parts

What is kept of a value by parts of it, and what is left without them.  The parts of an object are
the names of members; the first member that one of them fits is kept, every other one is left, and
no member is in both or in neither (`Object.Split`, `split_members`).  That wants parts that no two
of which fit one member: leaving out happens name by name, and is then leaving out the keys that
keeping finds (`dropMembers_eq_filter`).  An array is split item by item, and any other value is in
both (`Json.Split`, `split_onObjects`). -/

namespace ScimQuery

/-! ### Splitting an object -/

namespace Object

/-- `o.FirstFor parts key`: a key is the first one that some part fits. -/
def FirstFor (o : Object) (parts : String → Prop) (key : String) : Prop :=
  ∃ part, parts part ∧ o.IsFirst (fun k => Text.lower k = Text.lower part) key

/-- `o.Split parts kept left`: the members of an object are those of `kept` and `left` together, and
those that are the first to fit a part are the ones of `kept`. -/
structure Split (parts : String → Prop) (o kept left : Object) : Prop where
  perm : (kept ++ left).Perm o
  mem_kept : ∀ m, m ∈ kept ↔ m ∈ o ∧ o.FirstFor parts m.1
  mem_left : ∀ m, m ∈ left ↔ m ∈ o ∧ ¬ o.FirstFor parts m.1

end Object

namespace Projection

open Object (FirstFor)

theorem firstFor_iff {o : Object} {parts : List String} {P : String → Prop}
    (hparts : ∀ part, part ∈ parts ↔ P part) {key : String} :
    o.FirstFor P key ↔ ∃ part ∈ parts, o.key? part = some key := by
  unfold FirstFor
  refine exists_congr fun part => ?_
  rw [hparts, Object.key?_eq_some_iff]

theorem dropMember_cons (m : String × Json) (o : Object) (name : String) :
    dropMember (m :: o) name =
      if Text.lower m.1 = Text.lower name then o else m :: dropMember o name := by
  unfold dropMember
  dsimp only
  rw [List.eraseP_cons]
  by_cases h : Text.lower m.1 = Text.lower name
  · simp [h]
  · rw [beq_eq_false_iff_ne.mpr h, if_neg h]
    rfl

/-- Leaving out what one name fits is leaving out one key. -/
theorem dropMember_eq_filter {o : Object} (ho : o.keys.Nodup) (name : String) :
    dropMember o name = o.filter fun m => o.key? name != some m.1 := by
  induction o with
  | nil => rfl
  | cons m o ih =>
      rw [Object.keys, List.map_cons, List.nodup_cons] at ho
      obtain ⟨hm, ho⟩ := ho
      have hne : ∀ n ∈ o, n.1 ≠ m.1 := fun n hn he => hm (he ▸ List.mem_map_of_mem hn)
      rw [dropMember_cons, Object.key?, Object.member?_cons]
      by_cases h : Text.lower m.1 = Text.lower name
      · rw [if_pos h, if_pos h, Option.map_some, List.filter_cons_of_neg (by simp)]
        refine (List.filter_eq_self.mpr fun n hn => ?_).symm
        simpa using (hne n hn).symm
      · have hkeep : (Object.member? o name).map (·.1) ≠ some m.1 := by
          intro hk
          obtain ⟨n, hn, he⟩ := Option.map_eq_some_iff.mp hk
          exact hne n (Object.mem_of_member? hn) he
        rw [if_neg h, if_neg h, ih ho, List.filter_cons, if_pos (bne_iff_ne.mpr hkeep)]
        rfl

/-- Leaving out what one name fits does not change what another fits. -/
theorem member?_dropMember {name other : String} (h : Text.lower name ≠ Text.lower other)
    (o : Object) : (dropMember o name).member? other = o.member? other := by
  induction o with
  | nil => rfl
  | cons m o ih =>
      rw [dropMember_cons, Object.member?_cons]
      by_cases hm : Text.lower m.1 = Text.lower name
      · rw [if_pos hm, if_neg (hm ▸ h)]
      · rw [if_neg hm, Object.member?_cons, ih]

/-- Where keys differ in more than case, what a name fits is not there any more without it. -/
theorem member?_dropMember_self {o : Object} (ho : o.NamesDiffer) {name other : String}
    (h : Text.lower other = Text.lower name) : (dropMember o name).member? other = none := by
  induction o with
  | nil => rfl
  | cons m o ih =>
      obtain ⟨hm, ho⟩ := List.pairwise_cons.mp ho
      rw [dropMember_cons]
      by_cases he : Text.lower m.1 = Text.lower name
      · rw [if_pos he, Object.member?_eq_none_iff, Object.keys, List.forall_mem_map]
        intro n hn
        rw [h, ← he]
        exact (hm n hn).symm
      · rw [if_neg he, Object.member?_cons, h, if_neg he, ih ho]

theorem dropMembers_sublist (parts : List String) (o : Object) : (dropMembers parts o).Sublist o := by
  induction parts generalizing o with
  | nil => exact .refl _
  | cons part parts ih => exact (ih (dropMember o part)).trans List.eraseP_sublist

/-- Leaving out what parts fit, one after another, is leaving out the first key for each. -/
theorem dropMembers_eq_filter {parts : List String}
    (hp : parts.Pairwise fun s t => Text.lower s ≠ Text.lower t) {o : Object}
    (ho : o.keys.Nodup) :
    dropMembers parts o = o.filter fun m => !parts.any fun part => o.key? part == some m.1 := by
  induction parts generalizing o with
  | nil => simp [dropMembers]
  | cons part parts ih =>
      rw [List.pairwise_cons] at hp
      have hsub : (dropMember o part).Sublist o := List.eraseP_sublist
      have hkey : ∀ other ∈ parts, (dropMember o part).key? other = o.key? other := by
        intro other hother
        rw [Object.key?, member?_dropMember (hp.1 other hother), Object.key?]
      have hstep : dropMembers (part :: parts) o = dropMembers parts (dropMember o part) := rfl
      rw [hstep, ih hp.2 ((hsub.map _).nodup ho), dropMember_eq_filter ho, List.filter_filter]
      refine List.filter_congr fun m hm => ?_
      rw [← dropMember_eq_filter ho]
      have hany : (parts.any fun other => (dropMember o part).key? other == some m.1) =
          parts.any fun other => o.key? other == some m.1 := by
        rw [Bool.eq_iff_iff, List.any_eq_true, List.any_eq_true]
        exact exists_congr fun other => and_congr_right fun hother => by rw [hkey other hother]
      rw [hany, List.any_cons, Bool.not_or, Bool.and_comm]
      rfl

theorem mem_keepMembers {parts : List String} {o : Object} {m : String × Json} :
    m ∈ keepMembers parts o ↔ ∃ part ∈ parts, o.member? part = some m := List.mem_filterMap

/-- Parts that no two names fit keep members of different keys. -/
theorem nodup_keys_keepMembers {parts : List String}
    (hp : parts.Pairwise fun s t => Text.lower s ≠ Text.lower t) (o : Object) :
    (Object.keys (keepMembers parts o)).Nodup := by
  rw [Object.keys, List.Nodup, List.pairwise_map]
  refine List.Pairwise.filterMap _ (fun s t hst m hm n hn he => ?_) hp
  rw [← Object.lower_of_member? hm, ← Object.lower_of_member? hn, he] at hst
  exact hst rfl

/-- Parts split an object into what is kept and what is left. -/
theorem split_members {o : Object} (ho : o.keys.Nodup) {parts : List String}
    {P : String → Prop} (hparts : ∀ part, part ∈ parts ↔ P part)
    (hp : parts.Pairwise fun s t => Text.lower s ≠ Text.lower t) :
    o.Split P (keepMembers parts o) (dropMembers parts o) := by
  have hkept : ∀ m, m ∈ keepMembers parts o ↔ m ∈ o ∧ o.FirstFor P m.1 := by
    intro m
    rw [mem_keepMembers, firstFor_iff hparts]
    constructor
    · rintro ⟨part, hpart, hm⟩
      obtain ⟨hmo, hk⟩ := (Object.member?_eq_some_iff_key? ho).mp hm
      exact ⟨hmo, part, hpart, hk⟩
    · rintro ⟨hmo, part, hpart, hk⟩
      exact ⟨part, hpart, (Object.member?_eq_some_iff_key? ho).mpr ⟨hmo, hk⟩⟩
  have hleft : ∀ m, m ∈ dropMembers parts o ↔ m ∈ o ∧ ¬ o.FirstFor P m.1 := by
    intro m
    rw [dropMembers_eq_filter hp ho, List.mem_filter, firstFor_iff hparts]
    simp
  have hnodup : o.Nodup := List.Nodup.of_map _ ho
  have hnodupKept : (keepMembers parts o).Nodup :=
    List.Nodup.of_map _ (nodup_keys_keepMembers hp o)
  have hnodupLeft : (dropMembers parts o).Nodup := by
    rw [dropMembers_eq_filter hp ho]
    exact hnodup.filter _
  refine ⟨?_, hkept, hleft⟩
  rw [List.perm_ext_iff_of_nodup ?_ hnodup]
  · intro m
    rw [List.mem_append, hkept, hleft, ← and_or_left]
    exact and_iff_left (Classical.em _)
  · refine List.nodup_append.mpr ⟨hnodupKept, hnodupLeft, fun m hm n hn he => ?_⟩
    exact ((hleft n).mp hn).2 (he ▸ ((hkept m).mp hm).2)

end Projection

/-! ### Splitting a value -/

namespace Json

/-- `v.SplitItem parts kept left`: an object is split by parts, and any other value is in both. -/
inductive SplitItem (parts : String → Prop) : Json → Json → Json → Prop
  | object {o kept left : Object} :
      o.Split parts kept left → SplitItem parts (.object o) (.object kept) (.object left)
  | other {v : Json} : v.members? = none → SplitItem parts v v v

/-- `v.Split parts kept left`: a value is split by parts; an array item by item, in their order. -/
inductive Split (parts : String → Prop) : Json → Json → Json → Prop
  | array {items kept left : List Json} :
      kept.length = items.length → left.length = items.length →
      (∀ (i : Nat) (v a b : Json), items[i]? = some v → kept[i]? = some a → left[i]? = some b →
        v.SplitItem parts a b) →
      Split parts (.array items) (.array kept) (.array left)
  | item {v kept left : Json} :
      v.items? = none → v.SplitItem parts kept left → Split parts v kept left

end Json

namespace Projection

/-- Parts split a value into the share of it and what is left without it. -/
theorem split_onObjects {v : Json} (hv : v.HasDistinctKeys) {parts : List String}
    {P : String → Prop} (hparts : ∀ part, part ∈ parts ↔ P part)
    (hp : parts.Pairwise fun s t => Text.lower s ≠ Text.lower t) :
    v.Split P (onObjects (keepMembers parts) v) (onObjects (dropMembers parts) v) := by
  cases hv with
  | scalar s => exact .item rfl (.other rfl)
  | object ho _ => exact .item rfl (.object (split_members ho hparts hp))
  | array hitems =>
      refine .array (by simp) (by simp) fun i v a b hv ha hb => ?_
      simp only [List.getElem?_map, hv, Option.map_some, Option.some.injEq] at ha hb
      subst ha hb
      have hkeys := hitems v (List.mem_of_getElem? hv)
      cases hkeys with
      | scalar s => exact .other rfl
      | array _ => exact .other rfl
      | object ho _ => exact .object (split_members ho hparts hp)

/-! ### Changes of the objects in a value -/

/-- The objects that a value is, or that are items of the array that it is. -/
def objects : Json → List Object
  | .object o => [o]
  | .array items => items.filterMap Json.members?
  | .scalar _ => []

/-- A change that changes its results no further changes a value once. -/
theorem onObjects_onObjects {change : Object → Object} {v : Json}
    (h : ∀ o ∈ objects v, change (change o) = change o) :
    onObjects change (onObjects change v) = onObjects change v := by
  cases v with
  | scalar s => rfl
  | object o => simp only [onObjects, h o (List.mem_singleton_self o)]
  | array items =>
      simp only [onObjects, List.map_map, Json.array.injEq]
      refine List.map_congr_left fun item hitem => ?_
      cases item with
      | object o => simp only [Function.comp_apply, h o (List.mem_filterMap.mpr ⟨_, hitem, rfl⟩)]
      | scalar s => rfl
      | array vs => rfl

end Projection
end ScimQuery
