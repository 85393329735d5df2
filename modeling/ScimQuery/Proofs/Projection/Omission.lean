import ScimQuery.Proofs.Projection.Complement
import ScimQuery.Proofs.Projection.Subobject

/-! # Leaving out twice

What is left of a resource without some names, and what is left of that without the same names.  Parts of
a member that are left out are not there any more (`dropMembers_dropMembers`), and what is left of a value
depends on the share of it alone (`left?_of_left?`).  So leaving out twice is leaving out once if the
share of each member is the same the second time.

A name whose member was left out as a whole must then not find another one.  In a resource whose keys
differ in more than case, have no points and are not enclosed by others it finds none (`drop_drop`).
`left_again` says so of the projections; `not_left_again` is a key that is another one and a colon, which
a name may reach when its own key is gone. -/

namespace ScimQuery
namespace Projection

/-! ### Parts that are left out twice -/

/-- Parts that fit nothing leave an object as it is. -/
theorem dropMembers_of_none {parts : List String} {o : Object}
    (h : ∀ part ∈ parts, o.member? part = none) : dropMembers parts o = o := by
  induction parts with
  | nil => rfl
  | cons part parts ih =>
      obtain ⟨hpart, hparts⟩ := List.forall_mem_cons.mp h
      have hdrop : dropMember o part = o := by
        refine List.eraseP_of_forall_not fun m hm => ?_
        have hne := Object.member?_eq_none_iff.mp hpart m.1 (List.mem_map_of_mem hm)
        simpa using hne
      calc dropMembers (part :: parts) o = dropMembers parts (dropMember o part) := rfl
        _ = o := by rw [hdrop, ih hparts]

/-- What a part fits is not there any more, where keys differ in more than case. -/
theorem member?_dropMembers {parts : List String} {o : Object} (ho : o.NamesDiffer) {part : String}
    (hpart : part ∈ parts) : Object.member? (dropMembers parts o) part = none := by
  induction parts generalizing o with
  | nil => cases hpart
  | cons first parts ih =>
      rcases List.mem_cons.mp hpart with rfl | hpart
      · have hsub : (dropMembers parts (dropMember o part)).Sublist (dropMember o part) :=
          dropMembers_sublist parts _
        exact Object.member?_eq_none_of_subset (hsub.map _).subset (member?_dropMember_self ho rfl)
      · have hfirst : (dropMember o first).NamesDiffer := List.Pairwise.sublist List.eraseP_sublist ho
        exact ih hfirst hpart

theorem dropMembers_dropMembers (parts : List String) {o : Object} (ho : o.NamesDiffer) :
    dropMembers parts (dropMembers parts o) = dropMembers parts o :=
  dropMembers_of_none fun _ => member?_dropMembers ho

/-! ### Members that are left out twice -/

/-- What is left of a value is left of it again. -/
theorem left?_of_left? {as : List Address} {key : String} {v w : Json}
    (hv : ∀ o ∈ objects v, o.NamesDiffer) (h : left? as key v = some w) :
    left? as key w = some w := by
  rcases left?_eq_some_iff.mp h with ⟨rfl, -⟩ | ⟨parts, rfl, hkey⟩
  · exact h
  · have htwice := onObjects_onObjects fun o ho => dropMembers_dropMembers parts (hv o ho)
    exact left?_eq_some_iff.mpr (.inr ⟨parts, htwice.symm, hkey⟩)

theorem mem_drop_iff {names : List String} {r : Object} {key : String} {w : Json} :
    (key, w) ∈ drop names r ↔ ∃ v, (key, v) ∈ r ∧ left? (addresses r names) key v = some w := by
  rw [drop_eq_filterMap, List.mem_filterMap]
  constructor
  · rintro ⟨⟨k, v⟩, hmem, hm⟩
    obtain ⟨w', hw, he⟩ := Option.map_eq_some_iff.mp hm
    obtain ⟨rfl, rfl⟩ := Prod.mk.inj he
    exact ⟨v, hmem, hw⟩
  · rintro ⟨v, hmem, hw⟩
    exact ⟨(key, v), hmem, Option.map_eq_some_iff.mpr ⟨w, hw, rfl⟩⟩

/-- The share of a member counts the addresses with its key only. -/
theorem share?_filter {as : List Address} {p : Address → Bool} {key : String}
    (hp : ∀ a ∈ as, a.key = key → p a = true) : share? (as.filter p) key = share? as key := by
  have hhere : (as.filter p).filter (·.key == key) = as.filter (·.key == key) := by
    rw [List.filter_filter]
    refine List.filter_congr fun a ha => ?_
    by_cases hkey : a.key = key
    · simp [hkey, hp a ha hkey]
    · simp [hkey]
  rw [share?, share?, hhere]

/-- Leaving out names twice is leaving them out once, with all members in their places. -/
theorem drop_drop {names : List String} {r : Object} (hr : IsUnambiguous r) (hcolon : HasNoBareColon r)
    (hnames : ∀ name ∈ names, ∀ c ∈ name.toList, Text.IsPlain c) :
    drop names (drop names r) = drop names r := by
  have haddr := addresses_of_subset hr hcolon (keys_drop_subset names r) (namesDiffer_drop names hr.names)
    hnames
  rw [drop_eq_filterMap names (drop names r)]
  refine (List.filterMap_congr fun m hm => ?_).trans List.filterMap_some
  obtain ⟨key, w⟩ := m
  obtain ⟨v, hv, hleft⟩ := mem_drop_iff.mp hm
  have hshare : share? (addresses (drop names r) names) key = share? (addresses r names) key := by
    rw [haddr]
    refine share?_filter fun a _ hkey => ?_
    rw [hkey, List.contains_iff_mem]
    exact List.mem_map_of_mem hm
  have hagain := left?_of_left? (hr.members _ hv) hleft
  rw [left?, ← hshare] at hagain
  dsimp only
  rw [left?, hagain]
  rfl

/-! ### Leaving out of what was left -/

/-- What is left of what is left is what was left, with all members in their places, in each
unambiguous resource of which no key is another one and a colon. -/
theorem left_again (r : Object) (given : AttributeNames) (hr : IsUnambiguous r)
    (hcolon : HasNoBareColon r) :
    let projection : Projection := ⟨none, some given⟩
    projection.apply (projection.apply r) = projection.apply r := by
  intro projection
  by_cases hn : given.names = []
  · have hall : ∀ o, projection.apply o = o := fun o => (apply_of_nil hn o).2
    rw [hall, hall]
  · have happly : ∀ o, projection.apply o = drop given.names o := apply_excluded hn
    rw [happly, happly]
    exact drop_drop hr hcolon fun name => AttributeNames.isPlain_of_mem_names

/-- A resource with two extensions, addresses and a name. -/
def filed : Object :=
  [("urn:a:b.c", .object [("d", .bool true), ("E", .null)]),
    ("emails", .array [.object [("type", .text "work"), ("value", .text "w")], .text "h"]),
    ("urn:a:B", .object []), ("Name", .object [("familyName", .text "Li")])]

/-- Parts of an extension and of addresses are left out of it, and the other extension and the name as
wholes. -/
theorem left_again_filed :
    IsUnambiguous filed ∧ HasNoBareColon filed ∧
    (let projection : Projection :=
      ⟨none, some (.text "urn:A:b.c:e,emails.value,urn:a:b,name,name.familyName")⟩
     (projection.apply filed).keys = ["urn:a:b.c", "emails"] ∧
     projection.apply (projection.apply filed) = projection.apply filed) := by
  have hflat : ∀ outer ∈ filed.keys, ∀ inner ∈ filed.keys, ¬ Encloses outer inner := by
    decide +kernel
  have hr : IsUnambiguous filed :=
    { names := by decide +kernel
      members := by decide +kernel
      points := by decide +kernel
      schemas := fun outer houter inner hinner hurn s _ he =>
        hflat outer houter inner hinner ⟨hurn, s, he⟩ }
  have hcolon : HasNoBareColon filed := fun outer houter inner hinner hurn he =>
    hflat outer houter inner hinner ⟨hurn, "", by rw [he, String.append_empty]⟩
  exact ⟨hr, hcolon, by decide +kernel, left_again filed _ hr hcolon⟩

/-- Two keys of which one is the other and a colon. -/
def bareColon : Object := [("urn:x", .object [("", .integer 1)]), ("urn:x:", .bool true)]

/-- Leaving out twice may leave less, in an unambiguous resource with such keys.  The first time `urn:x:`
is a key, and the second time the empty part of `urn:x`. -/
theorem not_left_again :
    IsUnambiguous bareColon ∧
    (let projection : Projection := ⟨none, some (.list ["urn:x:"])⟩
     projection.apply (projection.apply bareColon) ≠ projection.apply bareColon) := by
  refine ⟨{ names := by decide +kernel, members := by decide +kernel, points := by decide +kernel,
            schemas := ?_ }, fun he => ?_⟩
  · -- The longer key is the shorter one and a colon, so nothing follows the colon.
    have hlong : ∀ key ∈ bareColon.keys, (Text.lower key).length ≤ 6 := by decide +kernel
    have hshort : ∀ key ∈ bareColon.keys, 5 ≤ (Text.lower key).length := by decide +kernel
    intro outer houter inner hinner _ s hs he
    have hlength := congrArg String.length he
    have hcolon : ":".length = 1 := rfl
    have hpos : s.length ≠ 0 := fun h => hs (String.length_eq_zero_iff.mp h)
    have := hlong inner hinner
    have := hshort outer houter
    rw [String.length_append, String.length_append] at hlength
    omega
  · have hparts := congrArg (fun o : Object => o.map fun m => (objects m.2).map List.length) he
    revert hparts
    decide +kernel

end Projection
end ScimQuery
