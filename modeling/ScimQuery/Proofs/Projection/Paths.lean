import ScimQuery.Proofs.Attribute.Routes
import ScimQuery.Proofs.Filter.Rendering
import ScimQuery.Proofs.Projection.Covering

/-! # Projections by one name

What is kept of a resource by one name, and what is left of it without the name, and where names lead
in them, one inside the other.  The name takes a route (`Takes`) if the route leads on in what is
kept and nowhere in what is left, and misses it (`Misses`) if it is the other way round.  It takes every
route into a member that it addresses as a whole, takes the routes along a part that it addresses and
misses those along other parts, and misses every route into another member.  An identifier is such a
name (`Filter.names_of_isIdentifier`). -/

namespace ScimQuery

/-! ### Identifiers as names of attributes -/

namespace Filter

variable {path : String} (h : isIdentifier path = true)
include h

/-- An identifier is an ASCII text without a line feed. -/
theorem isAscii_of_isIdentifier : Text.IsAscii path.toList ∧ '\n' ∉ path.toList := by
  simp only [isIdentifier, Bool.and_eq_true] at h
  obtain ⟨-, hword⟩ := Lexeme.inWord_of_isWord h.1
  constructor
  · intro c hc
    have := Lexeme.toNat_of_inWord (hword c hc)
    omega
  · intro hc
    have hfeed : Lexeme.inWord '\n' = false := by decide
    rw [hword _ hc] at hfeed
    cases hfeed

/-- An identifier is one name, of which the normal form is the lower-case form. -/
theorem names_of_isIdentifier : (AttributeNames.list [path]).names = [Text.lower path] := by
  have htight := isTight_identifier h
  have htrim : Text.trim path = path := by
    have hchars := Text.trimChars_padded Text.areBlanks_nil htight Text.areBlanks_nil
    rw [List.nil_append, List.append_nil] at hchars
    rw [Text.trim, hchars, String.ofList_toList]
  have hne : Text.lower path ≠ "" := by
    intro he
    obtain ⟨c, _, hc, -⟩ := htight
    rw [Text.lower_eq_empty_iff.mp he] at hc
    cases hc
  have hsingle : [Text.lower path].eraseDups = [Text.lower path] := by
    simp [List.eraseDups_cons]
  simp [AttributeNames.names, AttributeNames.normalize, AttributeNames.normalizeName, htrim, hne,
    hsingle]

end Filter

namespace Projection

/-! ### Shares of one name -/

section Single

variable {r : Object} {name key : String} (hname : ∀ c ∈ name.toList, Text.IsPlain c)
include hname

theorem share?_single_whole (h : AddressesWhole r name key) :
    share? (addresses r [name]) key = some .whole := by
  rw [addresses, List.filterMap_cons, (address?_eq_whole_iff hname).mpr h]
  simp [share?]

theorem share?_single_part {part : String} (h : AddressesPart r name key part) :
    share? (addresses r [name]) key = some (.parts [part]) := by
  rw [addresses, List.filterMap_cons, (address?_eq_part_iff hname).mpr h]
  simp [share?]

theorem share?_single_none (hwhole : ¬ AddressesWhole r name key)
    (hpart : ∀ part, ¬ AddressesPart r name key part) :
    share? (addresses r [name]) key = none := by
  refine share?_eq_none ?_ ?_ ?_
  · simpa using hname
  · simpa using hwhole
  · simpa [PartOf] using hpart

end Single

/-! ### Routes into projections -/

theorem isPlain_single {name : String} (hname : ∀ c ∈ name.toList, Text.IsPlain c) :
    ∀ n ∈ [name], ∀ c ∈ n.toList, Text.IsPlain c := by
  intro n hn
  rw [List.mem_singleton] at hn
  rwa [hn]

theorem keys_keep_subset {r : Object} {name : String} (hname : ∀ c ∈ name.toList, Text.IsPlain c) :
    (keep [name] r).keys ⊆ r.keys :=
  fun _ => mem_keys_of_mem_keys_keep (isPlain_single hname)

/-- What is kept of an object by one part has the member that the part fits. -/
theorem member?_keepMembers (part z : String) (o : Object) :
    Object.member? (keepMembers [part] o) z =
      if Text.lower z = Text.lower part then o.member? z else none := by
  have hsame : Text.lower z = Text.lower part → o.member? z = o.member? part := by
    intro he
    rw [Object.member?, Object.member?, he]
  cases hm : o.member? part with
  | none =>
      have hkeep : keepMembers [part] o = [] := by simp [keepMembers, hm]
      rw [hkeep]
      split
      · rename_i he
        rw [hsame he, hm]
        rfl
      · rfl
  | some m =>
      have hkeep : keepMembers [part] o = [m] := by simp [keepMembers, hm]
      rw [hkeep, Object.member?_cons, Object.lower_of_member? hm]
      by_cases he : Text.lower z = Text.lower part
      · rw [if_pos he.symm, if_pos he, hsame he, hm]
      · rw [if_neg (Ne.symm he), if_neg he]
        rfl

/-- It leads on only from that part. -/
theorem follow_keepMembers (part z : String) (zs : List String) (v : Json) :
    Path.follow (z :: zs) (onObjects (keepMembers [part]) v) =
      if Text.lower z = Text.lower part then Path.follow (z :: zs) v else .null := by
  cases v with
  | scalar s => simp [onObjects, Path.follow, Json.members?]
  | array vs => simp [onObjects, Path.follow, Json.members?]
  | object o =>
      rw [onObjects, Path.follow_cons, Path.follow_cons, member?_keepMembers]
      by_cases he : Text.lower z = Text.lower part
      · rw [if_pos he, if_pos he]
      · rw [if_neg he, if_neg he]

/-- What is left of an object without one part leads on from all but that part. -/
theorem follow_dropMembers (part z : String) (zs : List String) {v : Json}
    (hv : v.HasDistinctNames) :
    Path.follow (z :: zs) (onObjects (dropMembers [part]) v) =
      if Text.lower z = Text.lower part then .null else Path.follow (z :: zs) v := by
  cases hv with
  | scalar s => simp [onObjects, Path.follow, Json.members?]
  | array _ => simp [onObjects, Path.follow, Json.members?]
  | @object o ho _ =>
      have hdrop : dropMembers [part] o = dropMember o part := rfl
      rw [onObjects, Path.follow_cons, Path.follow_cons, hdrop]
      by_cases he : Text.lower z = Text.lower part
      · rw [if_pos he, member?_dropMember_self ho he]
      · rw [if_neg he, member?_dropMember (Ne.symm he)]

section Nowhere

variable {v : Json} {ys : List String} (h : Path.follow ys v = .null) (part : String)
include h

theorem follow_keepMembers_of_null :
    Path.follow ys (onObjects (keepMembers [part]) v) = .null := by
  cases ys with
  | nil =>
      obtain rfl : v = .null := h
      rfl
  | cons z zs => rw [follow_keepMembers, h, ite_self]

theorem follow_dropMembers_of_null (hv : v.HasDistinctNames) :
    Path.follow ys (onObjects (dropMembers [part]) v) = .null := by
  cases ys with
  | nil =>
      obtain rfl : v = .null := h
      rfl
  | cons z zs => rw [follow_dropMembers part z zs hv, h, ite_self]

end Nowhere

theorem follow_eq_null {r o : Object} (hsub : o.keys ⊆ r.keys) {y : String}
    (h : r.member? y = none) (ys : List String) : Path.follow (y :: ys) (.object o) = .null := by
  rw [Path.follow_cons, Object.member?_eq_none_of_subset hsub h]

/-- `Takes r name route`: names lead in what is kept by a name where they led, and nowhere in what is
left without it. -/
def Takes (r : Object) (name : String) (route : List String) : Prop :=
  Path.follow route (.object (keep [name] r)) = Path.follow route (.object r) ∧
    Path.follow route (.object (drop [name] r)) = .null

/-- `Misses r name route`: names lead nowhere in what is kept by a name, and where they led in what is
left without it. -/
def Misses (r : Object) (name : String) (route : List String) : Prop :=
  Path.follow route (.object (keep [name] r)) = .null ∧
    Path.follow route (.object (drop [name] r)) = Path.follow route (.object r)

section Follow

variable {r : Object} {name y key : String} {v : Json}
  (hname : ∀ c ∈ name.toList, Text.IsPlain c) (hr : r.NamesDiffer)
  (hm : r.member? y = some (key, v))
include hname hr hm

/-- Where a member of a resource leads on in what is kept of it. -/
theorem follow_keep (ha : ¬ IsAlways r key) (ys : List String) :
    Path.follow (y :: ys) (.object (keep [name] r)) =
      match share? (addresses r [name]) key with
      | some share => Path.follow ys (keepShare share v)
      | none => .null := by
  have hkeep : (keep [name] r).NamesDiffer := namesDiffer_keep (isPlain_single hname)
  rw [Path.follow_cons, hr.member?_eq_get? hkeep (keys_keep_subset hname) hm, get?_keep [name] ha,
    shareOf?, Object.get?_of_member? hm]
  cases share? (addresses r [name]) key with
  | none => rfl
  | some share => rfl

omit hname in
/-- Where it leads on in what is left without the name. -/
theorem follow_drop (ha : ¬ isAlwaysReturned key = true) (ys : List String) :
    Path.follow (y :: ys) (.object (drop [name] r)) =
      match share? (addresses r [name]) key with
      | some share => Json.ofOption ((dropShare? share v).map (Path.follow ys))
      | none => Path.follow ys v := by
  have hdrop := namesDiffer_drop [name] hr
  rw [Path.follow_cons, hr.member?_eq_get? hdrop (keys_drop_subset [name] r) hm, get?_drop,
    Object.get?_of_member? hm, Option.bind_some, left?, if_neg ha]
  cases share? (addresses r [name]) key with
  | none => rfl
  | some share =>
      cases h : dropShare? share v with
      | none => simp [h, Json.ofOption]
      | some w => simp [h, Json.ofOption]

variable (ha : ¬ isAlwaysReturned key = true)
include ha

theorem takes_of_whole (h : AddressesWhole r name key) (ys : List String) :
    Takes r name (y :: ys) := by
  have hnot : ¬ IsAlways r key := fun h => ha (isAlwaysReturned_of_isAlways h)
  unfold Takes
  rw [follow_keep hname hr hm hnot, follow_drop hr hm ha, share?_single_whole hname h,
    Path.follow_cons, hm]
  exact ⟨rfl, rfl⟩

theorem takes_of_part (hv : v.HasDistinctNames) {part z : String}
    (h : AddressesPart r name key part) (hz : Text.lower z = Text.lower part) (zs : List String) :
    Takes r name (y :: z :: zs) := by
  have hnot : ¬ IsAlways r key := fun h => ha (isAlwaysReturned_of_isAlways h)
  have hkept := follow_keepMembers part z zs v
  have hleft := follow_dropMembers part z zs hv
  rw [if_pos hz] at hkept hleft
  unfold Takes
  rw [follow_keep hname hr hm hnot, follow_drop hr hm ha, share?_single_part hname h,
    Path.follow_cons y _ r, hm]
  exact ⟨hkept, hleft⟩

theorem misses_of_part (hv : v.HasDistinctNames) {part z : String}
    (h : AddressesPart r name key part) (hz : Text.lower z ≠ Text.lower part) (zs : List String) :
    Misses r name (y :: z :: zs) := by
  have hnot : ¬ IsAlways r key := fun h => ha (isAlwaysReturned_of_isAlways h)
  have hkept := follow_keepMembers part z zs v
  have hleft := follow_dropMembers part z zs hv
  rw [if_neg hz] at hkept hleft
  unfold Misses
  rw [follow_keep hname hr hm hnot, follow_drop hr hm ha, share?_single_part hname h,
    Path.follow_cons y _ r, hm]
  exact ⟨hkept, hleft⟩

theorem misses_of_unaddressed (hwhole : ¬ AddressesWhole r name key)
    (hpart : ∀ part, ¬ AddressesPart r name key part) (ys : List String) :
    Misses r name (y :: ys) := by
  have hnot : ¬ IsAlways r key := fun h => ha (isAlwaysReturned_of_isAlways h)
  unfold Misses
  rw [follow_keep hname hr hm hnot, follow_drop hr hm ha, share?_single_none hname hwhole hpart,
    Path.follow_cons, hm]
  exact ⟨rfl, rfl⟩

theorem follow_projections_of_null (hv : v.HasDistinctNames) {ys : List String}
    (h : Path.follow ys v = .null) :
    Path.follow (y :: ys) (.object (keep [name] r)) = .null ∧
      Path.follow (y :: ys) (.object (drop [name] r)) = .null := by
  have hroute : Path.follow (y :: ys) (.object r) = .null := by
    rw [Path.follow_cons, hm]
    exact h
  by_cases hwhole : AddressesWhole r name key
  · obtain ⟨hkept, hleft⟩ := takes_of_whole hname hr hm ha hwhole ys
    exact ⟨hkept.trans hroute, hleft⟩
  by_cases hpart : ∃ part, AddressesPart r name key part
  · obtain ⟨part, hpart⟩ := hpart
    have hnot : ¬ IsAlways r key := fun h => ha (isAlwaysReturned_of_isAlways h)
    rw [follow_keep hname hr hm hnot, follow_drop hr hm ha, share?_single_part hname hpart]
    exact ⟨follow_keepMembers_of_null h part, follow_dropMembers_of_null h part hv⟩
  · obtain ⟨hkept, hleft⟩ :=
      misses_of_unaddressed hname hr hm ha hwhole (fun part h => hpart ⟨part, h⟩) ys
    exact ⟨hkept, hleft.trans hroute⟩

end Follow

/-! ### Routes that both projections leave as they are -/

section Alike

variable {r : Object} {names : List String}
  (hnames : ∀ name ∈ names, ∀ c ∈ name.toList, Text.IsPlain c)
include hnames

/-- Names lead in projections where they led, from a member that is always there. -/
theorem follow_of_always (hr : r.NamesDiffer) {y : String} (hy : Text.lower y ∈ alwaysReturned)
    (ys : List String) :
    Path.follow (y :: ys) (.object (keep names r)) = Path.follow (y :: ys) (.object r) ∧
      Path.follow (y :: ys) (.object (drop names r)) = Path.follow (y :: ys) (.object r) := by
  have hkeep : (keep names r).keys ⊆ r.keys := fun k => mem_keys_of_mem_keys_keep hnames
  have hdrop := keys_drop_subset names r
  cases hm : r.member? y with
  | none =>
      rw [follow_eq_null hkeep hm, follow_eq_null hdrop hm, follow_eq_null (List.Subset.refl _) hm]
      exact ⟨rfl, rfl⟩
  | some m =>
      obtain ⟨key, v⟩ := m
      have hkey : r.key? y = some key := by rw [Object.key?, hm, Option.map_some]
      have halways : IsAlways r key := ⟨Text.lower y, hy, Object.key?_eq_some_iff.mp hkey⟩
      obtain ⟨hkept, hleft⟩ : (keep names r).get? key = some v ∧ (drop names r).get? key = some v :=
        get?_of_isAlways (Object.get?_of_member? hm) halways
      simp only [Path.follow_cons, hr.member?_eq_get? (namesDiffer_keep hnames) hkeep hm,
        hr.member?_eq_get? (namesDiffer_drop names hr) hdrop hm, hkept, hleft, hm]
      exact ⟨rfl, rfl⟩

end Alike

/-- Names that lead nowhere lead nowhere in projections. -/
theorem takes_and_misses_of_null {r : Object} (hr : (Json.object r).HasDistinctNames) {name : String}
    (hname : ∀ c ∈ name.toList, Text.IsPlain c) {route : List String}
    (h : Path.follow route (.object r) = .null) : Takes r name route ∧ Misses r name route := by
  have hboth : Path.follow route (.object (keep [name] r)) = .null ∧
      Path.follow route (.object (drop [name] r)) = .null := by
    cases route with
    | nil => cases h
    | cons y ys =>
        cases hm : r.member? y with
        | none =>
            exact ⟨follow_eq_null (keys_keep_subset hname) hm ys,
              follow_eq_null (keys_drop_subset [name] r) hm ys⟩
        | some m =>
            obtain ⟨key, v⟩ := m
            have hv : Path.follow ys v = .null := by
              rw [Path.follow_cons, hm] at h
              exact h
            have hkey := Object.lower_key_of_member? hm
            by_cases ha : isAlwaysReturned key = true
            · have hy : Text.lower y ∈ alwaysReturned := by
                rwa [isAlwaysReturned, List.contains_iff_mem, hkey] at ha
              obtain ⟨hkept, hleft⟩ := follow_of_always (isPlain_single hname) hr.namesDiffer hy ys
              exact ⟨hkept.trans h, hleft.trans h⟩
            · exact follow_projections_of_null hname hr.namesDiffer hm ha (hr.of_member? hm) hv
  unfold Takes Misses
  rw [hboth.1, hboth.2, h]
  exact ⟨⟨rfl, rfl⟩, rfl, rfl⟩

end Projection
end ScimQuery
