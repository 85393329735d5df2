import ScimQuery.Proofs.Projection.Paths

/-! # How projections read paths

A projection reads a path as one name that addresses a member or a part of one, and a path leads along
as many names as it has.  The two agree on a name, on two names with a point between them, on a name
behind the schema of an extension, and on whatever leads nowhere (`ReadsAlike`).  What is kept by such a
path leads where it led, and what is left without it leads nowhere.  Any other path that is not qualified
by a schema addresses another member, another part or nothing: what is kept by it leads nowhere, and what
is left leads where it led.  Apart from both are paths along a member that is always there
(`LiesInAlways`).  All of this is `resolve_projections`.

A path that is qualified by the schema of an extension addresses the first extension among the keys that
it goes on from, and that is the one of its own schema only if no other key comes in between (`Opens`). -/

namespace ScimQuery
namespace Projection

/-! ### Paths that projections read as they lead -/

/-- `LiesInAlways r path`: a path leads along a member that is always there. -/
inductive LiesInAlways (r : Object) (path : String) : Prop
  | plain {name : String} {rest : List String} :
      Urn.split? path = none → Path.names path = name :: rest →
      Text.lower name ∈ alwaysReturned → LiesInAlways r path
  | core {schema suffix name : String} {rest : List String} :
      Urn.split? path = some (schema, suffix) → r.member? schema = none →
      Schema.isCore schema = true → Path.names suffix = name :: rest →
      Text.lower name ∈ alwaysReturned → LiesInAlways r path

/-- `Opens r key path`: a path goes on behind a key, which is a schema URN, and a colon, and no other key
comes in between: it is the first such key, and no key is the path itself. -/
structure Opens (r : Object) (key path : String) : Prop where
  isFirst : r.IsFirst
    (fun k => IsUrnName (Text.lower k) ∧ ∃ s, Text.lower path = Text.lower k ++ ":" ++ s) key
  ne_path : ∀ k ∈ r.keys, Text.lower k ≠ Text.lower path

/-- `ReadsAlike r path`: a projection of a resource reads a path as the path leads.  It is

* a name without a point that is not qualified by a schema,
* a name and the name of a part, with one point between them, that no key fits as a whole, and that
  does not start as a schema URN does,
* the name of an attribute without a point, qualified by a schema that is a key that no other comes in
  between of, or
* a path that leads nowhere, unless it is qualified by a core schema that is a key and another key comes
  in between. -/
inductive ReadsAlike (r : Object) (path : String) : Prop
  | name : Urn.split? path = none → '.' ∉ path.toList → ReadsAlike r path
  | dotted {top part : String} :
      ¬ IsUrnName (Text.lower path) → path = top ++ "." ++ part → '.' ∉ top.toList →
      '.' ∉ part.toList → (∀ key ∈ r.keys, Text.lower key ≠ Text.lower path) → ReadsAlike r path
  | extension {schema part key : String} {v : Json} :
      Urn.split? path = some (schema, part) → '.' ∉ part.toList →
      r.member? schema = some (key, v) → Opens r key path → ReadsAlike r path
  | nowhere : Path.resolve path (.object r) = .null →
      (∀ schema suffix key v, Urn.split? path = some (schema, suffix) →
        Schema.isCore schema = true → r.member? schema = some (key, v) → Opens r key path) →
      ReadsAlike r path

/-! ### Qualified paths -/

theorem isPlain_lower (path : String) : ∀ c ∈ (Text.lower path).toList, Text.IsPlain c :=
  fun _ => Text.isPlain_of_mem_lower

section Qualified

variable {r : Object} {path : String} (hr : (Json.object r).HasDistinctNames)
  (hp : Filter.isIdentifier path = true)

include hp in
/-- The parts of a qualified path. -/
theorem lower_of_split? {schema suffix : String} (hs : Urn.split? path = some (schema, suffix)) :
    Text.lower path = Text.lower schema ++ ":" ++ Text.lower suffix ∧
      IsUrnName (Text.lower schema) := by
  obtain ⟨hascii, hfeed⟩ := Filter.isAscii_of_isIdentifier hp
  obtain ⟨hpath, hschema⟩ := Urn.eq_of_split? hs hfeed
  rw [hpath] at hascii
  obtain ⟨hlower, hs, -⟩ := Text.lower_joined hascii (.inr rfl)
  rw [← hpath] at hlower
  refine ⟨hlower, ?_⟩
  rw [IsUrnName, Text.lower_of_isAscii hs, String.toList_ofList]
  exact Urn.prefix_of_isSchema hschema

include hp in
/-- The key of the schema of a path is no member that is always there. -/
theorem not_isAlwaysReturned_of_split? {schema suffix key : String} {v : Json}
    (hs : Urn.split? path = some (schema, suffix)) (hm : r.member? schema = some (key, v)) :
    ¬ isAlwaysReturned key = true := by
  refine not_isAlwaysReturned ?_
  rw [Object.lower_key_of_member? hm]
  exact (lower_of_split? hp hs).2

include hp in
/-- A path that is qualified by a key addresses a part of the member, if no other key comes in
between. -/
theorem Opens.addressesPart {schema suffix key : String} {v : Json} (h : Opens r key path)
    (hs : Urn.split? path = some (schema, suffix)) (hm : r.member? schema = some (key, v)) :
    AddressesPart r (Text.lower path) key (Text.lower suffix) := by
  obtain ⟨hlower, hurn⟩ := lower_of_split? hp hs
  refine .extension (fun k hk => h.ne_path k hk.mem hk.prop) ?_ h.isFirst ?_
  · rw [hlower, String.append_assoc]
    exact hurn.append _
  · rw [hlower, Object.lower_key_of_member? hm]

include hp in
theorem split?_eq_none (h : ¬ IsUrnName (Text.lower path)) : Urn.split? path = none := by
  cases hs : Urn.split? path with
  | none => rfl
  | some cut =>
      obtain ⟨schema, suffix⟩ := cut
      obtain ⟨hlower, hurn⟩ := lower_of_split? hp hs
      refine absurd ?_ h
      rw [hlower, String.append_assoc]
      exact hurn.append _

include hr hp in
/-- A path has the same route in both projections, unless it is qualified by a core schema that is a key
and another key comes in between. -/
theorem route_projections
    (hopens : ∀ schema suffix key v, Urn.split? path = some (schema, suffix) →
      Schema.isCore schema = true → r.member? schema = some (key, v) → Opens r key path) :
    Path.route path (keep [Text.lower path] r) = Path.route path r ∧
      Path.route path (drop [Text.lower path] r) = Path.route path r := by
  have hname := isPlain_lower path
  have hkeep := keys_keep_subset (r := r) hname
  have hdrop := keys_drop_subset [Text.lower path] r
  have hdiffer := hr.namesDiffer
  have hsame : ∀ schema suffix, Urn.split? path = some (schema, suffix) →
      Schema.isCore schema = true →
      (Object.member? (keep [Text.lower path] r) schema).isNone = (r.member? schema).isNone ∧
      (Object.member? (drop [Text.lower path] r) schema).isNone = (r.member? schema).isNone := by
    intro schema suffix hs hcore
    cases hm : r.member? schema with
    | none =>
        rw [Object.member?_eq_none_of_subset hkeep hm, Object.member?_eq_none_of_subset hdrop hm]
        exact ⟨rfl, rfl⟩
    | some m =>
        obtain ⟨key, v⟩ := m
        have hpart := (hopens schema suffix key v hs hcore hm).addressesPart hp hs hm
        have ha := not_isAlwaysReturned_of_split? hp hs hm
        have hnot : ¬ IsAlways r key := fun h => ha (isAlwaysReturned_of_isAlways h)
        rw [hdiffer.member?_eq_get? (namesDiffer_keep (isPlain_single hname)) hkeep hm,
          hdiffer.member?_eq_get? (namesDiffer_drop _ hdiffer) hdrop hm, get?_keep _ hnot, shareOf?,
          get?_drop, Object.get?_of_member? hm, Option.bind_some, left?, if_neg ha,
          share?_single_part hname hpart]
        exact ⟨rfl, rfl⟩
  exact ⟨Path.route_congr fun schema suffix hs hcore => (hsame schema suffix hs hcore).1,
    Path.route_congr fun schema suffix hs hcore => (hsame schema suffix hs hcore).2⟩

end Qualified

/-! ### Members that are always there -/

/-- A path along a member that is always there leads in what is kept where it led. -/
theorem resolve_keep_of_liesInAlways {names : List String} {r : Object}
    (hnames : ∀ name ∈ names, ∀ c ∈ name.toList, Text.IsPlain c) (hr : r.NamesDiffer) {path : String}
    (h : LiesInAlways r path) :
    Path.resolve path (.object (keep names r)) = Path.resolve path (.object r) := by
  have hsub : (keep names r).keys ⊆ r.keys := fun k => mem_keys_of_mem_keys_keep hnames
  rw [Path.resolve_eq_follow, Path.resolve_eq_follow]
  cases h with
  | plain hs hpath hy =>
      have hroute : ∀ o, Path.route path o = Path.names path := by
        intro o
        simp [Path.route, hs]
      rw [hroute, hroute, hpath]
      exact (follow_of_always hnames hr hy _).1
  | @core schema suffix _ _ hs hm hcore hsuffix hy =>
      have hroute : ∀ o, Object.member? o schema = none → Path.route path o = Path.names suffix := by
        intro o ho
        simp [Path.route, hs, ho, hcore]
      rw [hroute _ hm, hroute _ (Object.member?_eq_none_of_subset hsub hm), hsuffix]
      exact (follow_of_always hnames hr hy _).1

/-! ### The two readings -/

theorem not_isAlwaysReturned_of_lower {y key : String} (hkey : Text.lower key = Text.lower y)
    (hy : Text.lower y ∉ alwaysReturned) : ¬ isAlwaysReturned key = true := by
  rwa [isAlwaysReturned, List.contains_iff_mem, hkey]

section Readings

variable {r : Object} {path : String} (hr : (Json.object r).HasDistinctNames)
  (hp : Filter.isIdentifier path = true)

theorem isFirst_of_member? {y key : String} {v : Json} (hm : r.member? y = some (key, v)) :
    r.IsFirst (fun k => Text.lower k = Text.lower y) key := by
  refine Object.key?_eq_some_iff.mp ?_
  rw [Object.key?, hm, Option.map_some]

include hr in
/-- A name takes the member that it fits. -/
theorem takes_name (halways : Text.lower path ∉ alwaysReturned) :
    Takes r (Text.lower path) [path] := by
  cases hm : r.member? path with
  | none =>
      have hnull := follow_eq_null (List.Subset.refl _) hm []
      exact (takes_and_misses_of_null hr (isPlain_lower path) hnull).1
  | some m =>
      have ha := not_isAlwaysReturned_of_lower (Object.lower_of_member? hm) halways
      exact takes_of_whole (isPlain_lower path) hr.namesDiffer hm ha (isFirst_of_member? hm) []

include hr hp in
/-- A dotted path that no key fits takes a part without a point. -/
theorem takes_dotted {top part : String} (hurn : ¬ IsUrnName (Text.lower path))
    (hsplit : path = top ++ "." ++ part) (htop : '.' ∉ top.toList)
    (hwhole : ∀ key ∈ r.keys, Text.lower key ≠ Text.lower path)
    (halways : Text.lower top ∉ alwaysReturned) : Takes r (Text.lower path) [top, part] := by
  obtain ⟨hascii, -⟩ := Filter.isAscii_of_isIdentifier hp
  have hascii' : Text.IsAscii (top ++ "." ++ part).toList := hsplit ▸ hascii
  obtain ⟨hlower, -, -⟩ := Text.lower_joined hascii' (.inl rfl)
  cases hm : r.member? top with
  | none =>
      have hnull := follow_eq_null (List.Subset.refl _) hm [part]
      exact (takes_and_misses_of_null hr (isPlain_lower path) hnull).1
  | some m =>
      have ha := not_isAlwaysReturned_of_lower (Object.lower_of_member? hm) halways
      have hfirst := isFirst_of_member? hm
      rw [← Text.lower_lower top] at hfirst
      have hpart : AddressesPart r (Text.lower path) m.1 (Text.lower part) := by
        refine .dotted (Text.lower top) (fun k hk => hwhole k hk.mem hk.prop) hurn ?_ ?_ hfirst
        · rwa [Text.mem_lower_point_iff]
        · rw [hsplit, hlower]
      have hvalue := hr.of_member? hm
      exact takes_of_part (isPlain_lower path) hr.namesDiffer hm ha hvalue hpart
        (Text.lower_lower part).symm []

include hr hp in
/-- Any other path with a point that is not qualified misses its route. -/
theorem misses_dotted {top rest : String} (hsplit : path = top ++ "." ++ rest)
    (htop : '.' ∉ top.toList) (hnot : ¬ ReadsAlike r path) (halways : Text.lower top ∉ alwaysReturned) :
    Misses r (Text.lower path) (top :: Path.names rest) := by
  obtain ⟨hascii, -⟩ := Filter.isAscii_of_isIdentifier hp
  have hascii' : Text.IsAscii (top ++ "." ++ rest).toList := hsplit ▸ hascii
  obtain ⟨hlower, -, -⟩ := Text.lower_joined hascii' (.inl rfl)
  rw [← hsplit] at hlower
  cases hm : r.member? top with
  | none =>
      have hnull := follow_eq_null (List.Subset.refl _) hm (Path.names rest)
      exact (takes_and_misses_of_null hr (isPlain_lower path) hnull).2
  | some m =>
      obtain ⟨key, v⟩ := m
      have hkey := Object.lower_key_of_member? hm
      have ha := not_isAlwaysReturned_of_lower hkey halways
      have hwhole : ¬ AddressesWhole r (Text.lower path) key := by
        intro h
        have hpoint : '.' ∈ (Text.lower top).toList := by
          rw [← hkey, h.prop, hlower]
          simp
        exact htop (Text.mem_lower_point_iff.mp hpoint)
      by_cases hpart : ∃ part, AddressesPart r (Text.lower path) key part
      · obtain ⟨part, hpart⟩ := hpart
        have hpart' := hpart
        cases hpart with
        | extension _ _ _ hsplit' =>
            rw [hlower, hkey] at hsplit'
            have hchars := congrArg String.toList hsplit'
            simp at hchars
        | dotted top' hno hurn hdot hsplit' _ =>
            have hlowered : '.' ∉ (Text.lower top).toList := by
              rwa [Text.mem_lower_point_iff]
            obtain ⟨-, rfl⟩ := dotted_unique hdot hlowered (hsplit'.symm.trans hlower)
            have hpoint : '.' ∈ rest.toList := by
              by_contra hrest
              refine hnot (.dotted hurn hsplit htop hrest fun k hk he => ?_)
              obtain ⟨first, hfirst⟩ :=
                Object.exists_isFirst (p := fun k => Text.lower k = Text.lower path) hk he
              exact hno first hfirst
            obtain ⟨z, zs, hnames, hne⟩ := Path.exists_name_of_point hpoint
            rw [hnames]
            rw [← Text.lower_lower rest] at hne
            exact misses_of_part (isPlain_lower path) hr.namesDiffer hm ha (hr.of_member? hm) hpart'
              hne zs
      · exact misses_of_unaddressed (isPlain_lower path) hr.namesDiffer hm ha hwhole
          (fun part h => hpart ⟨part, h⟩) _

include hr hp in
/-- An attribute without a point that is qualified by a key is a part of its member, if no other key
comes in between. -/
theorem takes_extension {schema part key : String} {v : Json}
    (hs : Urn.split? path = some (schema, part)) (hm : r.member? schema = some (key, v))
    (hopens : Opens r key path) : Takes r (Text.lower path) [schema, part] :=
  takes_of_part (isPlain_lower path) hr.namesDiffer hm (not_isAlwaysReturned_of_split? hp hs hm)
    (hr.of_member? hm) (hopens.addressesPart hp hs hm) (Text.lower_lower part).symm []

include hr hp in
/-- A projection takes the route of a path that it reads as the path leads, and leaves the path its
route. -/
theorem takes_of_readsAlike (halways : ¬ LiesInAlways r path) (h : ReadsAlike r path) :
    Takes r (Text.lower path) (Path.route path r) ∧
      Path.route path (keep [Text.lower path] r) = Path.route path r ∧
      Path.route path (drop [Text.lower path] r) = Path.route path r := by
  cases h with
  | name hs hpoint =>
      have hnames := Path.names_of_not_mem hpoint
      have hroute (o : Object) : Path.route path o = [path] := by simp [Path.route, hs, hnames]
      simp only [hroute, and_self, and_true]
      exact takes_name hr fun h => halways (.plain hs hnames h)
  | @dotted top part hurn hsplit htop hpart hwhole =>
      have hs := split?_eq_none hp hurn
      have hnames : Path.names path = [top, part] := by
        rw [hsplit, Path.names_append htop, Path.names_of_not_mem hpart]
      have hroute (o : Object) : Path.route path o = [top, part] := by
        simp [Path.route, hs, hnames]
      simp only [hroute, and_self, and_true]
      exact takes_dotted hr hp hurn hsplit htop hwhole fun h => halways (.plain hs hnames h)
  | @extension schema part key v hs hpart hm hopens =>
      have hroute : Path.route path r = [schema, part] := by
        simp [Path.route, hs, hm, Path.names_of_not_mem hpart]
      refine ⟨?_, route_projections hr hp fun schema' _ key' v' hs' _ hm' => ?_⟩
      · rw [hroute]
        exact takes_extension hr hp hs hm hopens
      · rw [hs, Option.some.injEq, Prod.mk.injEq] at hs'
        obtain ⟨rfl, -⟩ := hs'
        rw [hm, Option.some.injEq, Prod.mk.injEq] at hm'
        obtain ⟨rfl, -⟩ := hm'
        exact hopens
  | nowhere hnull hopens =>
      rw [Path.resolve_eq_follow] at hnull
      exact ⟨(takes_and_misses_of_null hr (isPlain_lower path) hnull).1, route_projections hr hp hopens⟩

include hr hp in
/-- A projection misses the route of any other path that is not qualified by a schema. -/
theorem misses_of_not_readsAlike (halways : ¬ LiesInAlways r path) (h : ¬ ReadsAlike r path)
    (hs : Urn.split? path = none) : Misses r (Text.lower path) (Path.names path) := by
  have hpoint : '.' ∈ path.toList := by
    by_contra hpoint
    exact h (.name hs hpoint)
  obtain ⟨top, rest, htop, hsplit⟩ := Path.exists_top hpoint
  have hnames : Path.names path = top :: Path.names rest := by
    rw [hsplit, Path.names_append htop]
  rw [hnames]
  exact misses_dotted hr hp hsplit htop h fun h => halways (.plain hs hnames h)

end Readings

/-! ### Projections and paths -/

/-- What projections by a path leave of what is at the path.  A path along a member that is always there
leads in what is kept where it led.  Any other path that a projection reads as it leads, leads in what is
kept where it led and nowhere in what is left without it; and any other path that is not qualified by a
schema leads nowhere in what is kept, and in what is left where it led. -/
theorem resolve_projections (r : Object) (hr : (Json.object r).HasDistinctNames) (path : String)
    (hp : Filter.isIdentifier path = true) :
    let kept := (⟨some (.list [path]), none⟩ : Projection).apply r
    let left := (⟨none, some (.list [path])⟩ : Projection).apply r
    (LiesInAlways r path → Path.resolve path (.object kept) = Path.resolve path (.object r)) ∧
    (¬ LiesInAlways r path → ReadsAlike r path →
      Path.resolve path (.object kept) = Path.resolve path (.object r) ∧
      Path.resolve path (.object left) = .null) ∧
    (¬ LiesInAlways r path → ¬ ReadsAlike r path → Urn.split? path = none →
      Path.resolve path (.object kept) = .null ∧
      Path.resolve path (.object left) = Path.resolve path (.object r)) := by
  have hnames : (AttributeNames.list [path]).names = [Text.lower path] :=
    Filter.names_of_isIdentifier hp
  have hplain := isPlain_single (isPlain_lower path)
  have hne : (AttributeNames.list [path]).names ≠ [] := by simp [hnames]
  have hkept : (⟨some (.list [path]), none⟩ : Projection).apply r = keep [Text.lower path] r := by
    rw [apply_attributes hne, hnames]
  have hleft : (⟨none, some (.list [path])⟩ : Projection).apply r = drop [Text.lower path] r := by
    rw [apply_excluded hne, hnames]
  intro kept left
  rw [show kept = keep [Text.lower path] r from hkept,
    show left = drop [Text.lower path] r from hleft]
  refine ⟨resolve_keep_of_liesInAlways hplain hr.namesDiffer, fun halways halike => ?_,
    fun halways hnot hs => ?_⟩
  · obtain ⟨htakes, hroute, hroute'⟩ := takes_of_readsAlike hr hp halways halike
    rw [Path.resolve_eq_follow, Path.resolve_eq_follow, Path.resolve_eq_follow, hroute, hroute']
    exact htakes
  · have hroute (o : Object) : Path.route path o = Path.names path := by simp [Path.route, hs]
    rw [Path.resolve_eq_follow, Path.resolve_eq_follow, Path.resolve_eq_follow]
    simp only [hroute]
    exact misses_of_not_readsAlike hr hp halways hnot hs

/-- A resource with an extension of two attributes, before one whose schema encloses its own. -/
def employee : Object :=
  [("urn:a:B", .object [("C", .bool true), ("d", .null)]), ("urn:a", .object [("e", .null)])]

theorem hasDistinctNames_employee : (Json.object employee).HasDistinctNames := by
  refine Json.hasDistinctNames_pair (by decide +kernel) ?_ (Json.hasDistinctNames_single (.scalar _))
  exact Json.hasDistinctNames_pair (by decide +kernel) (.scalar _) (.scalar _)

/-- One of the two, in other letters, is kept, and nothing is left of it. -/
theorem resolve_projections_employee :
    (Json.object employee).HasDistinctNames ∧ Filter.isIdentifier "URN:a:b:c" = true ∧
    ¬ LiesInAlways employee "URN:a:b:c" ∧ ReadsAlike employee "URN:a:b:c" ∧
    (let kept := (⟨some (.list ["URN:a:b:c"]), none⟩ : Projection).apply employee
     let left := (⟨none, some (.list ["URN:a:b:c"])⟩ : Projection).apply employee
     Path.resolve "URN:a:b:c" (.object kept) = Path.resolve "URN:a:b:c" (.object employee) ∧
     Path.resolve "URN:a:b:c" (.object left) = .null) := by
  have hp : Filter.isIdentifier "URN:a:b:c" = true := by decide +kernel
  have hs : Urn.split? "URN:a:b:c" = some ("URN:a:b", "c") := by decide +kernel
  have hm : employee.member? "URN:a:b" =
      some ("urn:a:B", .object [("C", .bool true), ("d", .null)]) :=
    hasDistinctNames_employee.namesDiffer.member?_of_mem List.mem_cons_self (by decide +kernel)
  have halways : ¬ LiesInAlways employee "URN:a:b:c" := by
    intro h
    cases h with
    | plain hs' _ _ =>
        rw [hs] at hs'
        cases hs'
    | core hs' hm' _ _ _ =>
        rw [hs, Option.some.injEq, Prod.mk.injEq] at hs'
        obtain ⟨rfl, -⟩ := hs'
        rw [hm] at hm'
        cases hm'
  have hopens : Opens employee "urn:a:B" "URN:a:b:c" :=
    ⟨⟨[], _, _, rfl, ⟨by decide +kernel, "c", by decide +kernel⟩, by simp⟩, by decide +kernel⟩
  have hreads : ReadsAlike employee "URN:a:b:c" := .extension hs (by decide) hm hopens
  have hall := resolve_projections employee hasDistinctNames_employee "URN:a:b:c" hp
  exact ⟨hasDistinctNames_employee, hp, halways, hreads, hall.2.1 halways hreads⟩

/-- `IsChanged r path`: what is kept by a path does not lead where the path led. -/
def IsChanged (r : Object) (path : String) : Prop :=
  (Json.object r).HasDistinctNames ∧ Filter.isIdentifier path = true ∧
    Path.resolve path (.object ((⟨some (.list [path]), none⟩ : Projection).apply r)) ≠
      Path.resolve path (.object r)

/-- `IsMisread r path`: what is kept by a path does not lead where the path led, and what is left without
it still leads somewhere. -/
def IsMisread (r : Object) (path : String) : Prop :=
  IsChanged r path ∧
    Path.resolve path (.object ((⟨none, some (.list [path])⟩ : Projection).apply r)) ≠ .null

theorem isChanged_of_isNull {r : Object} {path : String} (hr : (Json.object r).HasDistinctNames)
    (hp : Filter.isIdentifier path = true)
    (h : (Path.resolve path
        (.object ((⟨some (.list [path]), none⟩ : Projection).apply r))).isNull ≠
      (Path.resolve path (.object r)).isNull) : IsChanged r path :=
  ⟨hr, hp, fun he => h (congrArg Json.isNull he)⟩

theorem isMisread_of_isNull {r : Object} {path : String} (hr : (Json.object r).HasDistinctNames)
    (h : Filter.isIdentifier path = true ∧ (Path.resolve path (.object r)).isNull = false ∧
      (Path.resolve path
        (.object ((⟨some (.list [path]), none⟩ : Projection).apply r))).isNull = true ∧
      (Path.resolve path
        (.object ((⟨none, some (.list [path])⟩ : Projection).apply r))).isNull = false) :
    IsMisread r path := by
  obtain ⟨hp, hpath, hkept, hleft⟩ := h
  refine ⟨isChanged_of_isNull hr hp (by rw [hpath, hkept]; simp), fun he => ?_⟩
  rw [he] at hleft
  cases hleft

/-- Paths that a projection reads in another way than they lead: one of three names, one with a point
that is a key itself, one with a point that starts as a schema URN does, one of two names behind a schema,
one behind a schema that another one, which encloses it, comes before, a qualified one that is a key itself,
and one qualified by a core schema.  The last one leads nowhere, behind a core schema that is a key; but it
is a key too, and without the other key what is kept leads on from the resource itself. -/
theorem resolve_misread :
    IsMisread [("a", .object [("b", .object [("c", .integer 1)])])] "a.b.c" ∧
    IsMisread [("a.b", .integer 1), ("a", .object [("b", .integer 2)])] "a.b" ∧
    IsMisread [("urn:x", .object [("y", .integer 1)])] "urn:x.y" ∧
    IsMisread [("urn:x:y", .object [("a", .object [("b", .integer 1)])])] "urn:x:y:a.b" ∧
    IsMisread [("urn:x", .object []), ("urn:x:y", .object [("a", .integer 2)])] "urn:x:y:a" ∧
    IsMisread [("urn:x:y:a", .integer 1), ("urn:x:y", .object [("a", .integer 2)])] "urn:x:y:a" ∧
    IsMisread [("userName", .text "bob")]
      "urn:ietf:params:scim:schemas:core:2.0:User:userName" ∧
    IsChanged [("id", .text "1"), ("urn:ietf:params:scim:schemas:core:2.0:User", .object []),
      ("urn:ietf:params:scim:schemas:core:2.0:User:id", .integer 1)]
      "urn:ietf:params:scim:schemas:core:2.0:User:id" := by
  have hone : ∀ key s, (Json.object [(key, .scalar s)]).HasDistinctNames :=
    fun key s => Json.hasDistinctNames_single (.scalar s)
  have hempty : (Json.object []).HasDistinctNames := .object .nil (by simp)
  refine ⟨?_, ?_, ?_, ?_, ?_, ?_, ?_, ?_⟩
  · exact isMisread_of_isNull (Json.hasDistinctNames_single (Json.hasDistinctNames_single (hone _ _)))
      (by decide +kernel)
  · exact isMisread_of_isNull (Json.hasDistinctNames_pair (by decide +kernel) (.scalar _) (hone _ _))
      (by decide +kernel)
  · exact isMisread_of_isNull (Json.hasDistinctNames_single (hone _ _)) (by decide +kernel)
  · exact isMisread_of_isNull (Json.hasDistinctNames_single (Json.hasDistinctNames_single (hone _ _)))
      (by decide +kernel)
  · exact isMisread_of_isNull (Json.hasDistinctNames_pair (by decide +kernel) hempty (hone _ _))
      (by decide +kernel)
  · exact isMisread_of_isNull (Json.hasDistinctNames_pair (by decide +kernel) (.scalar _) (hone _ _))
      (by decide +kernel)
  · exact isMisread_of_isNull (hone _ _) (by decide +kernel)
  · refine isChanged_of_isNull (.object (by decide +kernel) ?_) (by decide +kernel) (by decide +kernel)
    simp only [List.forall_mem_cons]
    exact ⟨.scalar _, hempty, .scalar _, by simp⟩

end Projection
end ScimQuery
