import ScimQuery.Proofs.Attribute.LetterCase

/-! # Routes of attribute paths

The names that a path leads along in an object, one inside the other (`Path.route`): those of the
path itself, or the schema that it is qualified by and the names behind it; a core schema that names no
member is left out.  A path leads where its route does (`resolve_eq_follow`).  An ASCII path that is
qualified is a schema URN, a colon and a path within the schema (`Urn.eq_of_split?`). -/

namespace ScimQuery

namespace Text

/-- A lower-case form has an ASCII character that is no letter only where the text has it. -/
theorem mem_lower_mark_iff {d : Char} (hascii : d.toNat < 0x80)
    (hd : ¬ (65 ≤ d.toNat ∧ d.toNat ≤ 90) ∧ ¬ (97 ≤ d.toNat ∧ d.toNat ≤ 122)) {s : String} :
    d ∈ (lower s).toList ↔ d ∈ s.toList := by
  refine ⟨fun h => ?_, mem_lower (isPlain_of_ascii hascii hd.1)⟩
  rw [lower, String.toList_ofList] at h
  have hi : d ≠ 'i' := by
    rintro rfl
    exact absurd hd (by decide)
  have hk : d ≠ 'k' := by
    rintro rfl
    exact absurd hd (by decide)
  obtain ⟨c, hc, hlower⟩ := exists_of_mem_lowerAfter hascii hi hk [] h
  rwa [(toLower_eq_iff hd).mp hlower] at hc

theorem mem_lower_point_iff {s : String} : '.' ∈ (lower s).toList ↔ '.' ∈ s.toList :=
  mem_lower_mark_iff (by decide) (by decide)

/-- Lower-casing does not look across a border in an ASCII text. -/
theorem lower_append {s t : String} (h : IsAscii (s ++ t).toList) :
    lower (s ++ t) = lower s ++ lower t ∧ IsAscii s.toList ∧ IsAscii t.toList := by
  have hs : IsAscii s.toList := h.of_subset fun c hc => by simp [hc]
  have ht : IsAscii t.toList := h.of_subset fun c hc => by simp [hc]
  refine ⟨?_, hs, ht⟩
  rw [lower_of_isAscii h, lower_of_isAscii hs, lower_of_isAscii ht, String.toList_append,
    List.map_append, String.ofList_append]

/-- The lower-case form of an ASCII text of two texts with a point or a colon between them. -/
theorem lower_joined {s mark t : String} (h : IsAscii (s ++ mark ++ t).toList)
    (hmark : mark = "." ∨ mark = ":") :
    lower (s ++ mark ++ t) = lower s ++ mark ++ lower t ∧ IsAscii s.toList ∧ IsAscii t.toList := by
  obtain ⟨hlower, hfront, ht⟩ := lower_append h
  obtain ⟨hlower', hs, -⟩ := lower_append hfront
  have hself : lower mark = mark := by
    rcases hmark with rfl | rfl
    · decide
    · decide
  exact ⟨by rw [hlower, hlower', hself], hs, ht⟩

end Text

namespace Urn

theorem dropLineFeed_of_not_mem {s : List Char} (h : '\n' ∉ s) : dropLineFeed s = s := by
  rw [dropLineFeed, if_neg]
  exact fun hl => h (List.mem_of_getLast? hl)

/-- The lower-case form of the schema of a qualified path starts as every schema URN does. -/
theorem prefix_of_isSchema {s : List Char} (h : isSchema s = true) :
    ['u', 'r', 'n', ':'] <+: s.map Char.toLower := by
  unfold isSchema body? at h
  split at h
  · rename_i hbody
    split at hbody
    · rename_i u r n rest
      split at hbody
      · rename_i hlower
        obtain ⟨hu, hr, hn⟩ := hlower
        exact ⟨rest.map Char.toLower, by simp [hu, hr, hn]⟩
      · cases hbody
    · cases hbody
  · cases h

theorem inSuffix_of_isSuffix {s : List Char} (h : isSuffix s = true) :
    ∀ c ∈ s, inSuffix c = true := by
  rw [isSuffix, Bool.and_eq_true, List.all_eq_true] at h
  exact h.2

theorem colon_not_mem_of_isSuffix {s : List Char} (h : isSuffix s = true) : ':' ∉ s := by
  intro hc
  have hcolon : inSuffix ':' = false := by decide
  rw [inSuffix_of_isSuffix h _ hc] at hcolon
  cases hcolon

/-- A schema URN is made of characters that may follow its `urn:`. -/
theorem inSchema_of_isSchema {s : List Char} (h : isSchema s = true) :
    ∀ c ∈ s, inSchema c = true := by
  unfold isSchema body? at h
  split at h
  · rename_i hbody
    split at hbody
    · rename_i u r n rest
      split at hbody
      · rename_i hlower
        obtain ⟨hu, hr, hn⟩ := hlower
        obtain rfl := Option.some.inj hbody
        rw [Bool.and_eq_true, List.all_eq_true] at h
        intro c hc
        simp only [List.mem_cons] at hc
        rcases hc with rfl | rfl | rfl | rfl | hc
        · rw [← inSchema_toLower, hu]
          rfl
        · rw [← inSchema_toLower, hr]
          rfl
        · rw [← inSchema_toLower, hn]
          rfl
        · rfl
        · exact h.2 c hc
      · cases hbody
    · cases hbody
  · cases h

/-- A qualified path is, but for a line feed at its end, a schema URN, a colon and a path within the
schema. -/
theorem splitChars?_eq_some_iff {s schema suffix : List Char} :
    splitChars? s = some (schema, suffix) ↔
      dropLineFeed s = schema ++ ':' :: suffix ∧ isSchema schema = true ∧ isSuffix suffix = true := by
  rw [splitChars?, Option.filter_eq_some_iff, Text.cutLast_eq_some_iff, Bool.and_eq_true]
  constructor
  · rintro ⟨⟨hsplit, -⟩, hforms⟩
    exact ⟨hsplit, hforms⟩
  · rintro ⟨hsplit, hschema, hsuffix⟩
    exact ⟨⟨hsplit, colon_not_mem_of_isSuffix hsuffix⟩, hschema, hsuffix⟩

/-- A path that is qualified is its schema, a colon and what is behind it. -/
theorem eq_of_split? {path schema suffix : String} (h : split? path = some (schema, suffix))
    (hpath : '\n' ∉ path.toList) :
    path = schema ++ ":" ++ suffix ∧ isSchema schema.toList = true := by
  obtain ⟨⟨s, t⟩, hs, he⟩ := Option.map_eq_some_iff.mp h
  simp only [Prod.mk.injEq] at he
  obtain ⟨rfl, rfl⟩ := he
  obtain ⟨hsplit, hschema, -⟩ := splitChars?_eq_some_iff.mp hs
  rw [dropLineFeed_of_not_mem hpath] at hsplit
  refine ⟨?_, by rwa [String.toList_ofList]⟩
  rw [← String.toList_inj, hsplit]
  simp

end Urn

namespace Path

/-- The names that a path leads along in an object. -/
def route (path : String) (o : Object) : List String :=
  match Urn.split? path with
  | none => names path
  | some (schema, suffix) =>
    if (o.member? schema).isNone && Schema.isCore schema then names suffix
    else schema :: names suffix

theorem exists_names (path : String) : ∃ name rest, names path = name :: rest := by
  by_cases h : '.' ∈ path.toList
  · obtain ⟨top, rest, htop, rfl⟩ := exists_top h
    exact ⟨top, names rest, names_append htop rest⟩
  · exact ⟨path, [], names_of_not_mem h⟩

/-- A path with a point has a first name, which differs from it in more than case. -/
theorem exists_name_of_point {path : String} (h : '.' ∈ path.toList) :
    ∃ name rest, names path = name :: rest ∧ Text.lower name ≠ Text.lower path := by
  obtain ⟨top, rest, htop, rfl⟩ := exists_top h
  refine ⟨top, names rest, names_append htop rest, fun he => htop ?_⟩
  rwa [← Text.mem_lower_point_iff, ← he, Text.mem_lower_point_iff] at h

theorem follow_cons (name : String) (rest : List String) (o : Object) :
    follow (name :: rest) (.object o) =
      match o.member? name with
      | some (_, v) => follow rest v
      | none => .null := by
  rfl

theorem resolve_eq_follow (path : String) (o : Object) :
    resolve path (.object o) = follow (route path o) (.object o) := by
  unfold resolve route
  cases Urn.split? path with
  | none => rfl
  | some cut =>
      obtain ⟨schema, suffix⟩ := cut
      dsimp only
      unfold resolveQualified
      cases hm : o.member? schema with
      | some m =>
          rw [Option.isNone_some, Bool.false_and, if_neg Bool.false_ne_true, follow_cons, hm]
          rfl
      | none =>
          dsimp only
          rw [Option.isNone_none, Bool.true_and]
          by_cases hcore : Schema.isCore schema = true
          · rw [if_pos hcore, if_pos hcore, descend]
          · rw [if_neg hcore, if_neg hcore, follow_cons, hm]

/-- A path has the same route in two objects, unless its schema is a core schema that names a member of
only one of them. -/
theorem route_congr {path : String} {o p : Object}
    (h : ∀ schema suffix, Urn.split? path = some (schema, suffix) → Schema.isCore schema = true →
      (o.member? schema).isNone = (p.member? schema).isNone) : route path o = route path p := by
  unfold route
  cases hs : Urn.split? path with
  | none => rfl
  | some cut =>
      obtain ⟨schema, suffix⟩ := cut
      dsimp only
      cases hcore : Schema.isCore schema with
      | true => rw [h schema suffix hs hcore]
      | false => simp only [Bool.and_false]

end Path
end ScimQuery
