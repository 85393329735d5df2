import ScimQuery.Proofs.PatchPath.Texts

/-! # Paths behind a schema URN

What becomes of a path without a schema when a schema URN and a colon are put in front of it.  A path of
names is qualified by the schema (`Writes.qualified`).  With a bracket in it, or with blanks between the
colon and the names, no schema is looked for or found: what stands before the bracket, or before the
first dot, is taken for the attribute (`isAround_behind`, `writes_behind_blanks`), and refused if the
schema has a dot (`parse_behind_of_point`).  `parse_qualified` puts these together. -/

namespace ScimQuery

namespace Urn

theorem isBlank_of_isLetterOrDigit {c : Char} (h : isLetterOrDigit c = true) :
    Text.isBlank c = false := by
  simp only [isLetterOrDigit, Bool.or_eq_true, beq_iff_eq] at h
  rcases h with (((h | rfl) | rfl) | rfl) | rfl
  · have hc := Text.isAlphanum_iff.mp h
    exact Lexeme.isBlank_eq_false (by omega)
  all_goals decide

theorem isBlank_of_inSchema {c : Char} (h : inSchema c = true) : Text.isBlank c = false := by
  simp only [inSchema, Bool.or_eq_true, beq_iff_eq] at h
  rcases h with (((h | rfl) | rfl) | rfl) | rfl
  · exact isBlank_of_isLetterOrDigit h
  all_goals decide

theorem isBlank_of_inSuffix {c : Char} (h : inSuffix c = true) : Text.isBlank c = false := by
  simp only [inSuffix, Bool.or_eq_true, beq_iff_eq] at h
  rcases h with (((h | rfl) | rfl) | rfl) | rfl
  · exact isBlank_of_isLetterOrDigit h
  all_goals decide

theorem isTight_of_isSchema {s : List Char} (h : isSchema s = true) : Text.IsTight s := by
  refine Text.isTight_of_forall ?_ fun c hc => isBlank_of_inSchema (inSchema_of_isSchema h c hc)
  rintro rfl
  cases h

/-- With a blank behind the last colon, a text is no qualified path. -/
theorem split?_eq_none {schema suffix : List Char} {text : String}
    (htext : text.toList = schema ++ ':' :: suffix) (htight : Text.IsTight text.toList)
    (hcolon : ':' ∉ suffix) {c : Char} (hc : c ∈ suffix) (hblank : Text.isBlank c = true) :
    split? text = none := by
  rw [split?, Option.map_eq_none_iff, Option.eq_none_iff_forall_not_mem]
  rintro ⟨schema', suffix'⟩ hsplit
  obtain ⟨hcut, -, hsuffix⟩ := splitChars?_eq_some_iff.mp hsplit
  rw [dropLineFeed_of_isTight htight] at hcut
  have hlast := Text.cutLast_eq_some_iff.mpr ⟨hcut, colon_not_mem_of_isSuffix hsuffix⟩
  rw [Text.cutLast_eq_some_iff.mpr ⟨htext, hcolon⟩] at hlast
  obtain ⟨-, rfl⟩ := Prod.mk.inj (Option.some.inj hlast)
  rw [isBlank_of_inSuffix (inSuffix_of_isSuffix hsuffix c hc)] at hblank
  cases hblank

end Urn

namespace PatchPath

/-- For a text with a bracket no schema is looked for. -/
theorem schema_eq_none_of_mem {text : String} (h : '[' ∈ text.toList) {p : PatchPath}
    (hp : parseTrimmed text = .ok p) : p.schema = none := by
  rcases parseTrimmed_of_mem h with ⟨name, inside, sub, haround⟩ | hrefused | hrefused
  · rw [haround.parseTrimmed_eq] at hp
    cases hf : Filter.parse inside with
    | ok f =>
        rw [hf] at hp
        rw [← Except.ok.inj hp]
    | error refusal =>
        rw [hf] at hp
        cases hp
  · rw [hrefused] at hp
    cases hp
  · rw [hrefused] at hp
    cases hp

/-- A text that does not consist of blanks, behind a schema and a colon: of the blanks around it those
in front stay. -/
theorem exists_blanks {schema text : String} (hschema : Urn.isSchema schema.toList = true)
    (h : Text.allBlank text = false) :
    ∃ blanks trailing, Text.AreBlanks blanks.toList ∧ Text.AreBlanks trailing.toList ∧
      text = blanks ++ Text.trim text ++ trailing ∧
      Text.IsTight (schema ++ ":" ++ blanks ++ Text.trim text).toList ∧
      Text.trim (schema ++ ":" ++ text) = schema ++ ":" ++ blanks ++ Text.trim text := by
  obtain ⟨b, b', hb, hb', htight, hsplit⟩ := Text.exists_trim h
  have hwhole := (Urn.isTight_of_isSchema hschema).append (':' :: b) htight
  refine ⟨String.ofList b, String.ofList b', by simpa using hb, by simpa using hb', ?_, ?_, ?_⟩
  · rw [← String.toList_inj, hsplit]
    simp
  · simpa using hwhole
  · have htrim := Text.trimChars_padded Text.areBlanks_nil hwhole hb'
    have htext : (schema ++ ":" ++ text).toList =
        [] ++ ((schema.toList ++ (':' :: b ++ (Text.trim text).toList)) ++ b') := by
      simp [hsplit]
    rw [← String.toList_inj, Text.trim, String.toList_ofList, htext, htrim]
    simp

section
variable {schema blanks : String} (hschema : Urn.isSchema schema.toList = true)
  (hblanks : Text.AreBlanks blanks.toList)
include hschema hblanks

/-- No bracket stands in a schema, a colon and blanks. -/
theorem bracket_not_mem_front {s : List Char} (h : '[' ∉ s) :
    '[' ∉ schema.toList ++ ':' :: (blanks.toList ++ s) := by
  rw [List.mem_append, List.mem_cons, List.mem_append]
  rintro (hm | hm | hm | hm)
  · exact absurd (Urn.inSchema_of_isSchema hschema _ hm) (by decide)
  · exact absurd hm (by decide)
  · exact hblanks.not_mem (by decide) hm
  · exact h hm

omit hschema in
/-- A name behind a schema without a dot is taken for a name, with the schema. -/
theorem isSegment_behind (hpoint : '.' ∉ schema.toList) {name : String} (h : IsSegment name) :
    IsSegment (schema ++ ":" ++ blanks ++ name) := by
  have hb : '.' ∉ blanks.toList := hblanks.not_mem (by decide)
  exact ⟨by simp, by simp [hpoint, hb, h.2]⟩

/-- A path around a bracket is one with a schema before its name too, if the schema has no dot. -/
theorem isAround_behind (hpoint : '.' ∉ schema.toList) {text name inside : String}
    {sub : Option String} (h : IsAround text name inside sub) :
    IsAround (schema ++ ":" ++ blanks ++ text) (schema ++ ":" ++ blanks ++ name) inside sub := by
  refine ⟨?_, isSegment_behind hblanks hpoint h.isSegment_name, ?_, h.isEnclosed, h.isSegment_sub⟩
  · rw [h.text_eq]
    simp only [String.append_assoc]
  · simpa using bracket_not_mem_front hschema hblanks h.isFirst

/-- With a dot in the schema it is refused. -/
theorem parse_behind_of_point (hpoint : '.' ∈ schema.toList) {text name inside : String}
    {sub : Option String} (h : IsAround text name inside sub) :
    parseTrimmed (schema ++ ":" ++ blanks ++ text) =
      .error (.malformed (schema ++ ":" ++ blanks ++ text)) := by
  have htext : (schema ++ ":" ++ blanks ++ text).toList =
      (schema.toList ++ ':' :: (blanks.toList ++ name.toList)) ++
        '[' :: (inside.toList ++ ']' :: subChars (sub.map String.toList)) := by
    simp [h.toList_eq]
  have hname : isName (schema.toList ++ ':' :: (blanks.toList ++ name.toList)) = false := by
    simp [isName, hpoint]
  rw [parseTrimmed_enclosed htext (bracket_not_mem_front hschema hblanks h.isFirst) h.isEnclosed,
    hname]

variable {name : String} {sub : Option String}
  (hsuffix : Urn.isSuffix (name ++ subText sub).toList = true)
include hsuffix

omit hschema in
/-- Names behind blanks are not taken for a path within the schema. -/
theorem split?_behind_blanks (hne : blanks ≠ "")
    (htight : Text.IsTight (schema ++ ":" ++ blanks ++ (name ++ subText sub)).toList) :
    Urn.split? (schema ++ ":" ++ blanks ++ (name ++ subText sub)) = none := by
  obtain ⟨c, hc⟩ : ∃ c, c ∈ blanks.toList := List.exists_mem_of_ne_nil _ (by simpa using hne)
  have htext : (schema ++ ":" ++ blanks ++ (name ++ subText sub)).toList =
      schema.toList ++ ':' :: (blanks.toList ++ (name ++ subText sub).toList) := by simp
  refine Urn.split?_eq_none htext htight ?_ (List.mem_append_left _ hc) (hblanks c hc)
  rw [List.mem_append, not_or]
  exact ⟨hblanks.not_mem (by decide), Urn.colon_not_mem_of_isSuffix hsuffix⟩

omit hschema in
theorem schema_eq_none_behind_blanks (hne : blanks ≠ "")
    (htight : Text.IsTight (schema ++ ":" ++ blanks ++ (name ++ subText sub)).toList)
    {p : PatchPath}
    (h : parseTrimmed (schema ++ ":" ++ blanks ++ (name ++ subText sub)) = .ok p) :
    p.schema = none := by
  have hwrites := (parseTrimmed_eq_ok_iff htight).mp h
  exact hwrites.schema_eq_none (split?_behind_blanks hblanks hsuffix hne htight)

/-- They are taken for names with the schema, if it has no dot. -/
theorem writes_behind_blanks (hne : blanks ≠ "") (hpoint : '.' ∉ schema.toList)
    (htight : Text.IsTight (schema ++ ":" ++ blanks ++ (name ++ subText sub)).toList)
    (hname : IsSegment name) (hsub : ∀ s ∈ sub, IsSegment s) :
    Writes (schema ++ ":" ++ blanks ++ (name ++ subText sub))
      ⟨schema ++ ":" ++ blanks ++ name, none, sub, none⟩ := by
  have hbracket : '[' ∉ (name ++ subText sub).toList := fun hm =>
    absurd (Urn.inSuffix_of_isSuffix hsuffix _ hm) (by decide)
  have hsplit := split?_behind_blanks hblanks hsuffix hne htight
  rw [← String.append_assoc] at hsplit ⊢
  refine .plain ?_ hsplit (isSegment_behind hblanks hpoint hname) hsub
  simpa using bracket_not_mem_front hschema hblanks hbracket

end

/-- The names of a path make up a path within a schema, if they consist of the characters of one. -/
theorem isSuffix_joined {name : String} {sub : Option String} (hsegment : IsSegment name)
    (hname : ∀ c ∈ name.toList, Urn.inSuffix c = true)
    (hsub : ∀ s ∈ sub, ∀ c ∈ s.toList, Urn.inSuffix c = true) :
    Urn.isSuffix (name ++ subText sub).toList = true := by
  have hne : (name ++ subText sub).toList ≠ [] := by simp [hsegment.1]
  rw [Urn.isSuffix, Bool.and_eq_true, List.all_eq_true]
  refine ⟨by simpa using hne, ?_⟩
  intro c hc
  rw [String.toList_append, List.mem_append] at hc
  rcases hc with hc | hc
  · exact hname c hc
  · cases sub with
    | none => cases hc
    | some s =>
        rw [subText, String.toList_append, List.mem_append] at hc
        rcases hc with hc | hc
        · obtain rfl : c = '.' := by simpa using hc
          decide
        · exact hsub s rfl c hc

/-- A path without a schema, of names that may stand within a schema, behind a schema URN and a colon.
It is the same path with that schema exactly if it has no filter and no blanks are in front of it.  Else
no schema is found: the schema, the colon and the blanks become a part of the attribute if the schema has
no dot, and a path with a filter is refused if it has. -/
theorem parse_qualified {schema text : String} {p : PatchPath}
    (hschema : Urn.isSchema schema.toList = true) (h : parse text = .ok p) (hnone : p.schema = none)
    (hname : ∀ c ∈ p.name.toList, Urn.inSuffix c = true)
    (hsub : ∀ s ∈ p.subName, ∀ c ∈ s.toList, Urn.inSuffix c = true) :
    ∃ blanks trailing, Text.AreBlanks blanks.toList ∧ Text.AreBlanks trailing.toList ∧
      text = blanks ++ Text.trim text ++ trailing ∧
      (parse (schema ++ ":" ++ text) = .ok { p with schema := some schema } ↔
        p.filter = none ∧ blanks = "") ∧
      (p.filter ≠ none ∨ blanks ≠ "" →
        (∀ q, parse (schema ++ ":" ++ text) = .ok q → q.schema = none) ∧
        ('.' ∉ schema.toList → parse (schema ++ ":" ++ text) =
          .ok { p with name := schema ++ ":" ++ blanks ++ p.name }) ∧
        ('.' ∈ schema.toList → p.filter ≠ none → parse (schema ++ ":" ++ text) =
          .error (.malformed (schema ++ ":" ++ blanks ++ Text.trim text)))) := by
  have hwrites := parse_eq_ok_iff.mp h
  have hall : Text.allBlank text = false := by
    rw [← Bool.not_eq_true]
    exact mt Text.allBlank_iff.mp hwrites.ne_empty
  obtain ⟨blanks, trailing, hblanks, htrailing, htext, htight, htrim⟩ := exists_blanks hschema hall
  refine ⟨blanks, trailing, hblanks, htrailing, htext, ?_⟩
  have hparse : parse (schema ++ ":" ++ text) =
      parseTrimmed (schema ++ ":" ++ blanks ++ Text.trim text) := by
    rw [(parse_eq (by rw [htrim]; simp)).2, htrim]
  rw [hparse]
  generalize Text.trim text = s at hwrites htight
  cases hwrites with
  | @filtered _ name inside sub f haround hf =>
      -- The first bracket is where it was, and all before it is the name.
      have hplain (hpoint : '.' ∉ schema.toList) :
          parseTrimmed (schema ++ ":" ++ blanks ++ s) =
            .ok ⟨schema ++ ":" ++ blanks ++ name, some f, sub, none⟩ :=
        (Writes.filtered (isAround_behind hschema hblanks hpoint haround) hf).parseTrimmed_eq
      have hbracket : '[' ∈ (schema ++ ":" ++ blanks ++ s).toList := by simp [haround.toList_eq]
      have hno : ∀ q, parseTrimmed (schema ++ ":" ++ blanks ++ s) = .ok q → q.schema = none :=
        fun q hq => schema_eq_none_of_mem hbracket hq
      refine ⟨⟨fun hq => ?_, fun hq => ?_⟩, fun _ => ⟨hno, hplain, fun hpoint _ =>
        parse_behind_of_point hschema hblanks hpoint haround⟩⟩
      · cases hno _ hq
      · cases hq.1
  | qualified _ _ _ _ => cases hnone
  | @plain name sub _ _ hsegment hsegments =>
      -- The last colon is the one before the blanks, so they decide whether the text is qualified.
      have hsuffix := isSuffix_joined hsegment hname hsub
      have hno (hne : blanks ≠ "") : ∀ q,
          parseTrimmed (schema ++ ":" ++ blanks ++ (name ++ subText sub)) = .ok q →
            q.schema = none :=
        fun q hq => schema_eq_none_behind_blanks hblanks hsuffix hne htight hq
      refine ⟨⟨fun hq => ?_, ?_⟩, ?_⟩
      · refine ⟨rfl, ?_⟩
        by_contra hne
        cases hno hne _ hq
      · rintro ⟨-, rfl⟩
        have hqualified := (Writes.qualified hschema hsuffix hsegment hsegments).parseTrimmed_eq
        rw [String.append_empty, ← String.append_assoc]
        exact hqualified
      · rintro (hfilter | hne)
        · exact absurd rfl hfilter
        · exact ⟨hno hne, fun hpoint => (writes_behind_blanks hschema hblanks hsuffix hne hpoint
            htight hsegment hsegments).parseTrimmed_eq, fun _ hfilter => absurd rfl hfilter⟩

/-- Two names behind a schema with dots are the names of a path with that schema. -/
theorem parse_qualified_names :
    Urn.isSchema "urn:a.b:2.0:User".toList = true ∧
      parse "name.givenName " = .ok ⟨"name", none, some "givenName", none⟩ ∧
      (∀ c ∈ "name".toList, Urn.inSuffix c = true) ∧
      (∀ c ∈ "givenName".toList, Urn.inSuffix c = true) ∧
      parse ("urn:a.b:2.0:User" ++ ":" ++ "name.givenName ") =
        .ok ⟨"name", none, some "givenName", some "urn:a.b:2.0:User"⟩ := by
  have hschema : Urn.isSchema "urn:a.b:2.0:User".toList = true := by decide
  have h : parse "name.givenName " = .ok ⟨"name", none, some "givenName", none⟩ := by decide +kernel
  have hname : ∀ c ∈ "name".toList, Urn.inSuffix c = true := List.all_eq_true.mp (by decide)
  have hsub : ∀ c ∈ "givenName".toList, Urn.inSuffix c = true := List.all_eq_true.mp (by decide)
  refine ⟨hschema, h, hname, hsub, ?_⟩
  obtain ⟨blanks, trailing, hblanks, -, htext, hiff, -⟩ :=
    parse_qualified hschema h rfl hname (by rintro s ⟨⟩; exact hsub)
  refine hiff.mpr ⟨rfl, ?_⟩
  -- The text starts with a letter.
  by_contra hne
  rw [← String.toList_inj] at hne htext
  obtain ⟨c, rest, hcons⟩ := List.exists_cons_of_ne_nil hne
  simp only [String.toList_append, hcons, List.cons_append] at htext
  obtain rfl : 'n' = c := (List.cons.inj htext).1
  exact absurd (hcons ▸ List.mem_cons_self) (hblanks.not_mem (by decide))

/-- A filter behind a schema without dots: the schema is read as a part of the attribute.  Behind a
schema with dots: the path is refused. -/
theorem parse_qualified_loses_schema :
    Urn.isSchema "urn:x".toList = true ∧
      parse "emails[type pr]" =
        .ok ⟨"emails", some (.compare "type" .present .null), none, none⟩ ∧
      parse ("urn:x" ++ ":" ++ "emails[type pr]") =
        .ok ⟨"urn:x:emails", some (.compare "type" .present .null), none, none⟩ ∧
      Urn.isSchema "urn:x:2.0:User".toList = true ∧
      parse ("urn:x:2.0:User" ++ ":" ++ "emails[type pr]") =
        .error (.malformed "urn:x:2.0:User:emails[type pr]") := by
  decide +kernel

end PatchPath
end ScimQuery
