import ScimQuery.Proofs.PatchPath.Texts

/-! # Exactness of paths

A path that is parsed consists of the parts of its text (`Writes.recomposes`).  The other way round, the
text of a filter without closing brackets of its own can stand in a bracket, because the lexemes of a
filter and the search for the bracket agree on quoted texts (`isEnclosed_of_parse`); so an attribute,
such a filter and a sub-attribute are put together to the text of a path (`parse_bracketed`).  Any text
that is no path is refused for what it is, or for the filter in its bracket (`parse_eq_error`). -/

namespace ScimQuery
namespace PatchPath

/-! ### Filters in a bracket -/

/-- The search reads past lexemes that are no closing brackets. -/
theorem skips_of_decomposes {s : List Char} {ps : List Token.Piece} (h : Token.Decomposes s ps)
    (hps : ∀ p ∈ ps, p.kind ≠ .closeBracket) : Skips false s false := by
  induction h with
  | blanks hb => exact skips_blanks hb
  | piece hb hl _ ih =>
      have hpiece := skips_of_stands hl (hps _ List.mem_cons_self)
      have hrest := ih fun q hq => hps q (List.mem_cons_of_mem _ hq)
      exact (skips_blanks hb).append (hpiece.append hrest)

/-- The text of a filter that asks for no items may stand in a bracket, however long its integers are. -/
theorem isEnclosed_of_derives {s : List Char} {ps : List Token.Piece} {f : Filter}
    (hps : Token.Decomposes s ps)
    (hd : Filter.Derives Token.Denotes .filter (Token.ofPieces 0 ps) f)
    (hitems : f.hasItems = false) : IsEnclosed s := by
  rw [hd.hasItems_eq, Token.any_kind_ofPieces, List.any_eq_false] at hitems
  have hclosing : closing? false (s ++ [']']) = some (s, []) := by
    rw [skips_of_decomposes hps (by simpa using hitems)]
    simp [closing?_cons]
  exact (closing?_eq_some_iff.mp hclosing).2

theorem isEnclosed_of_parse {inside : String} {f : Filter} (h : Filter.parse inside = .ok f)
    (hitems : f.hasItems = false) : IsEnclosed inside.toList := by
  obtain ⟨ps, hps, hd⟩ := Filter.parse_eq_ok_iff.mp h
  exact isEnclosed_of_derives hps (Filter.derives_isReadAs_iff.mp hd).1 hitems

theorem isEnclosed_render {f : Filter} (h : f.isRenderable = true) (hitems : f.hasItems = false) :
    IsEnclosed f.render.toList := by
  have hwrites : Filter.Writes Token.Denotes f.phrase f.written f := by
    refine Filter.writes_written h fun v _ hdouble position => ?_
    obtain ⟨t, hscan, hd, -⟩ := Scalar.scans_written hdouble position
    exact ⟨t, hscan, hd⟩
  obtain ⟨ts, hscan, hd⟩ := hwrites.widen f.phrase.rank_le_filter 0
  obtain ⟨ps, hps, rfl⟩ := hscan.decomposes
  rw [Filter.render, String.toList_ofList]
  exact isEnclosed_of_derives hps hd hitems

/-- A text around a bracket has no blanks at its ends, if its attribute does not start with one and its
sub-attribute does not end with one. -/
theorem IsAround.isTight {text name inside : String} {sub : Option String}
    (h : IsAround text name inside sub)
    (hhead : ∀ c, name.toList.head? = some c → Text.isBlank c = false)
    (hlast : ∀ s ∈ sub, ∀ c, s.toList.getLast? = some c → Text.isBlank c = false) :
    Text.IsTight text.toList := by
  have hne : name.toList ≠ [] := by simpa using h.isSegment_name.1
  -- The text starts with the attribute, and ends with the bracket or the sub-attribute.
  have hclose : ∃ d, (']' :: subChars (sub.map String.toList)).getLast? = some d ∧
      Text.isBlank d = false := by
    cases sub with
    | none => exact ⟨']', rfl, by decide⟩
    | some s =>
        have hne : s.toList ≠ [] := by simpa using (h.isSegment_sub s rfl).1
        have hs := List.getLast?_eq_some_getLast hne
        refine ⟨s.toList.getLast hne, ?_, hlast s rfl _ hs⟩
        simp [subChars, List.getLast?_cons, hs]
  obtain ⟨d, hd, hblank⟩ := hclose
  refine ⟨name.toList.head hne, d, ?_, ?_, hhead _ (List.head?_eq_some_head hne), hblank⟩
  · simp [h.text_eq, List.head?_append, List.head?_eq_some_head hne]
  · have htext : text.toList =
        (name.toList ++ '[' :: inside.toList) ++ ']' :: subChars (sub.map String.toList) := by
      simp [h.text_eq, toList_subText]
    rw [htext, List.getLast?_append, hd, Option.some_or]

/-- A text that is put together from an attribute, a filter that asks for no items, in a bracket, and a
sub-attribute is the path of these parts, unless blanks at its ends are left out. -/
theorem parse_bracketed {name inside : String} {sub : Option String} {f : Filter}
    (hname : IsSegment name) (hfirst : '[' ∉ name.toList)
    (hhead : ∀ c, name.toList.head? = some c → Text.isBlank c = false)
    (hf : Filter.parse inside = .ok f) (hitems : f.hasItems = false)
    (hsub : ∀ s ∈ sub, IsSegment s ∧ ∀ c, s.toList.getLast? = some c → Text.isBlank c = false) :
    parse (name ++ "[" ++ inside ++ "]" ++ subText sub) = .ok ⟨name, some f, sub, none⟩ := by
  have haround : IsAround (name ++ "[" ++ inside ++ "]" ++ subText sub) name inside sub :=
    ⟨rfl, hname, hfirst, isEnclosed_of_parse hf hitems, fun s hs => (hsub s hs).1⟩
  rw [parse_eq_ok_iff, Text.trim_of_isTight (haround.isTight hhead fun s hs => (hsub s hs).2)]
  exact .filtered haround hf

/-! ### Texts that are no paths -/

theorem parsePlain_eq_error {text : String} {fault : Fault} (h : parsePlain text = .error fault) :
    fault = .malformed text := by
  unfold parsePlain at h
  split at h
  split at h
  · cases h
  · exact (Except.error.inj h).symm

/-- A text that is refused is blank, or its bracket is not closed, or its names are not where they
should be, or it is a path around a filter that is refused. -/
theorem parse_eq_error {text : String} {fault : Fault} (h : parse text = .error fault) :
    fault = .blank ∨ fault = .unclosed (Text.trim text) ∨ fault = .malformed (Text.trim text) ∨
      ∃ name inside sub refusal, fault = .filter refusal ∧
        IsAround (Text.trim text) name inside sub ∧ Filter.parse inside = .error refusal := by
  by_cases hempty : Text.trim text = ""
  · rw [parse, if_pos (Text.allBlank_iff.mpr hempty)] at h
    exact .inl (Except.error.inj h).symm
  rw [(parse_eq hempty).2] at h
  by_cases hbracket : '[' ∈ (Text.trim text).toList
  · rcases parseTrimmed_of_mem hbracket with ⟨name, inside, sub, haround⟩ | hrefused | hrefused
    · rw [haround.parseTrimmed_eq] at h
      cases hf : Filter.parse inside with
      | ok f =>
          rw [hf] at h
          cases h
      | error refusal =>
          rw [hf] at h
          exact .inr (.inr (.inr
            ⟨name, inside, sub, refusal, (Except.error.inj h).symm, haround, hf⟩))
    · rw [hrefused] at h
      exact .inr (.inl (Except.error.inj h).symm)
    · rw [hrefused] at h
      exact .inr (.inr (.inl (Except.error.inj h).symm))
  · rw [parseTrimmed, Text.cutFirst_eq_none_iff.mpr hbracket] at h
    exact .inr (.inr (.inl (parsePlain_eq_error h)))

/-- A path around a filter that is refused is refused as the filter is. -/
theorem parse_eq_filter_error {text name inside : String} {sub : Option String}
    {refusal : Filter.Refusal} (haround : IsAround (Text.trim text) name inside sub)
    (h : Filter.parse inside = .error refusal) : parse text = .error (.filter refusal) := by
  rw [(parse_eq haround.ne_empty).2, haround.parseTrimmed_eq, h]

/-! ### Exactness -/

/-- `Recomposes p text`: the parts of the path `p` make up the text.  Its schema stands before a colon,
its filter is that of a text in brackets, its sub-attribute stands behind a dot, and it does not have
both a schema and a filter. -/
def Recomposes (p : PatchPath) (text : String) : Prop :=
  match p.filter, p.schema with
  | none, none => text = p.name ++ subText p.subName
  | none, some schema => text = schema ++ ":" ++ p.name ++ subText p.subName
  | some f, none =>
    ∃ inside, Filter.parse inside = .ok f ∧
      text = p.name ++ "[" ++ inside ++ "]" ++ subText p.subName
  | some _, some _ => False

theorem Writes.recomposes {text : String} {p : PatchPath} (h : Writes text p) :
    p.Recomposes text ∧ IsSegment p.name ∧ ∀ s ∈ p.subName, IsSegment s := by
  cases h with
  | filtered haround hf =>
      exact ⟨⟨_, hf, haround.text_eq⟩, haround.isSegment_name, haround.isSegment_sub⟩
  | qualified _ _ hname hsub => exact ⟨rfl, hname, hsub⟩
  | plain _ _ hname hsub => exact ⟨rfl, hname, hsub⟩

/-- Paths are parsed exactly.  The parts of a path that is read make up its text, blanks around it left
out, and its names are names.  Each attribute, filter that asks for no items and sub-attribute can be
put together to a path, which is read as these parts.  And a text is refused for what it is itself,
unless it is a path around the text of a filter that is refused, and then it is refused as that is: for
its syntax, or for an integer of too many digits. -/
theorem parse_exact (text : String) :
    (∀ p, parse text = .ok p →
      p.Recomposes (Text.trim text) ∧ IsSegment p.name ∧ ∀ s ∈ p.subName, IsSegment s) ∧
    (∀ name inside sub f, text = name ++ "[" ++ inside ++ "]" ++ subText sub → IsSegment name →
      '[' ∉ name.toList → (∀ c, name.toList.head? = some c → Text.isBlank c = false) →
      Filter.parse inside = .ok f → f.hasItems = false →
      (∀ s ∈ sub, IsSegment s ∧ ∀ c, s.toList.getLast? = some c → Text.isBlank c = false) →
      parse text = .ok ⟨name, some f, sub, none⟩) ∧
    (∀ fault, parse text = .error fault →
      fault = .blank ∨ fault = .unclosed (Text.trim text) ∨ fault = .malformed (Text.trim text) ∨
        ∃ name inside sub refusal, fault = .filter refusal ∧
          IsAround (Text.trim text) name inside sub ∧ Filter.parse inside = .error refusal ∧
          (refusal.fault.isSyntax = true ∨
            ∃ t, t.IsOverlong ∧ refusal.fault = .tooManyDigits t.digitCount t)) ∧
    (∀ name inside sub refusal, IsAround (Text.trim text) name inside sub →
      Filter.parse inside = .error refusal → parse text = .error (.filter refusal)) := by
  refine ⟨fun p h => (parse_eq_ok_iff.mp h).recomposes, ?_, ?_, ?_⟩
  · rintro name inside sub f rfl hname hfirst hhead hf hitems hsub
    exact parse_bracketed hname hfirst hhead hf hitems hsub
  · intro fault h
    rcases parse_eq_error h with hblank | hunclosed | hmalformed | hfilter
    · exact .inl hblank
    · exact .inr (.inl hunclosed)
    · exact .inr (.inr (.inl hmalformed))
    · obtain ⟨name, inside, sub, refusal, rfl, haround, hrefused⟩ := hfilter
      exact .inr (.inr (.inr ⟨name, inside, sub, refusal, rfl, haround, hrefused,
        Filter.isSyntax_or_isOverlong hrefused⟩))
  · intro name inside sub refusal haround h
    exact parse_eq_filter_error haround h

/-- An attribute, a filter with a closing bracket in a quoted text, and a sub-attribute are put together,
and read again; a filter without its value is refused as it is on its own. -/
theorem parse_exact_quoted_bracket :
    Recomposes ⟨"emails", some (.compare "type" .equal (.text "a]")), some "value", none⟩
        (Text.trim " emails[type eq \"a]\"].value\n") ∧
      parse ("emails" ++ "[" ++ "type eq \"a]\"" ++ "]" ++ subText (some "value")) =
        .ok ⟨"emails", some (.compare "type" .equal (.text "a]")), some "value", none⟩ ∧
      parse "emails[type eq]" = .error (.filter ⟨"type eq", .expectedValue ⟨.stop, "", 7⟩⟩) := by
  have hsegment (s : String) (h : isName s.toList = true) : IsSegment s := isSegment_iff.mpr h
  refine ⟨?_, ?_, ?_⟩
  · exact ((parse_exact _).1 _ (by decide +kernel)).1
  · have hhead : ∀ c, some 'e' = some c → Text.isBlank c = false := by
      rintro c ⟨⟩
      decide
    refine (parse_exact _).2.1 "emails" "type eq \"a]\"" (some "value") _ rfl (hsegment _ (by decide))
      (by decide) hhead (by decide +kernel) rfl ?_
    rintro s ⟨⟩
    exact ⟨hsegment _ (by decide), hhead⟩
  · have hinside : closing? false ("type eq" ++ "]").toList = some ("type eq".toList, []) := by
      decide +kernel
    refine (parse_exact _).2.2.2 "emails" "type eq" none _ ?_ (by decide +kernel)
    exact ⟨by decide +kernel, hsegment _ (by decide), by decide,
      (closing?_eq_some_iff.mp hinside).2, by simp⟩

/-- A path around a comparison with the first integer of too many digits is refused, and neither as a
path nor for the syntax of its filter. -/
theorem parse_around_overlongFilter :
    IsAround ("a" ++ "[" ++ Filter.overlongFilter.render ++ "]") "a" Filter.overlongFilter.render
        none ∧
      ∃ refusal, parse ("a" ++ "[" ++ Filter.overlongFilter.render ++ "]") = .error (.filter refusal) ∧
        refusal.fault.isSyntax = false := by
  have haround : IsAround ("a" ++ "[" ++ Filter.overlongFilter.render ++ "]") "a"
      Filter.overlongFilter.render none :=
    ⟨by simp [subText], isSegment_iff.mpr (by decide), by decide, isEnclosed_render rfl rfl, by simp⟩
  obtain ⟨t, -, hrefused⟩ := Filter.parse_render_of_isOverlong (f := Filter.overlongFilter) rfl
    ⟨_, List.mem_singleton_self _, Filter.isOverlong_firstOverlong⟩
  have htight : Text.IsTight ("a" ++ "[" ++ Filter.overlongFilter.render ++ "]").toList := by
    refine haround.isTight ?_ (by simp)
    rintro c ⟨⟩
    decide
  rw [← Text.trim_of_isTight htight] at haround
  exact ⟨Text.trim_of_isTight htight ▸ haround, _, parse_eq_filter_error haround hrefused, rfl⟩

end PatchPath
end ScimQuery
