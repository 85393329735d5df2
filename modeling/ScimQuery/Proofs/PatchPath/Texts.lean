import ScimQuery.Proofs.Attribute.Routes
import ScimQuery.Proofs.PatchPath.Brackets

/-! # The texts of paths

Which texts are paths, and which paths they are.  The search for a closing bracket stops at the first
one that is not in a quoted text (`closing?_eq_some_iff`), and names are split at the only dot that may
stand between them (`splitNames?_eq_some_iff`).  So a text with a bracket is a path around what stands
in the bracket (`IsAround`), and is parsed as that is; any other is a schema URN, a colon and names, or
names alone.  These are the three ways to write a path (`Writes`), and exactly the texts that are parsed
(`parse_eq_ok_iff`). -/

namespace ScimQuery

namespace Urn

/-- A text that ends with no blank ends with no line feed. -/
theorem dropLineFeed_of_isTight {s : List Char} (h : Text.IsTight s) : dropLineFeed s = s := by
  obtain ⟨_, d, _, hd, _, hblank⟩ := h
  rw [dropLineFeed, hd, if_neg]
  intro he
  obtain rfl := Option.some.inj he
  cases hblank

/-- No character stands in a qualified path but those of a schema and of a path within one. -/
theorem not_mem_joined {c : Char} (hc : inSchema c = false ∧ inSuffix c = false)
    {schema suffix : List Char} (hschema : isSchema schema = true) (hsuffix : isSuffix suffix = true) :
    c ∉ schema ++ ':' :: suffix := by
  intro hm
  rw [List.mem_append, List.mem_cons] at hm
  rcases hm with hm | rfl | hm
  · rw [inSchema_of_isSchema hschema c hm] at hc
    cases hc.1
  · exact absurd hc.1 (by decide)
  · rw [inSuffix_of_isSuffix hsuffix c hm] at hc
    cases hc.2

/-- A schema, a colon and a path within the schema are a qualified path. -/
theorem splitChars?_joined {schema suffix : List Char} (hschema : isSchema schema = true)
    (hsuffix : isSuffix suffix = true) :
    splitChars? (schema ++ ':' :: suffix) = some (schema, suffix) := by
  have hline := not_mem_joined (c := '\n') (by decide) hschema hsuffix
  exact splitChars?_eq_some_iff.mpr ⟨dropLineFeed_of_not_mem hline, hschema, hsuffix⟩

end Urn

namespace PatchPath

/-! ### What stands in a bracket -/

/-- `IsEnclosed s`: the text `s` consists of characters that are neither quotes nor closing brackets,
and of quoted texts. -/
inductive IsEnclosed : List Char → Prop
  | nil : IsEnclosed []
  | plain {c : Char} {s : List Char} :
      c ≠ '"' → c ≠ ']' → IsEnclosed s → IsEnclosed (c :: s)
  | quoted {q t s : List Char} :
      Lexeme.Quotes q t → IsEnclosed s → IsEnclosed ('"' :: (q ++ '"' :: s))

theorem skips_of_isEnclosed {s : List Char} (h : IsEnclosed s) : Skips false s false := by
  induction h with
  | nil => exact .nil false
  | plain hquote hclose _ ih => exact (skips_plain hquote hclose).append ih
  | quoted hq _ ih =>
      have hopen := (skips_quote false).append (skips_quotes hq)
      have hquoted := (hopen.append (skips_quote true)).append ih
      simpa using hquoted

/-- `EndsQuoted s`: the text `s` ends a quoted text, and goes on as what stands in a bracket. -/
def EndsQuoted (s : List Char) : Prop :=
  ∃ q t rest, s = q ++ '"' :: rest ∧ Lexeme.Quotes q t ∧ IsEnclosed rest

theorem EndsQuoted.quote {s : List Char} (h : IsEnclosed s) : EndsQuoted ('"' :: s) :=
  ⟨[], [], s, rfl, .nil, h⟩

theorem EndsQuoted.ordinary {c : Char} {s : List Char} (hquote : c ≠ '"') (hslash : c ≠ '\\')
    (h : EndsQuoted s) : EndsQuoted (c :: s) := by
  obtain ⟨q, t, rest, rfl, hq, hrest⟩ := h
  exact ⟨c :: q, c :: t, rest, rfl, .ordinary hquote hslash hq, hrest⟩

theorem EndsQuoted.escaped (c : Char) {s : List Char} (h : EndsQuoted s) :
    EndsQuoted ('\\' :: c :: s) := by
  obtain ⟨q, t, rest, rfl, hq, hrest⟩ := h
  exact ⟨'\\' :: c :: q, c :: t, rest, rfl, .escaped c hq, hrest⟩

theorem EndsQuoted.isEnclosed {s : List Char} (h : EndsQuoted s) : IsEnclosed ('"' :: s) := by
  obtain ⟨q, t, rest, rfl, hq, hrest⟩ := h
  exact .quoted hq hrest

/-- What stands before the closing bracket that the search finds, by induction on the search. -/
theorem isEnclosed_of_closing? {quoted : Bool} {s inside after : List Char}
    (h : closing? quoted s = some (inside, after)) :
    s = inside ++ ']' :: after ∧ if quoted then EndsQuoted inside else IsEnclosed inside := by
  fun_induction closing? quoted s generalizing inside after with
  | case1 => cases h
  | case2 => cases h
  | case3 d rest ih =>
      obtain ⟨⟨inside, after⟩, hrest, he⟩ := Option.map_eq_some_iff.mp h
      obtain ⟨rfl, rfl⟩ := Prod.mk.inj he
      obtain ⟨rfl, hends⟩ := ih hrest
      exact ⟨rfl, hends.escaped d⟩
  | case4 d rest hslash ih =>
      obtain ⟨⟨inside, after⟩, hrest, he⟩ := Option.map_eq_some_iff.mp h
      obtain ⟨rfl, rfl⟩ := Prod.mk.inj he
      obtain ⟨rfl, hinside⟩ := ih hrest
      refine ⟨rfl, ?_⟩
      by_cases hquote : d = '"'
      · subst hquote
        exact .quote hinside
      · rw [if_pos (bne_iff_ne.mpr hquote)] at hinside
        exact hinside.ordinary hquote hslash
  | case5 quoted rest hquoted =>
      obtain ⟨rfl, rfl⟩ := Prod.mk.inj (Option.some.inj h)
      rw [if_neg hquoted]
      exact ⟨rfl, .nil⟩
  | case6 quoted d rest hquoted hclose ih =>
      obtain ⟨⟨inside, after⟩, hrest, he⟩ := Option.map_eq_some_iff.mp h
      obtain ⟨rfl, rfl⟩ := Prod.mk.inj he
      obtain ⟨rfl, hinside⟩ := ih hrest
      refine ⟨rfl, ?_⟩
      rw [if_neg hquoted]
      by_cases hquote : d = '"'
      · subst hquote
        exact hinside.isEnclosed
      · rw [if_neg (by simpa using hquote)] at hinside
        exact .plain hquote hclose hinside

/-- The search finds the first closing bracket that is not quoted. -/
theorem closing?_eq_some_iff {s inside after : List Char} :
    closing? false s = some (inside, after) ↔ s = inside ++ ']' :: after ∧ IsEnclosed inside := by
  constructor
  · intro h
    exact isEnclosed_of_closing? h
  · rintro ⟨rfl, h⟩
    rw [skips_of_isEnclosed h]
    simp [closing?_cons]

/-! ### Names -/

/-- A name of a path: not empty and without a dot. -/
def IsSegment (s : String) : Prop := s ≠ "" ∧ '.' ∉ s.toList

theorem isSegment_iff {s : String} : IsSegment s ↔ isName s.toList = true := by
  simp [IsSegment, isName]

/-- The characters of a sub-attribute behind an attribute. -/
def subChars : Option (List Char) → List Char
  | none => []
  | some s => '.' :: s

/-- The text of a sub-attribute behind an attribute. -/
def subText : Option String → String
  | none => ""
  | some s => "." ++ s

theorem toList_subText (sub : Option String) :
    (subText sub).toList = subChars (sub.map String.toList) := by
  cases sub with
  | none => rfl
  | some s => simp [subText, subChars]

theorem ofList_subChars (sub : Option (List Char)) :
    String.ofList (subChars sub) = subText (sub.map String.ofList) := by
  rw [← String.toList_inj, toList_subText]
  cases sub with
  | none => rfl
  | some s => simp

theorem ofList_toList_sub (sub : Option String) :
    (sub.map String.toList).map String.ofList = sub := by
  cases sub <;> simp

theorem isName_of_isSegment {sub : Option String} (h : ∀ s ∈ sub, IsSegment s) :
    ∀ t ∈ sub.map String.toList, isName t = true := by
  intro t ht
  obtain ⟨s, hs, rfl⟩ := Option.map_eq_some_iff.mp ht
  exact isSegment_iff.mp (h s hs)

theorem isSegment_of_isName {sub : Option (List Char)} (h : ∀ t ∈ sub, isName t = true) :
    ∀ s ∈ sub.map String.ofList, IsSegment s := by
  intro s hs
  obtain ⟨t, ht, rfl⟩ := Option.map_eq_some_iff.mp hs
  exact isSegment_iff.mpr (by simpa using h t ht)

/-- Behind a bracket stands nothing, or a dot and a name. -/
theorem afterBracket?_eq_some_iff {s : List Char} {sub : Option (List Char)} :
    afterBracket? s = some sub ↔ s = subChars sub ∧ ∀ t ∈ sub, isName t = true := by
  cases s with
  | nil => cases sub <;> simp [afterBracket?, subChars]
  | cons c s =>
      rw [afterBracket?, Option.ite_none_right_eq_some]
      cases sub with
      | none => simp [subChars]
      | some t =>
          simp only [subChars, Option.some.injEq, List.cons.injEq, Option.mem_def, forall_eq']
          constructor
          · rintro ⟨⟨rfl, hname⟩, rfl⟩
            exact ⟨⟨rfl, rfl⟩, hname⟩
          · rintro ⟨⟨rfl, rfl⟩, hname⟩
            exact ⟨⟨rfl, hname⟩, rfl⟩

/-- Names are split at the first dot, behind which no other may stand. -/
theorem splitNames?_eq_some_iff {s name : List Char} {sub : Option (List Char)} :
    splitNames? s = some (name, sub) ↔
      s = name ++ subChars sub ∧ isName name = true ∧ ∀ t ∈ sub, isName t = true := by
  unfold splitNames?
  cases hcut : Text.cutFirst '.' s with
  | none =>
      have hdot : '.' ∉ s := Text.cutFirst_eq_none_iff.mp hcut
      dsimp only
      rw [Option.ite_none_right_eq_some, Option.some.injEq, Prod.mk.injEq]
      constructor
      · rintro ⟨hname, rfl, rfl⟩
        exact ⟨by simp [subChars], hname, by simp⟩
      · rintro ⟨rfl, hname, -⟩
        cases sub with
        | none => exact ⟨by simpa [subChars] using hname, by simp [subChars], rfl⟩
        | some t => exact absurd (by simp [subChars]) hdot
  | some cut =>
      obtain ⟨before, after⟩ := cut
      obtain ⟨rfl, hdot⟩ := Text.cutFirst_eq_some_iff.mp hcut
      dsimp only
      rw [Option.ite_none_right_eq_some, Bool.and_eq_true, Option.some.injEq, Prod.mk.injEq]
      constructor
      · rintro ⟨⟨hname, hsub⟩, rfl, rfl⟩
        exact ⟨rfl, hname, by simpa using hsub⟩
      · rintro ⟨hsplit, hname, hsub⟩
        have hdot' : '.' ∉ name := by
          rw [isName, Bool.and_eq_true] at hname
          simpa using hname.2
        cases sub with
        | none =>
            refine absurd ?_ hdot'
            rw [subChars, List.append_nil] at hsplit
            rw [← hsplit]
            simp
        | some t =>
            rw [Text.cutFirst_eq_some_iff.mpr ⟨hsplit, hdot'⟩, Option.some.injEq,
              Prod.mk.injEq] at hcut
            obtain ⟨rfl, rfl⟩ := hcut
            exact ⟨⟨hname, hsub _ rfl⟩, rfl, rfl⟩

/-- Names that are joined are split again. -/
theorem splitNames?_joined {name : String} {sub : Option String} (hname : IsSegment name)
    (hsub : ∀ s ∈ sub, IsSegment s) :
    splitNames? (name ++ subText sub).toList = some (name.toList, sub.map String.toList) := by
  refine splitNames?_eq_some_iff.mpr ⟨?_, isSegment_iff.mp hname, isName_of_isSegment hsub⟩
  rw [String.toList_append, toList_subText]

/-- Names that are split are joined again. -/
theorem joined_of_splitNames? {s : List Char} {names : List Char × Option (List Char)}
    (h : splitNames? s = some names) :
    String.ofList s = String.ofList names.1 ++ subText (names.2.map String.ofList) ∧
      IsSegment (String.ofList names.1) ∧ ∀ t ∈ names.2.map String.ofList, IsSegment t := by
  obtain ⟨name, sub⟩ := names
  obtain ⟨rfl, hname, hsub⟩ := splitNames?_eq_some_iff.mp h
  refine ⟨?_, isSegment_iff.mpr (by simpa using hname), isSegment_of_isName hsub⟩
  rw [String.ofList_append, ofList_subChars]

/-! ### Paths with a bracket -/

/-- `IsAround text name inside sub`: a text is a path around what stands in its bracket.  Before the
bracket, which is the first one of the text, stands a name; after the first closing bracket behind it
that is not quoted stands nothing, or a dot and a name. -/
structure IsAround (text name inside : String) (sub : Option String) : Prop where
  text_eq : text = name ++ "[" ++ inside ++ "]" ++ subText sub
  isSegment_name : IsSegment name
  isFirst : '[' ∉ name.toList
  isEnclosed : IsEnclosed inside.toList
  isSegment_sub : ∀ s ∈ sub, IsSegment s

theorem IsAround.ne_empty {text name inside : String} {sub : Option String}
    (h : IsAround text name inside sub) : text ≠ "" := by
  rw [h.text_eq]
  simp

/-- What is made of a text with a bracket depends on what stands before, in and after it. -/
theorem parseTrimmed_enclosed {text : String} {name inside after : List Char}
    (htext : text.toList = name ++ '[' :: (inside ++ ']' :: after)) (hfirst : '[' ∉ name)
    (henclosed : IsEnclosed inside) :
    parseTrimmed text = match isName name, afterBracket? after with
      | true, some sub =>
        match Filter.parse (String.ofList inside) with
        | .ok f => .ok ⟨String.ofList name, some f, sub.map String.ofList, none⟩
        | .error refusal => .error (.filter refusal)
      | _, _ => .error (.malformed text) := by
  have hclosing : closing? false (inside ++ ']' :: after) = some (inside, after) :=
    closing?_eq_some_iff.mpr ⟨rfl, henclosed⟩
  rw [parseTrimmed, Text.cutFirst_eq_some_iff.mpr ⟨htext, hfirst⟩]
  cases hname : isName name with
  | false => simp only [parseFiltered, hclosing, hname]
  | true =>
      cases hafter : afterBracket? after with
      | none => simp only [parseFiltered, hclosing, hname, hafter]
      | some sub =>
          cases hf : Filter.parse (String.ofList inside) with
          | ok f => simp only [parseFiltered, hclosing, hname, hafter, hf]
          | error refusal => simp only [parseFiltered, hclosing, hname, hafter, hf]

theorem IsAround.toList_eq {text name inside : String} {sub : Option String}
    (h : IsAround text name inside sub) : text.toList =
      name.toList ++ '[' :: (inside.toList ++ ']' :: subChars (sub.map String.toList)) := by
  rw [h.text_eq]
  simp [toList_subText]

/-- A path around a bracket is the path of the filter in it, and is refused as the filter is. -/
theorem IsAround.parseTrimmed_eq {text name inside : String} {sub : Option String}
    (h : IsAround text name inside sub) :
    parseTrimmed text = match Filter.parse inside with
      | .ok f => .ok ⟨name, some f, sub, none⟩
      | .error refusal => .error (.filter refusal) := by
  have hafter : afterBracket? (subChars (sub.map String.toList)) = some (sub.map String.toList) :=
    afterBracket?_eq_some_iff.mpr ⟨rfl, isName_of_isSegment h.isSegment_sub⟩
  rw [parseTrimmed_enclosed h.toList_eq h.isFirst h.isEnclosed, isSegment_iff.mp h.isSegment_name,
    hafter]
  simp only [ofList_toList_sub, String.ofList_toList]

/-- A text with a bracket is a path around it, or is refused without a look at the filter. -/
theorem parseTrimmed_of_mem {text : String} (h : '[' ∈ text.toList) :
    (∃ name inside sub, IsAround text name inside sub) ∨
      parseTrimmed text = .error (.unclosed text) ∨ parseTrimmed text = .error (.malformed text) := by
  obtain ⟨name, rest, hsplit, hfirst⟩ := List.eq_append_cons_of_mem h
  cases hclosing : closing? false rest with
  | none =>
      rw [parseTrimmed, Text.cutFirst_eq_some_iff.mpr ⟨hsplit, hfirst⟩]
      dsimp only
      rw [parseFiltered, hclosing]
      exact .inr (.inl rfl)
  | some cut =>
      obtain ⟨inside, after⟩ := cut
      obtain ⟨rfl, henclosed⟩ := closing?_eq_some_iff.mp hclosing
      rw [parseTrimmed_enclosed hsplit hfirst henclosed]
      cases hname : isName name with
      | false => exact .inr (.inr rfl)
      | true =>
          cases hafter : afterBracket? after with
          | none => exact .inr (.inr rfl)
          | some sub =>
              obtain ⟨rfl, hsub⟩ := afterBracket?_eq_some_iff.mp hafter
              refine .inl ⟨String.ofList name, String.ofList inside, sub.map String.ofList, ?_⟩
              refine ⟨?_, isSegment_iff.mpr (by simpa using hname), by simpa using hfirst,
                by simpa using henclosed, isSegment_of_isName hsub⟩
              rw [← String.toList_inj, hsplit, ← ofList_subChars]
              simp

/-! ### Paths and their texts -/

/-- `Writes text p`: the text is the path `p`, written around the filter in a bracket, behind a schema
URN, or with names alone. -/
inductive Writes : String → PatchPath → Prop
  | filtered {text name inside : String} {sub : Option String} {f : Filter} :
      IsAround text name inside sub → Filter.parse inside = .ok f →
      Writes text ⟨name, some f, sub, none⟩
  | qualified {schema name : String} {sub : Option String} :
      Urn.isSchema schema.toList = true → Urn.isSuffix (name ++ subText sub).toList = true →
      IsSegment name → (∀ s ∈ sub, IsSegment s) →
      Writes (schema ++ ":" ++ name ++ subText sub) ⟨name, none, sub, some schema⟩
  | plain {name : String} {sub : Option String} :
      '[' ∉ (name ++ subText sub).toList → Urn.split? (name ++ subText sub) = none →
      IsSegment name → (∀ s ∈ sub, IsSegment s) →
      Writes (name ++ subText sub) ⟨name, none, sub, none⟩

theorem Writes.parseTrimmed_eq {text : String} {p : PatchPath} (h : Writes text p) :
    parseTrimmed text = .ok p := by
  cases h with
  | filtered haround hf => rw [haround.parseTrimmed_eq, hf]
  | @qualified schema name sub hschema hsuffix hname hsub =>
      have htext : (schema ++ ":" ++ name ++ subText sub).toList =
          schema.toList ++ ':' :: (name ++ subText sub).toList := by simp
      have hbracket := Urn.not_mem_joined (c := '[') (by decide) hschema hsuffix
      rw [parseTrimmed, htext, Text.cutFirst_eq_none_iff.mpr hbracket]
      simp only [parsePlain, htext, Urn.splitChars?_joined hschema hsuffix,
        splitNames?_joined hname hsub, ofList_toList_sub, String.ofList_toList]
  | plain hbracket hsplit hname hsub =>
      rw [Urn.split?, Option.map_eq_none_iff] at hsplit
      rw [parseTrimmed, Text.cutFirst_eq_none_iff.mpr hbracket]
      simp only [parsePlain, hsplit, splitNames?_joined hname hsub, ofList_toList_sub,
        String.ofList_toList]

/-- A path that is not qualified has no schema. -/
theorem Writes.schema_eq_none {text : String} {p : PatchPath} (h : Writes text p)
    (hsplit : Urn.split? text = none) : p.schema = none := by
  cases h with
  | filtered _ _ => rfl
  | @qualified schema name sub hschema hsuffix _ _ =>
      have htext : (schema ++ ":" ++ name ++ subText sub).toList =
          schema.toList ++ ':' :: (name ++ subText sub).toList := by simp
      rw [Urn.split?, htext, Urn.splitChars?_joined hschema hsuffix] at hsplit
      cases hsplit
  | plain _ _ _ _ => rfl

theorem writes_of_parsePlain {text : String} (htight : Text.IsTight text.toList)
    (hbracket : '[' ∉ text.toList) {p : PatchPath} (h : parsePlain text = .ok p) :
    Writes text p := by
  unfold parsePlain at h
  cases hsplit : Urn.splitChars? text.toList with
  | none =>
      rw [hsplit] at h
      dsimp only at h
      cases hnames : splitNames? text.toList with
      | none =>
          rw [hnames] at h
          cases h
      | some names =>
          rw [hnames] at h
          cases h
          obtain ⟨htext, hname, hsub⟩ := joined_of_splitNames? hnames
          rw [String.ofList_toList] at htext
          subst htext
          exact .plain hbracket (by rw [Urn.split?, hsplit, Option.map_none]) hname hsub
  | some cut =>
      obtain ⟨schema, suffix⟩ := cut
      rw [hsplit] at h
      dsimp only at h
      obtain ⟨htext, hschema, hsuffix⟩ := Urn.splitChars?_eq_some_iff.mp hsplit
      rw [Urn.dropLineFeed_of_isTight htight] at htext
      cases hnames : splitNames? suffix with
      | none =>
          rw [hnames] at h
          cases h
      | some names =>
          rw [hnames] at h
          cases h
          obtain ⟨hjoined, hname, hsub⟩ := joined_of_splitNames? hnames
          obtain rfl : text = String.ofList schema ++ ":" ++ String.ofList names.1 ++
              subText (names.2.map String.ofList) := by
            rw [String.append_assoc, ← hjoined, ← String.toList_inj, htext]
            simp
          refine .qualified (by simpa using hschema) ?_ hname hsub
          rw [← hjoined, String.toList_ofList]
          exact hsuffix

/-- A text without blanks at its ends is parsed as the path that it writes. -/
theorem parseTrimmed_eq_ok_iff {text : String} (htight : Text.IsTight text.toList) {p : PatchPath} :
    parseTrimmed text = .ok p ↔ Writes text p := by
  refine ⟨fun h => ?_, Writes.parseTrimmed_eq⟩
  by_cases hbracket : '[' ∈ text.toList
  · rcases parseTrimmed_of_mem hbracket with ⟨name, inside, sub, haround⟩ | hrefused | hrefused
    · rw [haround.parseTrimmed_eq] at h
      cases hf : Filter.parse inside with
      | ok f =>
          rw [hf] at h
          obtain rfl := Except.ok.inj h
          exact .filtered haround hf
      | error refusal =>
          rw [hf] at h
          cases h
    · rw [hrefused] at h
      cases h
    · rw [hrefused] at h
      cases h
  · rw [parseTrimmed, Text.cutFirst_eq_none_iff.mpr hbracket] at h
    exact writes_of_parsePlain htight hbracket h

theorem Writes.ne_empty {text : String} {p : PatchPath} (h : Writes text p) : text ≠ "" := by
  cases h with
  | filtered haround _ => exact haround.ne_empty
  | qualified _ _ hname _ => simp [hname.1]
  | plain _ _ hname _ => simp [hname.1]

/-- Blanks around a text are left out, and then it is parsed if something is left. -/
theorem parse_eq {text : String} (h : Text.trim text ≠ "") :
    Text.IsTight (Text.trim text).toList ∧ parse text = parseTrimmed (Text.trim text) := by
  have hall : Text.allBlank text = false := by
    rw [← Bool.not_eq_true]
    exact mt Text.allBlank_iff.mp h
  obtain ⟨_, _, _, _, htight, _⟩ := Text.exists_trim hall
  exact ⟨htight, by rw [parse, if_neg (by simp [hall])]⟩

/-- A text is parsed as the path that it writes, blanks around it left out. -/
theorem parse_eq_ok_iff {text : String} {p : PatchPath} :
    parse text = .ok p ↔ Writes (Text.trim text) p := by
  by_cases h : Text.trim text = ""
  · rw [parse, if_pos (Text.allBlank_iff.mpr h)]
    refine ⟨fun hparse => ?_, fun hwrites => absurd h hwrites.ne_empty⟩
    cases hparse
  · obtain ⟨htight, hparse⟩ := parse_eq h
    rw [hparse, parseTrimmed_eq_ok_iff htight]

end PatchPath
end ScimQuery
