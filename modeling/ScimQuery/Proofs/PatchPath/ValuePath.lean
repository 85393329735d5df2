import ScimQuery.Proofs.PatchPath.Brackets

/-! # Paths that are filters on items

The text of a filter on the items of an array, such as `emails[type eq "work"]`, is the text of a
path too.  The filter is read as an attribute path and a filter in brackets, lexeme by lexeme
(`Filter.exists_bracket`); the path is cut at its first opening bracket and at the first closing
bracket after it that is not quoted (`PatchPath.parseFiltered_of_decomposes`).

Both find the same attribute and the same filter, and the path has neither a sub-attribute nor a
schema, unless the filter in the bracket asks for items itself, which refuses the path, or blanks
stand before the bracket, which the path keeps in its attribute
(`PatchPath.parse_of_valuePath`). -/

namespace ScimQuery

/-! ### Pieces of a filter on items -/

namespace Token

/-- The first of the tokens of a text is that of its first piece. -/
theorem exists_of_ofPieces_eq_cons {n : Nat} {ps : List Piece} {t : Token} {us : List Token}
    (h : ofPieces n ps = t :: us) :
    ∃ p qs m, ps = p :: qs ∧ p.kind = t.kind ∧ p.value = t.value ∧ ofPieces m qs = us := by
  cases ps with
  | nil => cases h
  | cons p qs =>
      simp only [ofPieces, List.cons.injEq] at h
      obtain ⟨rfl, h⟩ := h
      exact ⟨p, qs, _, rfl, rfl, rfl, h⟩

/-- Tokens after one another are the tokens of pieces after one another. -/
theorem exists_of_ofPieces_eq_append {n : Nat} {ps : List Piece} {us vs : List Token}
    (h : ofPieces n ps = us ++ vs) :
    ∃ qs rs m, ps = qs ++ rs ∧ ofPieces n qs = us ∧ ofPieces m rs = vs := by
  induction us generalizing n ps with
  | nil => exact ⟨[], ps, n, rfl, rfl, h⟩
  | cons u us ih =>
      cases ps with
      | nil => cases h
      | cons p ps =>
          simp only [ofPieces, List.cons_append, List.cons.injEq] at h
          obtain ⟨rfl, h⟩ := h
          obtain ⟨qs, rs, m, rfl, rfl, hrs⟩ := ih h
          exact ⟨p :: qs, rs, m, rfl, rfl, hrs⟩

/-- A tight text starts with its first lexeme. -/
theorem Decomposes.first {s : List Char} {p : Piece} {ps : List Piece}
    (h : Decomposes s (p :: ps)) (hs : Text.IsTight s) :
    ∃ rest, s = p.lexeme ++ rest ∧ Lexeme.Stands p.lexeme rest p.kind p.value ∧
      Decomposes rest ps := by
  cases h with
  | @piece _ rest _ hb hl hrest =>
      obtain ⟨c, _, hc, _, hblank, _⟩ := hs
      cases hblanks : p.blanks with
      | nil => exact ⟨rest, rfl, hl, hrest⟩
      | cons d b =>
          rw [hblanks] at hb hc
          obtain rfl : d = c := by simpa using hc
          exact absurd List.mem_cons_self (Text.AreBlanks.not_mem hb hblank)

end Token

namespace Filter

/-- A filter on items is in parentheses, or it is an attribute path and a filter in brackets. -/
theorem Derives.cases_valuePath {ts : List Token} {a : String} {f : Filter}
    (h : Derives Token.IsReadAs .filter ts (.valuePath a f)) :
    (∃ o us, ts = o :: us ∧ o.kind = .openParen) ∨
      ∃ t o us c, ts = t :: o :: (us ++ [c]) ∧ t.kind = .attribute ∧ t.value = a ∧
        o.kind = .openBracket ∧ c.kind = .closeBracket ∧ Derives Token.IsReadAs .filter us f := by
  cases h with
  | conjunction h =>
      cases h with
      | operand h =>
          cases h with
          | comparison h =>
              cases h with
              | items ha ho hf hc => exact .inr ⟨_, _, _, _, rfl, ha, rfl, ho, hc, hf⟩
          | group ho _ _ => exact .inl ⟨_, _, rfl, ho⟩

/-- The pieces of a filter on items. -/
theorem Derives.pieces_valuePath {n : Nat} {ps : List Token.Piece} {a : String} {f : Filter}
    (h : Derives Token.IsReadAs .filter (Token.ofPieces n ps) (.valuePath a f)) :
    (∃ o qs, ps = o :: qs ∧ o.kind = .openParen) ∨
      ∃ t o qs c, ps = t :: o :: (qs ++ [c]) ∧ t.kind = .attribute ∧ t.value = a ∧
        o.kind = .openBracket ∧ c.kind = .closeBracket ∧
        Derives Token.IsReadAs .filter (Token.ofPieces 0 qs) f := by
  rcases h.cases_valuePath with ⟨o, us, hts, ho⟩ | ⟨t, o, us, c, hts, ht, rfl, ho, hc, hf⟩
  · obtain ⟨p, qs, _, rfl, hp, -, -⟩ := Token.exists_of_ofPieces_eq_cons hts
    exact .inl ⟨p, qs, rfl, hp.trans ho⟩
  · obtain ⟨pt, _, _, rfl, ht', hvalue, hts⟩ := Token.exists_of_ofPieces_eq_cons hts
    obtain ⟨po, _, _, rfl, ho', -, hts⟩ := Token.exists_of_ofPieces_eq_cons hts
    obtain ⟨qs, _, _, rfl, rfl, hrs⟩ := Token.exists_of_ofPieces_eq_append hts
    obtain ⟨pc, rs, _, rfl, hc', -, hrs⟩ := Token.exists_of_ofPieces_eq_cons hrs
    cases rs with
    | nil =>
        exact .inr ⟨pt, po, qs, pc, rfl, ht'.trans ht, hvalue, ho'.trans ho, hc'.trans hc,
          hf.ofPieces 0⟩
    | cons r rs => cases hrs

/-- The text of a filter on items that is not in parentheses: the attribute path, blanks, an opening
bracket, the lexemes of the inner filter and a closing bracket. -/
theorem exists_bracket {text a : String} {f : Filter} (h : parse text = .ok (.valuePath a f))
    (hopen : (Text.trim text).toList.head? ≠ some '(') :
    ∃ blanks rest ps p, Text.AreBlanks blanks ∧
      (Text.trim text).toList = a.toList ++ (blanks ++ '[' :: rest) ∧
      Lexeme.isWord a.toList = true ∧ Token.Decomposes rest (ps ++ [p]) ∧
      p.kind = .closeBracket ∧ Derives Token.IsReadAs .filter (Token.ofPieces 0 ps) f := by
  obtain ⟨b, s, b', hb, htight, hb', hsplit, hw⟩ := exists_of_parse h
  have htrim : (Text.trim text).toList = s := by
    rw [Text.trim, String.toList_ofList, hsplit, Text.trimChars_padded hb htight hb']
  obtain ⟨ts, hscan, hd⟩ := hw 0
  obtain ⟨ps, hps, rfl⟩ := hscan.decomposes
  rw [htrim] at hopen ⊢
  rcases hd.pieces_valuePath with ⟨p, qs, rfl, hp⟩ | ⟨t, o, qs, c, rfl, ht, rfl, ho, hc, hf⟩
  · obtain ⟨rest, rfl, hl, -⟩ := hps.first htight
    have hlexeme : p.lexeme = ['('] := hl.eq_bracket (by rw [hp]; rfl)
    rw [hlexeme] at hopen
    exact absurd rfl hopen
  · obtain ⟨rest, rfl, hl, hrest⟩ := hps.first htight
    rw [ht] at hl
    obtain ⟨hword, hvalue⟩ := hl.word_of_attribute
    cases hrest with
    | @piece _ rest _ hblanks hl' hrest =>
        have hlexeme : o.lexeme = ['['] := hl'.eq_bracket (by rw [ho]; rfl)
        rw [hvalue, String.toList_ofList, hlexeme]
        exact ⟨o.blanks, rest, qs, c, hblanks, rfl, hword, hrest, hc, hf⟩

end Filter

namespace PatchPath

/-- What stands after a bracket is refused when lexemes are there. -/
theorem afterBracket?_of_decomposes {after : List Char} {ps : List Token.Piece}
    (h : Token.Decomposes after ps) (hps : ps ≠ []) : afterBracket? after = none := by
  cases after with
  | nil => exact absurd (h.unique (.blanks (by simp))) hps
  | cons c rest =>
      have hc : c ≠ '.' := by
        rintro rfl
        exact h.head_ne_point rfl
      simp [afterBracket?, hc]

/-- Of a bracket that is closed at the end of the text, a path reads the filter that is in it, but
is refused if there are closing brackets in it. -/
theorem parseFiltered_of_decomposes {path : String} {name rest : List Char}
    {ps : List Token.Piece} {p : Token.Piece} {f : Filter} (hname : isName name = true)
    (hrest : Token.Decomposes rest (ps ++ [p])) (hp : p.kind = .closeBracket)
    (hd : Filter.Derives Token.IsReadAs .filter (Token.ofPieces 0 ps) f)
    (hend : ∀ d, rest.getLast? = some d → Text.isBlank d = false) :
    parseFiltered path name rest =
      if f.hasItems then .error (.malformed path)
      else .ok ⟨String.ofList name, some f, none, none⟩ := by
  have hitems := (Filter.derives_isReadAs_iff.mp hd).1.hasItems_eq
  rw [Token.any_kind_ofPieces] at hitems
  cases hf : f.hasItems with
  | false =>
      -- The bracket that the search finds is the last lexeme.
      have hnone : ∀ q ∈ ps, q.kind ≠ .closeBracket := by
        rw [hf, eq_comm, List.any_eq_false] at hitems
        simpa using hitems
      obtain ⟨inside, after, rfl, hclosing, hinside, hafter⟩ :=
        closing?_of_decomposes hrest hnone hp
      obtain rfl : after = [] := by
        cases hafter with
        | blanks hs =>
            refine Text.AreBlanks.eq_nil_of_getLast? hs (inside ++ [']']) ?_
            simpa using hend
      have hparse : Filter.parse (String.ofList inside) = .ok f :=
        Filter.parse_eq_ok_iff.mpr ⟨ps, by rwa [String.toList_ofList], hd⟩
      simp [parseFiltered, hclosing, hname, afterBracket?, hparse]
  | true =>
      -- It finds a bracket of the filter, and lexemes follow.
      rw [hf, eq_comm, List.any_eq_true, ← List.find?_isSome] at hitems
      obtain ⟨q, hfind⟩ := Option.isSome_iff_exists.mp hitems
      obtain ⟨hq, before, behind, rfl, hbefore⟩ := List.find?_eq_some_iff_append.mp hfind
      have hfirst : ∀ r ∈ before, r.kind ≠ .closeBracket := by simpa using hbefore
      rw [List.append_assoc, List.cons_append] at hrest
      obtain ⟨inside, after, -, hclosing, -, hafter⟩ :=
        closing?_of_decomposes hrest hfirst (by simpa using hq)
      have hnone := afterBracket?_of_decomposes hafter (by simp)
      simp [parseFiltered, hclosing, hname, hnone]

/-- A text that is a filter `f` on the items at `a`, without parentheses around it and without a dot
in `a`, is a path.  Between `a` and the bracket there may be blanks, which go into the attribute of
the path, and the filter of the path is `f`; but the path is refused if `f` asks for items itself.
So the path is the attribute `a` with the filter `f` and nothing else exactly if neither is so. -/
theorem parse_of_valuePath {text a : String} {f : Filter}
    (h : Filter.parse text = .ok (.valuePath a f))
    (hopen : (Text.trim text).toList.head? ≠ some '(') (hdot : '.' ∉ a.toList) :
    ∃ blanks rest, Text.AreBlanks blanks ∧
      (Text.trim text).toList = a.toList ++ (blanks ++ '[' :: rest) ∧
      parse text = (if f.hasItems then .error (.malformed (Text.trim text))
        else .ok ⟨String.ofList (a.toList ++ blanks), some f, none, none⟩) ∧
      (parse text = .ok ⟨a, some f, none, none⟩ ↔ f.hasItems = false ∧ blanks = []) := by
  obtain ⟨blanks, rest, ps, p, hb, htrim, hword, hrest, hp, hd⟩ := Filter.exists_bracket h hopen
  obtain ⟨hne, hletters⟩ := Lexeme.inWord_of_isWord hword
  have hname : isName (a.toList ++ blanks) = true := by
    have hpoint : '.' ∉ a.toList ++ blanks := by
      rw [List.mem_append, not_or]
      exact ⟨hdot, hb.not_mem (by decide)⟩
    simpa [isName, hne] using hpoint
  have hcut : Text.cutFirst '[' (Text.trim text).toList = some (a.toList ++ blanks, rest) := by
    refine Text.cutFirst_eq_some_iff.mpr ⟨by rw [htrim, List.append_assoc], ?_⟩
    rw [List.mem_append, not_or]
    exact ⟨fun hc => absurd (hletters '[' hc) (by decide), hb.not_mem (by decide)⟩
  have hparse : parse text = (if f.hasItems then .error (.malformed (Text.trim text))
      else .ok ⟨String.ofList (a.toList ++ blanks), some f, none, none⟩) := by
    have hall : Text.allBlank text = false := by
      refine eq_false_of_ne_true fun hall => ?_
      rw [Filter.parse, if_pos hall] at h
      cases h
    have hend : ∀ d, rest.getLast? = some d → Text.isBlank d = false := by
      intro d hd
      obtain ⟨_, _, _, _, htight, _⟩ := Text.exists_trim hall
      have hsplit : (Text.trim text).toList = (a.toList ++ (blanks ++ ['['])) ++ rest := by
        simp [htrim]
      exact (hsplit ▸ htight).isBlank_of_getLast? hd
    rw [parse, if_neg (by simp [hall]), parseTrimmed, hcut]
    exact parseFiltered_of_decomposes hname hrest hp hd hend
  refine ⟨blanks, rest, hb, htrim, hparse, ?_⟩
  rw [hparse]
  cases f.hasItems with
  | true => simp
  | false => simp

/-- Blanks around the text and a closing bracket in a quoted text make no difference. -/
theorem parse_of_valuePath_quoted_bracket :
    Filter.parse " emails[type eq \"a]\" ]\t" =
        .ok (.valuePath "emails" (.compare "type" .equal (.text "a]"))) ∧
      (Text.trim " emails[type eq \"a]\" ]\t").toList.head? ≠ some '(' ∧
      '.' ∉ "emails".toList ∧
      parse " emails[type eq \"a]\" ]\t" =
        .ok ⟨"emails", some (.compare "type" .equal (.text "a]")), none, none⟩ := by
  have h : Filter.parse " emails[type eq \"a]\" ]\t" =
      .ok (.valuePath "emails" (.compare "type" .equal (.text "a]"))) := by decide +kernel
  have hopen : (Text.trim " emails[type eq \"a]\" ]\t").toList.head? ≠ some '(' := by decide +kernel
  have hdot : '.' ∉ "emails".toList := by decide
  obtain ⟨blanks, rest, hb, htrim, -, hiff⟩ := parse_of_valuePath h hopen hdot
  have hblanks : blanks = [] := by
    have hsplit : (Text.trim " emails[type eq \"a]\" ]\t").toList =
        "emails".toList ++ "[type eq \"a]\" ]".toList := by decide +kernel
    have hbehind := List.append_cancel_left (hsplit.symm.trans htrim)
    cases blanks with
    | nil => rfl
    | cons c blanks =>
        obtain rfl : '[' = c := (List.cons.inj hbehind).1
        exact absurd List.mem_cons_self (hb.not_mem (by decide))
  exact ⟨h, hopen, hdot, hiff.mpr ⟨rfl, hblanks⟩⟩

/-- Two texts of filters on items that are other paths: of a filter on items within a filter on
items the first closing bracket is the inner one, and a blank before the bracket is a part of the
attribute. -/
theorem parse_differs_on_valuePath :
    Filter.parse "a[b[c pr]]" =
        .ok (.valuePath "a" (.valuePath "b" (.compare "c" .present .null))) ∧
      parse "a[b[c pr]]" = .error (.malformed "a[b[c pr]]") ∧
      Filter.parse "a [b pr]" = .ok (.valuePath "a" (.compare "b" .present .null)) ∧
      parse "a [b pr]" = .ok ⟨"a ", some (.compare "b" .present .null), none, none⟩ := by
  decide +kernel

end PatchPath
end ScimQuery
