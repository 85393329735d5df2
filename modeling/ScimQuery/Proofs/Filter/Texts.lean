import ScimQuery.Proofs.Filter.Composition

/-! # Texts and phrases

A text is parsed as a filter exactly where its lexemes are a phrase for that filter
(`Filter.parse_eq_ok_iff`).  Parsing trims a text before it is scanned, and the pieces of a text are
those of the trimmed text with more blanks around them: no lexeme ends with a blank, so blanks at
the end of a text follow its last lexeme (`Token.Decomposes.dropEnd`). -/

namespace ScimQuery

/-- A lexeme starts and ends with characters that are no blanks. -/
theorem Lexeme.Stands.isTight {s rest : List Char} {kind : TokenKind} {value : String}
    (h : Stands s rest kind value) : Text.IsTight s := by
  cases h with
  | @bracket c _ _ hb =>
      refine Text.isTight_singleton (isBlank_eq_false ?_)
      have := toNat_of_bracket? (c := c) (by simp [hb])
      omega
  | @text s _ _ _ =>
      have hquote : Text.IsTight ['"'] := Text.isTight_singleton rfl
      exact hquote.append s hquote
  | number hl _ => exact hl.isTight
  | reserved hs _ _ => exact isTight_of_isWord hs
  | path hs _ _ => exact isTight_of_isWord hs

namespace Token

/-! ### Pieces between blanks -/

/-- The tokens of a scanned text are those of its pieces. -/
theorem Scans.decomposes {position : Nat} {s : List Char} {ts : List Token}
    (h : Scans position s ts) : ∃ ps, Decomposes s ps ∧ ts = ofPieces position ps := by
  have hscan := scanFrom_of_scans h
  obtain ⟨ps, hps⟩ := decomposes_of_scanFrom hscan
  have htokens := hscan.symm.trans (scanFrom_of_decomposes hps position)
  rw [Except.ok.injEq] at htokens
  exact ⟨ps, hps, (List.append_inj' htokens rfl).1⟩

/-- Without the blanks at its front a text has the same tokens. -/
theorem Decomposes.dropFront {b s : List Char} {ps : List Piece} (h : Decomposes (b ++ s) ps)
    (hb : Text.AreBlanks b) (position : Nat) :
    ∃ qs, Decomposes s qs ∧ ofPieces position ps = ofPieces (position + b.length) qs := by
  have hscan := scanFrom_of_decomposes h position
  rw [scanFrom_blanks hb] at hscan
  obtain ⟨qs, hqs⟩ := decomposes_of_scanFrom hscan
  have htokens := hscan.symm.trans (scanFrom_of_decomposes hqs (position + b.length))
  rw [Except.ok.injEq] at htokens
  exact ⟨qs, hqs, (List.append_inj' htokens rfl).1⟩

/-- Without the blanks at its end a text has the same pieces. -/
theorem Decomposes.dropEnd {s b : List Char} {ps : List Piece} (h : Decomposes (s ++ b) ps)
    (hb : Text.AreBlanks b) : Decomposes s ps := by
  generalize hu : s ++ b = u at h
  induction h generalizing s with
  | blanks hs =>
      subst hu
      exact .blanks fun c hc => hs c (List.mem_append_left b hc)
  | @piece p rest ps hblanks hl _ ih =>
      rw [← List.append_assoc] at hu
      rcases List.append_eq_append_iff.mp hu with ⟨v, hfront, rfl⟩ | ⟨v, rfl, rfl⟩
      · -- A lexeme ends with no blank, so no blank of it is cut off.
        obtain ⟨_, d, _, hd, _, hblank⟩ := hl.isTight
        have hv : Text.AreBlanks v := fun c hc => hb c (List.mem_append_left rest hc)
        obtain rfl : v = [] := by
          refine hv.eq_nil_of_getLast? s fun e he => ?_
          rw [← hfront, List.getLast?_append, hd, Option.some_or] at he
          exact Option.some.inj he ▸ hblank
        rw [List.append_nil] at hfront
        have hcut := hl.take 0
        have hpiece := Decomposes.piece hblanks hcut (ih rfl)
        rwa [List.take_zero, List.append_nil, hfront] at hpiece
      · rw [List.append_assoc]
        have hcut := hl.take v.length
        rw [List.take_left] at hcut
        exact .piece hblanks hcut (ih rfl)

/-- A text is not scanned where a quote stays open or a character starts no lexeme. -/
theorem fault_of_scanFrom {position : Nat} {s : List Char} {fault : Filter.Fault}
    (h : scanFrom position s = .error fault) :
    (∃ n, fault = .unterminated n) ∨ ∃ c n, fault = .unexpectedCharacter c n := by
  fun_induction scanFrom position s with
  | case1 => cases h
  | case2 position c rest hc ih => exact ih h
  | case3 position c rest hc ih =>
      cases hread : Lexeme.read position c rest with
      | error fault' =>
          rw [hread] at h
          cases h
          rcases Lexeme.fault_of_read hread with rfl | rfl
          · exact .inl ⟨_, rfl⟩
          · exact .inr ⟨_, _, rfl⟩
      | ok l =>
          rw [hread] at h
          cases htail : scanFrom (position + l.width) (rest.drop l.tail) with
          | ok us =>
              simp only [bind, Except.bind, htail] at h
              cases h
          | error fault' =>
              simp only [bind, Except.bind, htail, Except.error.injEq] at h
              exact ih l (h ▸ htail)

end Token

namespace Filter

theorem Derives.ne_nil {Value : Token → Scalar → Prop} {p : Phrase} {ts : List Token} {f : Filter}
    (h : Derives Value p ts f) : ts ≠ [] := by
  induction h with
  | conjunction _ ih => exact ih
  | operand _ ih => exact ih
  | comparison _ ih => exact ih
  | _ => simp

/-- A text is parsed as a filter when its pieces are a phrase for it, and only then. -/
theorem parse_eq_ok_iff {text : String} {f : Filter} :
    parse text = .ok f ↔
      ∃ ps, Token.Decomposes text.toList ps ∧
        Derives Token.IsReadAs .filter (Token.ofPieces 0 ps) f := by
  constructor
  · intro h
    obtain ⟨ts, hscan, hd⟩ := writes_of_parse h 0
    obtain ⟨ps, hps, rfl⟩ := hscan.decomposes
    exact ⟨ps, hps, hd⟩
  · rintro ⟨ps, hps, hd⟩
    have hblank : Text.allBlank text = false := by
      refine eq_false_of_ne_true fun hall => hd.ne_nil ?_
      have hnone : Token.Decomposes text.toList [] := .blanks (List.all_eq_true.mp hall)
      rw [hps.unique hnone]
      rfl
    obtain ⟨b, b', hb, hb', htight, hsplit⟩ := Text.exists_trim hblank
    rw [hsplit] at hps
    obtain ⟨qs, hqs, htokens⟩ := hps.dropFront hb 0
    rw [htokens] at hd
    have hparse := parse_of_scans hb htight hb' ((hqs.dropEnd hb').scans 0) (hd.ofPieces 0)
    rwa [← hsplit, String.ofList_toList] at hparse

/-- A text is refused for its syntax, or for an integer of too many digits: the numbers that are scanned
are literals. -/
theorem isSyntax_or_isOverlong {text : String} {refusal : Refusal} (h : parse text = .error refusal) :
    refusal.fault.isSyntax = true ∨
      ∃ t, t.IsOverlong ∧ refusal.fault = .tooManyDigits t.digitCount t := by
  unfold parse at h
  split at h
  · cases h
    exact .inl rfl
  · cases hscan : Token.scan (Text.trim text) with
    | error fault =>
        simp only [ofText, hscan, bind, Except.bind, Except.mapError, Except.error.injEq] at h
        subst h
        rcases Token.fault_of_scanFrom hscan with ⟨n, rfl⟩ | ⟨c, n, rfl⟩
        · exact .inl rfl
        · exact .inl rfl
    | ok tokens =>
        obtain ⟨hl, ps, stop, -, rfl, hstop⟩ := exists_of_scan hscan
        have hends : EndsInStop (Token.ofPieces 0 ps ++ [stop]) :=
          ⟨stop, List.getLast?_concat, hstop⟩
        simp only [ofText, hscan, bind, Except.bind, ofTokens_of_endsInStop hends] at h
        cases hrun : Parser.run .start (Token.ofPieces 0 ps ++ [stop]) with
        | ok f =>
            rw [hrun] at h
            cases h
        | error fault =>
            rw [hrun] at h
            cases h
            obtain ⟨before, u, after, s, hsplit, -, href, rfl⟩ :=
              Parser.exists_refuses ⟨stop, by simp, hstop⟩ hrun
            rcases Parser.State.fault_cases (hl u (by rw [hsplit]; simp)) href.1 with hmisplaced | hlong
            · exact .inl (isSyntax_of_misplaced? hmisplaced)
            · exact .inr ⟨u, hlong⟩

end Filter
end ScimQuery
