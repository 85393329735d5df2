import ScimQuery.PatchPath
import ScimQuery.Proofs.Filter.Texts

/-! # The closing bracket of a path

A path looks for its closing bracket character by character and heeds only quotes; a filter is
scanned lexeme by lexeme.  Both agree on what a quoted text is: the search reads past every lexeme
but a closing bracket (`skips_of_stands`).  So in a text of lexemes it stops at the first token that
is a closing bracket (`closing?_of_decomposes`), which closes the path's own bracket unless the
filter in it asks for items of an array (`Filter.Derives.hasItems_eq`). -/

namespace ScimQuery

/-! ### Lexemes of a given kind -/

namespace Lexeme

theorem eq_of_bracket? {c d : Char} {kind : TokenKind} (hc : bracket? c = some kind)
    (hd : bracket? d = some kind) : c = d := by
  unfold bracket? at hc hd
  split at hc
  all_goals cases hc
  all_goals split at hd
  all_goals first | rfl | cases hd

/-- The kinds of brackets. -/
theorem kind_of_bracket? {c : Char} {kind : TokenKind} (h : bracket? c = some kind) :
    kind ∈ [.openParen, .closeParen, .openBracket, .closeBracket] := by
  unfold bracket? at h
  split at h
  all_goals simp_all

/-- A token of the kind of a bracket is that bracket. -/
theorem Stands.eq_bracket {s rest : List Char} {kind : TokenKind} {value : String}
    (h : Stands s rest kind value) {c : Char} (hc : bracket? c = some kind) : s = [c] := by
  have hkind := kind_of_bracket? hc
  cases h with
  | bracket hd => rw [eq_of_bracket? hc hd]
  | text _ => exact absurd hkind (by decide)
  | number _ _ => exact absurd hkind (by decide)
  | reserved _ _ hk =>
      have hreserved := kind_of_reserved? hk
      simp only [List.mem_cons, List.not_mem_nil, or_false] at hkind
      rcases hkind with rfl | rfl | rfl | rfl
      all_goals exact absurd hreserved (by decide)
  | path _ _ _ => exact absurd hkind (by decide)

/-- A token that is an attribute path is a word as it is written. -/
theorem Stands.word_of_attribute {s rest : List Char} {value : String}
    (h : Stands s rest .attribute value) : isWord s = true ∧ value = String.ofList s := by
  generalize hk : TokenKind.attribute = kind at h
  cases h with
  | bracket hb => exact absurd (kind_of_bracket? hb) (by rw [← hk]; decide)
  | reserved _ _ hr => exact absurd (kind_of_reserved? hr) (by rw [← hk]; decide)
  | path hs _ _ => exact ⟨hs, rfl⟩
  | _ => cases hk

/-- No lexeme starts with a point. -/
theorem Stands.head_ne_point {s rest : List Char} {kind : TokenKind} {value : String}
    (h : Stands s rest kind value) : s.head? ≠ some '.' := by
  obtain ⟨c, t, rfl, -, hread⟩ := read_of_stands h
  intro hc
  obtain rfl : c = '.' := by simpa using hc
  have hnumber := number?_eq_none (c := '.') (by decide) Number.isDigit_point (t ++ rest)
  have hfault : read 0 '.' (t ++ rest) = .error (.unexpectedCharacter '.' 0) := by
    have hbracket : bracket? '.' = none := rfl
    have hstarts : startsWord '.' = false := by decide
    simp [read, hbracket, hnumber, hstarts]
  rw [hread 0] at hfault
  cases hfault

end Lexeme

/-- A text of lexemes does not start with a point. -/
theorem Token.Decomposes.head_ne_point {s : List Char} {ps : List Piece} (h : Decomposes s ps) :
    s.head? ≠ some '.' := by
  have hpoint : Text.isBlank '.' = false := by decide
  intro hc
  cases h with
  | blanks hs => exact Text.AreBlanks.not_mem hs hpoint (List.mem_of_head? hc)
  | @piece p rest ps hb hl _ =>
      cases hblanks : p.blanks with
      | nil =>
          obtain ⟨c, t, hct, -, -⟩ := Lexeme.read_of_stands hl
          rw [hblanks, hct] at hc
          exact hl.head_ne_point (hct ▸ hc)
      | cons c b =>
          rw [hblanks] at hb hc
          obtain rfl : c = '.' := by simpa using hc
          exact Text.AreBlanks.not_mem hb hpoint List.mem_cons_self

namespace PatchPath

/-! ### Reading past characters -/

/-- `Skips quoted s quoted'`: the search for the closing bracket reads past `s`.  Before `s` it is
inside a quoted text if `quoted`, and after `s` if `quoted'`. -/
def Skips (quoted : Bool) (s : List Char) (quoted' : Bool) : Prop :=
  ∀ rest, closing? quoted (s ++ rest) =
    (closing? quoted' rest).map fun (inside, after) => (s ++ inside, after)

theorem closing?_cons (c : Char) (rest : List Char) :
    closing? false (c :: rest) = if c = ']' then some ([], rest)
      else (closing? (c == '"') rest).map fun (inside, after) => (c :: inside, after) := by
  cases rest <;> rfl

theorem closing?_cons_quoted {c : Char} (hslash : c ≠ '\\') (rest : List Char) :
    closing? true (c :: rest) =
      (closing? (c != '"') rest).map fun (inside, after) => (c :: inside, after) := by
  cases rest <;> simp [closing?, hslash]

theorem Skips.nil (quoted : Bool) : Skips quoted [] quoted := by
  intro rest
  cases h : closing? quoted rest with
  | none => simp [h]
  | some cut => simp [h]

theorem Skips.append {quoted quoted' quoted'' : Bool} {s u : List Char}
    (hs : Skips quoted s quoted') (hu : Skips quoted' u quoted'') :
    Skips quoted (s ++ u) quoted'' := by
  intro rest
  rw [List.append_assoc, hs, hu]
  cases closing? quoted'' rest with
  | none => rfl
  | some cut => simp

theorem skips_plain {c : Char} (hquote : c ≠ '"') (hclose : c ≠ ']') : Skips false [c] false := by
  intro rest
  rw [List.singleton_append, closing?_cons, if_neg hclose, beq_false_of_ne hquote]
  rfl

theorem skips_quote (quoted : Bool) : Skips quoted ['"'] (!quoted) := by
  intro rest
  cases quoted with
  | false => simp [closing?_cons]
  | true => simp [closing?_cons_quoted]

theorem skips_ordinary {c : Char} (hquote : c ≠ '"') (hslash : c ≠ '\\') : Skips true [c] true := by
  intro rest
  rw [List.singleton_append, closing?_cons_quoted hslash, bne_iff_ne.mpr hquote]
  rfl

theorem skips_escaped (c : Char) : Skips true ['\\', c] true := by
  intro rest
  simp [closing?]

/-- The search reads past what is written between quotes. -/
theorem skips_quotes {s t : List Char} (h : Lexeme.Quotes s t) : Skips true s true := by
  induction h with
  | nil => exact .nil true
  | ordinary hquote hslash _ ih => exact (skips_ordinary hquote hslash).append ih
  | escaped c _ ih => exact (skips_escaped c).append ih

/-- The search reads past characters that are no quotes and no closing brackets. -/
theorem skips_of_forall {s : List Char} (h : ∀ c ∈ s, c.toNat ≠ 34 ∧ c.toNat ≠ 93) :
    Skips false s false := by
  induction s with
  | nil => exact .nil false
  | cons c s ih =>
      obtain ⟨hquote, hclose⟩ := h c List.mem_cons_self
      have hc : Skips false [c] false := skips_plain (by rintro rfl; exact hquote rfl)
        (by rintro rfl; exact hclose rfl)
      exact hc.append (ih fun d hd => h d (List.mem_cons_of_mem c hd))

theorem skips_blanks {b : List Char} (hb : Text.AreBlanks b) : Skips false b false := by
  refine skips_of_forall fun c hc => ?_
  have := Lexeme.toNat_of_isBlank (hb c hc)
  omega

theorem skips_word {s : List Char} (hs : Lexeme.isWord s = true) : Skips false s false := by
  refine skips_of_forall fun c hc => ?_
  have := Lexeme.toNat_of_inWord ((Lexeme.inWord_of_isWord hs).2 c hc)
  omega

/-- The search reads past every lexeme but a closing bracket. -/
theorem skips_of_stands {s rest : List Char} {kind : TokenKind} {value : String}
    (h : Lexeme.Stands s rest kind value) (hk : kind ≠ .closeBracket) : Skips false s false := by
  cases h with
  | @bracket c _ _ hb =>
      refine skips_plain ?_ ?_
      · rintro rfl
        cases hb
      · rintro rfl
        exact hk (Option.some.inj hb).symm
  | text hq => exact (skips_quote false).append ((skips_quotes hq).append (skips_quote true))
  | number hl _ =>
      refine skips_of_forall fun c hc => ?_
      have := hl.toNat_of_mem hc
      omega
  | reserved hs _ _ => exact skips_word hs
  | path hs _ _ => exact skips_word hs

/-! ### The first closing bracket -/

/-- In a text of lexemes the search stops at the first token that is a closing bracket. -/
theorem closing?_of_decomposes {s : List Char} {ps qs : List Token.Piece} {p : Token.Piece}
    (h : Token.Decomposes s (ps ++ p :: qs)) (hps : ∀ q ∈ ps, q.kind ≠ .closeBracket)
    (hp : p.kind = .closeBracket) :
    ∃ inside after, s = inside ++ ']' :: after ∧ closing? false s = some (inside, after) ∧
      Token.Decomposes inside ps ∧ Token.Decomposes after qs := by
  induction ps generalizing s with
  | nil =>
      cases h with
      | @piece _ rest _ hb hl hrest =>
          have hlexeme : p.lexeme = [']'] := hl.eq_bracket (by rw [hp]; rfl)
          refine ⟨p.blanks, rest, by rw [hlexeme]; rfl, ?_, .blanks hb, hrest⟩
          rw [hlexeme, skips_blanks hb]
          simp [closing?_cons]
  | cons q ps ih =>
      cases h with
      | @piece _ rest _ hb hl hrest =>
          obtain ⟨inside, after, rfl, hclosing, hinside, hafter⟩ :=
            ih hrest fun q' hq' => hps q' (List.mem_cons_of_mem q hq')
          have hskips := (skips_blanks hb).append (skips_of_stands hl (hps q List.mem_cons_self))
          have hcut := hl.take inside.length
          rw [List.take_left] at hcut
          refine ⟨q.blanks ++ (q.lexeme ++ inside), after, by simp, ?_, .piece hb hcut hinside,
            hafter⟩
          rw [← List.append_assoc, hskips, hclosing]
          simp

end PatchPath

/-! ### Brackets of a filter -/

namespace Filter

/-- Whether a filter asks for an item of an array somewhere. -/
def hasItems : Filter → Bool
  | .compare _ _ _ => false
  | .logical _ left right => left.hasItems || right.hasItems
  | .not inner => inner.hasItems
  | .valuePath _ _ => true
  | .unrecognized => false

/-- A filter that asks for items is one with closing brackets among its tokens. -/
theorem Derives.hasItems_eq {p : Phrase} {ts : List Token} {f : Filter}
    (h : Derives Token.Denotes p ts f) : f.hasItems = ts.any (·.kind = .closeBracket) := by
  induction h with
  | conjunction _ ih => exact ih
  | operand _ ih => exact ih
  | comparison _ ih => exact ih
  | or _ ht _ ihl ihr => simp [hasItems, ihl, ihr, ht]
  | and _ ht _ ihl ihr => simp [hasItems, ihl, ihr, ht]
  | not hn ho _ hc ih => simp [hasItems, ih, hn, ho, hc]
  | group ho _ hc ih => simp [ih, ho, hc]
  | items _ _ _ hc _ => simp [hasItems, hc]
  | present ha hp => simp [hasItems, ha, hp]
  | value ha ho hv => cases hv with | _ => simp_all [hasItems]

end Filter

/-- The kinds of the tokens of a text are those of its pieces. -/
theorem Token.any_kind_ofPieces (kind : TokenKind) (position : Nat) (ps : List Piece) :
    (ofPieces position ps).any (·.kind = kind) = ps.any (·.kind = kind) := by
  induction ps generalizing position with
  | nil => rfl
  | cons p ps ih => simp [ofPieces, ih]

end ScimQuery
