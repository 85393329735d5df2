import ScimQuery.Filter.Meaning
import ScimQuery.Proofs.Filter.Rendering
import ScimQuery.Proofs.Token.Lexemes

/-! # Texts of filters put together

Texts of filters are put together with `or`, `and`, `not`, brackets and parentheses, and the whole
means what its parts mean.  A text that is parsed is scanned as the same phrase wherever it stands
before a blank, a bracket or the end (`writes_of_parse`), since its lexemes stay lexemes
(`Lexeme.Stands.append`) and the rules do not look at the places of tokens (`Derives.move`).  So
nothing in it captures what stands around it.

Without parentheses, the disjuncts of a right side are joined one by one to what stands before
(`Derives.orElse`): the tree is another one, with the same meaning. -/

namespace ScimQuery

/-! ### Lexemes before more text -/

namespace Lexeme

theorem endsWord_of_endsNumeral {rest : List Char} (h : endsNumeral rest = true) : EndsWord rest :=
  fun c hc => (head_of_endsNumeral h c hc).1

/-- A lexeme stays one when a blank, a bracket or the end follows the text. -/
theorem Stands.append {s rest : List Char} {kind : TokenKind} {value : String}
    (h : Stands s rest kind value) {more : List Char} (hm : endsNumeral more = true) :
    Stands s (rest ++ more) kind value := by
  have hword : EndsWord rest → EndsWord (rest ++ more) := by
    intro hr
    cases rest with
    | nil => exact endsWord_of_endsNumeral hm
    | cons c rest => exact hr
  cases h with
  | bracket hb => exact .bracket hb
  | text hq => exact .text hq
  | number hl hends =>
      refine .number hl ?_
      cases rest with
      | nil => exact hm
      | cons c rest => exact hends
  | reserved hs hr hk => exact .reserved hs (hword hr) hk
  | path hs hr hk => exact .path hs (hword hr) hk

/-- The kinds of keywords and operators. -/
theorem kind_of_reserved? {s : String} {kind : TokenKind} (h : reserved? s = some kind) :
    kind ∈ [.and, .or, .not, .present, .truth, .null, .operator] := by
  have hall : ∀ entry ∈ keywords, entry.2 ∈ [.and, .or, .not, .present, .truth, .null, .operator] := by
    decide
  unfold reserved? at h
  split at h
  · rename_i kind' hlookup
    obtain rfl := Option.some.inj h
    obtain ⟨before, after, hsplit, -⟩ := List.lookup_eq_some_iff.mp hlookup
    exact hall (s, kind') (by rw [hsplit]; simp)
  · split at h
    · obtain rfl := Option.some.inj h
      decide
    · cases h

/-- No lexeme is a stop, and one that is a number holds a literal. -/
theorem Stands.holdsLiteral {s rest : List Char} {kind : TokenKind} {value : String}
    (h : Stands s rest kind value) :
    kind ≠ .stop ∧ (kind = .number → ∃ n, Number.IsLiteral value.toList n) := by
  cases h with
  | bracket hb =>
      unfold bracket? at hb
      split at hb
      all_goals cases hb
      all_goals exact ⟨by decide, fun hk => nomatch hk⟩
  | text _ => exact ⟨by decide, fun hk => nomatch hk⟩
  | number hl _ =>
      refine ⟨by decide, fun _ => ?_⟩
      rw [String.toList_ofList]
      exact ⟨_, hl⟩
  | reserved _ _ hk =>
      have hkind := kind_of_reserved? hk
      refine ⟨?_, ?_⟩
      · rintro rfl
        exact absurd hkind (by decide)
      · rintro rfl
        exact absurd hkind (by decide)
  | path _ _ _ => exact ⟨by decide, fun hk => nomatch hk⟩

end Lexeme

namespace Token

/-! ### Tokens at other places -/

/-- A token at another place. -/
def move (place : Int → Int) (t : Token) : Token := { t with position := place t.position }

/-- A token some places further on. -/
def shift (n : Nat) (t : Token) : Token := { t with position := t.position + n }

theorem ofPieces_add (n position : Nat) (ps : List Piece) :
    ofPieces (position + n) ps = (ofPieces position ps).map (shift n) := by
  induction ps generalizing position with
  | nil => rfl
  | cons p ps ih =>
      have hplace : position + n + p.blanks.length + p.lexeme.length =
          position + p.blanks.length + p.lexeme.length + n := by omega
      simp only [ofPieces, List.map_cons, hplace, ih, shift, List.cons.injEq, Token.mk.injEq,
        true_and, and_true]
      omega

/-- The tokens of a text hold literals, and none of them is a stop. -/
theorem Decomposes.holdsLiterals {s : List Char} {ps : List Piece} (h : Decomposes s ps)
    (position : Nat) : ∀ t ∈ ofPieces position ps,
      t.kind ≠ .stop ∧ (t.kind = .number → ∃ n, Number.IsLiteral t.value.toList n) := by
  induction h generalizing position with
  | blanks _ =>
      intro t ht
      cases ht
  | piece _ hl _ ih =>
      intro t ht
      rcases List.mem_cons.mp ht with rfl | ht
      · exact hl.holdsLiteral
      · exact ih _ t ht

/-- A text is scanned as the same tokens wherever it stands. -/
theorem Decomposes.scans {s : List Char} {ps : List Piece} (h : Decomposes s ps) (position : Nat) :
    Scans position s (ofPieces position ps) := by
  induction h generalizing position with
  | @blanks s hs =>
      intro rest hr
      rw [scanFrom_blanks hs]
      exact Scans.nil _ rest hr
  | @piece p rest ps hb hl _ ih =>
      intro more hm
      rw [List.append_assoc, List.append_assoc, scanFrom_blanks hb, scanFrom_stands (hl.append hm),
        ih _ more hm]
      simp only [List.length_append, ← Nat.add_assoc]
      cases scanFrom (position + p.blanks.length + p.lexeme.length + rest.length) more with
      | ok ts => rfl
      | error fault => rfl

/-- Blanks around a piece of a text. -/
theorem Scans.padded {position : Nat} {b s b' : List Char} {ts : List Token}
    (hb : Text.AreBlanks b) (hs : Scans (position + b.length) s ts) (hb' : Text.AreBlanks b') :
    Scans position (b ++ (s ++ b')) ts := by
  intro rest hr
  have hends : Lexeme.endsNumeral (b' ++ rest) = true := by
    cases b' with
    | nil => exact hr
    | cons c b' => simp [Lexeme.endsNumeral, hb' c (by simp)]
  rw [List.append_assoc, scanFrom_blanks hb, List.append_assoc, hs _ hends, scanFrom_blanks hb']
  simp only [List.length_append, Nat.add_assoc]

end Token

namespace Filter

open Token (move)

/-! ### Phrases at other places -/

theorem isReadAs_move (place : Int → Int) {t : Token} {v : Scalar} (h : t.IsReadAs v) :
    (move place t).IsReadAs v := by
  obtain ⟨hd, ho⟩ := h
  refine ⟨?_, ho⟩
  cases hd with
  | text hk => exact .text hk
  | number hk hl => exact .number hk hl
  | truth hk => exact .truth hk
  | null hk => exact .null hk

/-- A phrase is one wherever its tokens stand. -/
theorem Derives.move (place : Int → Int) {p : Phrase} {ts : List Token} {f : Filter}
    (h : Derives Token.IsReadAs p ts f) : Derives Token.IsReadAs p (ts.map (Token.move place)) f := by
  induction h with
  | conjunction _ ih => exact .conjunction ih
  | or _ ht _ ihl ihr =>
      rw [List.map_append, List.map_cons]
      exact .or ihl ht ihr
  | operand _ ih => exact .operand ih
  | and _ ht _ ihl ihr =>
      rw [List.map_append, List.map_cons]
      exact .and ihl ht ihr
  | comparison _ ih => exact .comparison ih
  | not hn ho _ hc ih =>
      rw [List.map_cons, List.map_cons, List.map_append]
      exact .not hn ho ih hc
  | group ho _ hc ih =>
      rw [List.map_cons, List.map_append]
      exact .group ho ih hc
  | @items a o c ts f ha ho _ hc ih =>
      rw [List.map_cons, List.map_cons, List.map_append]
      exact .items (a := Token.move place a) ha ho ih hc
  | @present a p ha hp => exact .present (a := Token.move place a) ha hp
  | @value a o v _ ha ho hv =>
      exact .value (a := Token.move place a) (o := Token.move place o) ha ho (isReadAs_move place hv)

/-- The pieces of a text are the same phrase wherever the text stands. -/
theorem Derives.ofPieces {n : Nat} {p : Phrase} {ps : List Token.Piece} {f : Filter}
    (h : Derives Token.IsReadAs p (Token.ofPieces n ps) f) (m : Nat) :
    Derives Token.IsReadAs p (Token.ofPieces m ps) f := by
  rw [← Nat.zero_add n, Token.ofPieces_add] at h
  rw [← Nat.zero_add m, Token.ofPieces_add]
  have hmove := h.move fun place => place - n + m
  have hplace : Token.move (fun place => place - n + m) ∘ Token.shift n = Token.shift m := by
    funext t
    simp [Token.move, Token.shift]
  rwa [List.map_map, hplace] at hmove

/-! ### Texts that are parsed -/

theorem beforeStop_concat {ts : List Token} (h : ∀ t ∈ ts, t.kind ≠ .stop) {stop : Token}
    (hstop : stop.kind = .stop) : beforeStop (ts ++ [stop]) = ts := by
  have hall : ∀ t ∈ ts, (t.kind != .stop) = true := fun t ht => bne_iff_ne.mpr (h t ht)
  rw [beforeStop, List.takeWhile_append_of_pos hall]
  simp [hstop]

/-- The tokens of a text hold literals and end in a stop. -/
theorem exists_of_scan {text : String} {tokens : List Token} (h : Token.scan text = .ok tokens) :
    HoldLiterals tokens ∧ ∃ ps stop, Token.Decomposes text.toList ps ∧
      tokens = Token.ofPieces 0 ps ++ [stop] ∧ stop.kind = .stop := by
  rw [Token.scan] at h
  obtain ⟨ps, hps⟩ := Token.decomposes_of_scanFrom h
  have htokens := h.symm.trans (Token.scanFrom_of_decomposes hps 0)
  rw [Except.ok.injEq] at htokens
  refine ⟨fun t ht hk => ?_, ps, _, hps, htokens, rfl⟩
  rw [htokens, List.mem_append, List.mem_singleton] at ht
  rcases ht with ht | rfl
  · exact (hps.holdsLiterals 0 t ht).2 hk
  · cases hk

/-- A text without blanks at its ends that is read as a filter is scanned as that filter, wherever
it stands. -/
theorem writes_of_ofText {text : String} {f : Filter} (h : ofText text = .ok f) :
    Writes Token.IsReadAs .filter text.toList f := by
  rw [ofText] at h
  cases hscan : Token.scan text with
  | error fault =>
      rw [hscan] at h
      cases h
  | ok tokens =>
      rw [hscan] at h
      have hf : ofTokens tokens = .ok f := h
      obtain ⟨hl, ps, stop, hps, rfl, hstop⟩ := exists_of_scan hscan
      have hd := (derives_of_ofTokens hl hf).2
      rw [beforeStop_concat (fun t ht => (hps.holdsLiterals 0 t ht).1) hstop] at hd
      intro position
      exact ⟨Token.ofPieces position ps, hps.scans position, hd.ofPieces position⟩

/-- A text that is parsed is its blanks around a text that is scanned as the filter. -/
theorem exists_of_parse {text : String} {f : Filter} (h : parse text = .ok f) :
    ∃ b s b', Text.AreBlanks b ∧ Text.IsTight s ∧ Text.AreBlanks b' ∧
      text.toList = b ++ (s ++ b') ∧ Writes Token.IsReadAs .filter s f := by
  rw [parse] at h
  split at h
  · cases h
  · rename_i hblank
    obtain ⟨b, b', hb, hb', htight, hsplit⟩ := Text.exists_trim (eq_false_of_ne_true hblank)
    refine ⟨b, _, b', hb, htight, hb', hsplit, writes_of_ofText ?_⟩
    cases htext : ofText (Text.trim text) with
    | ok g =>
        rw [htext] at h
        have hg : g = f := Except.ok.inj h
        rw [hg]
    | error fault =>
        rw [htext] at h
        cases h

theorem Writes.padded {p : Phrase} {b s b' : List Char} {f : Filter} (hb : Text.AreBlanks b)
    (h : Writes Token.IsReadAs p s f) (hb' : Text.AreBlanks b') :
    Writes Token.IsReadAs p (b ++ (s ++ b')) f := by
  intro position
  obtain ⟨ts, hs, hd⟩ := h (position + b.length)
  exact ⟨ts, hs.padded hb hb', hd⟩

/-- A text that is parsed is scanned as the filter wherever it stands. -/
theorem writes_of_parse {text : String} {f : Filter} (h : parse text = .ok f) :
    Writes Token.IsReadAs .filter text.toList f := by
  obtain ⟨b, s, b', hb, -, hb', hsplit, hs⟩ := exists_of_parse h
  rw [hsplit]
  exact hs.padded hb hb'

/-! ### Two filters joined by `or` -/

/-- What stands after an `or` is joined to what stands before it one disjunct after another, which
means that either side holds.  By induction on the phrase that stands after the `or`. -/
theorem Derives.orElse {Value : Token → Scalar → Prop} {ts us : List Token} {t : Token}
    {f g : Filter} (hf : Derives Value .filter ts f) (ht : t.kind = .or)
    (hg : Derives Value .filter us g) :
    ∃ e, Derives Value .filter (ts ++ t :: us) e ∧ ∀ r, e.holds r = (f.holds r || g.holds r) := by
  generalize hp : Phrase.filter = p at hg
  induction hg with
  | conjunction hg => exact ⟨_, .or hf ht hg, fun _ => rfl⟩
  | @or us vs t' left right _ ht' hright ih _ =>
      obtain ⟨e, he, hholds⟩ := ih rfl
      refine ⟨.logical .or e right, ?_, ?_⟩
      · have h := Derives.or he ht' hright
        rwa [List.append_assoc, List.cons_append] at h
      · intro r
        simp only [holds, hholds, Bool.or_assoc]
  | _ => cases hp

/-- Two filters joined by `or` are scanned as a filter for either of them. -/
theorem Writes.scans_orElse {s u : List Char} {f g : Filter} (hs : Writes Token.IsReadAs .filter s f)
    (hu : Writes Token.IsReadAs .filter u g) (position : Nat) :
    ∃ ts e, Token.Scans position (s ++ ' ' :: ("or".toList ++ ' ' :: u)) ts ∧
      Derives Token.IsReadAs .filter ts e ∧ ∀ r, e.holds r = (f.holds r || g.holds r) := by
  have hor : Lexeme.word "or".toList = connectiveLexeme .or := by decide
  obtain ⟨ts, hts, hf⟩ := hs position
  obtain ⟨us, hus, hg⟩ := hu (position + s.length + 1 + "or".toList.length + 1)
  have hword := Token.scans_word (position + s.length + 1) (by decide) hor
  obtain ⟨e, he, hholds⟩ :=
    hf.orElse (t := ⟨.or, "or", (position + s.length + 1 : Nat)⟩) rfl hg
  exact ⟨_, e, hts.joined hword hus, he, hholds⟩

/-- Two texts joined by `or` are a text for either of their filters: the blanks at the outer ends
are trimmed, those at the inner ends are scanned. -/
theorem parse_or {F G : String} {f g : Filter} (hF : parse F = .ok f) (hG : parse G = .ok g) :
    ∃ e, parse (F ++ " or " ++ G) = .ok e ∧ ∀ r, e.holds r = (f.holds r || g.holds r) := by
  obtain ⟨b, s, b', hb, hs, hb', hF, hf⟩ := exists_of_parse hF
  obtain ⟨c, u, c', hc, hu, hc', hG, hg⟩ := exists_of_parse hG
  have hleft : Writes Token.IsReadAs .filter (s ++ b') f := hf.padded Text.areBlanks_nil hb'
  have hright : Writes Token.IsReadAs .filter (c ++ (u ++ [])) g := hg.padded hc Text.areBlanks_nil
  obtain ⟨ts, e, hscan, hd, hholds⟩ := hleft.scans_orElse hright 0
  have htight := hs.append (b' ++ ' ' :: ("or".toList ++ ' ' :: c)) hu
  have hcore : s ++ ((b' ++ ' ' :: ("or".toList ++ ' ' :: c)) ++ u) =
      s ++ b' ++ ' ' :: ("or".toList ++ ' ' :: (c ++ (u ++ []))) := by
    simp
  rw [hcore] at htight
  have htext : String.ofList (b ++ ((s ++ b' ++ ' ' :: ("or".toList ++ ' ' :: (c ++ (u ++ [])))) ++
      c')) = F ++ " or " ++ G := by
    apply String.toList_injective
    simp [hF, hG]
  have hparse := parse_of_scans hb htight hc' hscan hd
  rw [htext] at hparse
  exact ⟨e, hparse, hholds⟩

/-! ### Filters in parentheses and brackets -/

theorem Writes.parse {p : Phrase} {s : List Char} {f : Filter} (h : Writes Token.IsReadAs p s f)
    {text : String} (hs : s = text.toList) (htight : Text.IsTight s) : parse text = .ok f := by
  have hparse := parse_of_writes (h.widen p.rank_le_filter) htight
  rwa [hs, String.ofList_toList] at hparse

theorem parse_and {F G : String} {f g : Filter} (hF : parse F = .ok f) (hG : parse G = .ok g) :
    parse ("(" ++ F ++ ") and (" ++ G ++ ")") = .ok (.logical .and f g) := by
  have hleft := (writes_of_parse hF).group.widen (operand_le_phraseOf .and)
  have hright := (writes_of_parse hG).group
  have hopen : Text.IsTight ['('] := Text.isTight_singleton rfl
  have hclose : Text.IsTight [')'] := Text.isTight_singleton rfl
  have htight := hopen.append (F.toList ++ ") and (".toList ++ G.toList) hclose
  refine (Writes.joined .and hleft hright).parse ?_ ?_
  · simp [Connective.name]
  · simpa [Connective.name] using htight

theorem parse_not {F : String} {f : Filter} (hF : parse F = .ok f) :
    parse ("not (" ++ F ++ ")") = .ok (.not f) := by
  have hn : Text.IsTight ['n'] := Text.isTight_singleton rfl
  have hclose : Text.IsTight [')'] := Text.isTight_singleton rfl
  have htight := hn.append ("ot (".toList ++ F.toList) hclose
  refine (writes_of_parse hF).not.parse ?_ ?_
  · simp
  · simpa using htight

theorem parse_items {path F : String} (hp : isIdentifier path = true) {f : Filter}
    (hF : parse F = .ok f) : parse (path ++ "[" ++ F ++ "]") = .ok (.valuePath path f) := by
  have hclose : Text.IsTight [']'] := Text.isTight_singleton rfl
  have htight := (isTight_identifier hp).append ('[' :: F.toList) hclose
  refine (Writes.items hp (writes_of_parse hF)).parse ?_ ?_
  · simp
  · simpa using htight

/-- A filter on items holds of a resource with an array at the path that has an object of which the
inner filter holds. -/
theorem holds_valuePath_iff {path : String} {f : Filter} {r : Json} :
    (valuePath path f).holds r = true ↔ ∃ items, Path.resolve path r = .array items ∧
      ∃ o, .object o ∈ items ∧ f.holds (.object o) = true := by
  rw [holds]
  split
  · rename_i items hitems
    rw [List.any_eq_true]
    constructor
    · rintro ⟨item, hmem, hitem⟩
      rw [Bool.and_eq_true] at hitem
      cases item with
      | object o => exact ⟨items, hitems, o, hmem, hitem.2⟩
      | _ => cases hitem.1
    · rintro ⟨items', hitems', o, hmem, hholds⟩
      obtain rfl := Json.array.inj (hitems.symm.trans hitems')
      exact ⟨.object o, hmem, by simp [Json.members?, hholds]⟩
  · rename_i hnone
    constructor
    · intro h
      cases h
    · rintro ⟨items, hitems, -⟩
      exact absurd hitems (hnone items)

/-- Texts of filters are put together as their meanings are.  Of two texts that are parsed, the text
with `or` between them holds where one of them does, without parentheses and whatever they are; in
parentheses they are joined by `and` and negated; and in brackets after an identifier a text is
asked of the items there. -/
theorem parse_compositions {F G : String} {f g : Filter} (hF : parse F = .ok f)
    (hG : parse G = .ok g) {path : String} (hp : isIdentifier path = true) :
    ∃ either both negation within,
      parse (F ++ " or " ++ G) = .ok either ∧
      parse ("(" ++ F ++ ") and (" ++ G ++ ")") = .ok both ∧
      parse ("not (" ++ F ++ ")") = .ok negation ∧
      parse (path ++ "[" ++ F ++ "]") = .ok within ∧
      ∀ r, either.holds r = (f.holds r || g.holds r) ∧
        both.holds r = (f.holds r && g.holds r) ∧
        negation.holds r = !f.holds r ∧
        (within.holds r = true ↔ ∃ items, Path.resolve path r = .array items ∧
          ∃ o, .object o ∈ items ∧ f.holds (.object o) = true) := by
  obtain ⟨either, hor, hholds⟩ := parse_or hF hG
  refine ⟨either, _, _, _, hor, parse_and hF hG, parse_not hF, parse_items hp hF, fun r => ?_⟩
  exact ⟨hholds r, rfl, rfl, holds_valuePath_iff⟩

/-- Two disjunctions with blanks around them and a bracket in a quoted text: one `or` is between
them, and two more are inside. -/
theorem parse_compositions_disjunctions :
    ∃ f g, parse " a eq \")]\" or b pr\t" = .ok f ∧
      parse "c gt -1 and not (d pr) or m[e pr ] " = .ok g ∧ isIdentifier "urn:x:y" = true ∧
      ∃ either both negation within,
        parse " a eq \")]\" or b pr\t or c gt -1 and not (d pr) or m[e pr ] " = .ok either ∧
        parse "( a eq \")]\" or b pr\t) and (c gt -1 and not (d pr) or m[e pr ] )" = .ok both ∧
        parse "not ( a eq \")]\" or b pr\t)" = .ok negation ∧
        parse "urn:x:y[ a eq \")]\" or b pr\t]" = .ok within ∧
        ∀ r, either.holds r = (f.holds r || g.holds r) ∧
          both.holds r = (f.holds r && g.holds r) ∧
          negation.holds r = !f.holds r ∧
          (within.holds r = true ↔ ∃ items, Path.resolve "urn:x:y" r = .array items ∧
            ∃ o, .object o ∈ items ∧ f.holds (.object o) = true) := by
  have hF : parse " a eq \")]\" or b pr\t" = .ok (.logical .or
      (.compare "a" .equal (.text ")]")) (.compare "b" .present .null)) := by decide +kernel
  have hG : parse "c gt -1 and not (d pr) or m[e pr ] " = .ok (.logical .or
      (.logical .and (.compare "c" .greater (.number (.integer (-1))))
        (.not (.compare "d" .present .null)))
      (.valuePath "m" (.compare "e" .present .null))) := by decide +kernel
  have hp : isIdentifier "urn:x:y" = true := by decide
  exact ⟨_, _, hF, hG, hp, parse_compositions hF hG hp⟩

end Filter
end ScimQuery
