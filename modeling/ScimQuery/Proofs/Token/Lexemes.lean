import Mathlib.Control.Monad.Basic
import ScimQuery.Proofs.Token.Scanning

/-! # The lexical grammar of filter texts

Which texts are scanned, and as which tokens.  `Lexeme.Stands s rest kind value` says that `s` is a
lexeme where `rest` follows it, and gives the kind and the value of its token:

* a bracket;
* a quoted text, whose characters a backslash may escape (`Quotes`);
* a literal before a blank, a bracket or the end;
* a word that no character of a word follows.

The reader of lexemes reads exactly these (`stands_of_read`, `read_of_stands`), so at most one
stands at the front of a text.  A text is scanned when it is blanks and lexemes in turn
(`Token.Decomposes`), which it is in one way only (`Decomposes.unique`); where scanning fails, what
stands before is scanned and no lexeme follows (`scanFrom_eq_error`). -/

namespace ScimQuery

namespace Lexeme

/-! ### Lexemes -/

/-- `Quotes s t`: between quotes, `s` writes the text `t`. -/
inductive Quotes : List Char → List Char → Prop
  | nil : Quotes [] []
  | ordinary {c : Char} {s t : List Char} :
      c ≠ '"' → c ≠ '\\' → Quotes s t → Quotes (c :: s) (c :: t)
  | escaped (c : Char) {s t : List Char} : Quotes s t → Quotes ('\\' :: c :: s) (c :: t)

/-- Whether a word may end before a text. -/
def EndsWord (rest : List Char) : Prop := ∀ c, rest.head? = some c → inWord c = false

/-- `Stands s rest kind value`: before `rest`, the text `s` is a lexeme, and its token has the kind
and the value. -/
inductive Stands : List Char → List Char → TokenKind → String → Prop
  | bracket {c : Char} {rest : List Char} {kind : TokenKind} :
      bracket? c = some kind → Stands [c] rest kind (String.singleton c)
  | text {s t rest : List Char} :
      Quotes s t → Stands ('"' :: (s ++ ['"'])) rest .text (String.ofList t)
  | number {s rest : List Char} {n : Number} :
      Number.IsLiteral s n → endsNumeral rest = true → Stands s rest .number (String.ofList s)
  | reserved {s rest : List Char} {kind : TokenKind} :
      isWord s = true → EndsWord rest →
      reserved? (String.ofList (s.map Char.toLower)) = some kind →
      Stands s rest kind (String.ofList (s.map Char.toLower))
  | path {s rest : List Char} :
      isWord s = true → EndsWord rest →
      reserved? (String.ofList (s.map Char.toLower)) = none →
      Stands s rest .attribute (String.ofList s)

/-! ### Quoted texts -/

theorem quoted?_of_quotes {s t : List Char} (h : Quotes s t) (rest : List Char) :
    quoted? (s ++ '"' :: rest) = some (t, s.length + 1) := by
  induction h with
  | nil => rfl
  | ordinary _ hslash _ ih => simp [quoted?, hslash, ih]
  | escaped c _ ih => simp [quoted?, ih]

theorem quotes_of_quoted? {s t : List Char} {n : Nat} (h : quoted? s = some (t, n)) :
    ∃ body rest, s = body ++ '"' :: rest ∧ n = body.length + 1 ∧ Quotes body t := by
  fun_induction quoted? s generalizing t n with
  | case1 => cases h
  | case2 rest =>
      simp only [Option.some.injEq, Prod.mk.injEq] at h
      obtain ⟨rfl, rfl⟩ := h
      exact ⟨[], rest, rfl, rfl, .nil⟩
  | case3 c rest ih =>
      obtain ⟨⟨t', n'⟩, hread, he⟩ := Option.map_eq_some_iff.mp h
      simp only [Prod.mk.injEq] at he
      obtain ⟨rfl, rfl⟩ := he
      obtain ⟨body, rest', rfl, rfl, hq⟩ := ih hread
      exact ⟨'\\' :: c :: body, rest', rfl, rfl, .escaped c hq⟩
  | case4 c rest hquote hslash ih =>
      obtain ⟨⟨t', n'⟩, hread, he⟩ := Option.map_eq_some_iff.mp h
      simp only [Prod.mk.injEq] at he
      obtain ⟨rfl, rfl⟩ := he
      obtain ⟨body, rest', rfl, rfl, hq⟩ := ih hread
      refine ⟨c :: body, rest', rfl, rfl, .ordinary hquote ?_ hq⟩
      -- A backslash that nothing follows is read as itself, but then no quote is found.
      rintro rfl
      cases body with
      | nil => exact hslash _ _ rfl rfl
      | cons d body => exact hslash _ _ rfl rfl

/-! ### Literals -/

/-- The fraction at the front of a text is empty, or a point and digits. -/
theorem fraction_cases (s : List Char) :
    fraction s = [] ∨ ∃ digits, Number.AreDigits digits ∧ fraction s = '.' :: digits ∧
      ∃ rest, s = '.' :: digits ++ rest := by
  unfold fraction
  split
  · rename_i rest
    split
    · exact .inl rfl
    · rename_i hne
      refine .inr ⟨_, Number.areDigits_takeWhile (eq_false_of_ne_true hne), rfl,
        rest.dropWhile Number.isDigit, ?_⟩
      rw [List.cons_append, List.takeWhile_append_dropWhile]
  · exact .inl rfl

/-- What is read without a sign is a literal at the front, with any sign before it. -/
theorem isLiteral_of_unsigned? {s n : List Char} (h : unsigned? s = some n) (negative : Bool) :
    (∃ number, Number.IsLiteral (Number.signText negative ++ n) number) ∧ ∃ rest, s = n ++ rest := by
  have hs : s.takeWhile Number.isDigit ++ s.dropWhile Number.isDigit = s :=
    List.takeWhile_append_dropWhile
  simp only [unsigned?] at h
  split at h
  · cases h
  · rename_i hne
    have hw := Number.areDigits_takeWhile (eq_false_of_ne_true hne)
    rw [Option.some.injEq] at h
    subst h
    rcases fraction_cases (s.dropWhile Number.isDigit) with hf | ⟨digits, hd, hf, rest, hrest⟩
    · rw [hf, List.append_nil]
      exact ⟨⟨_, .integer negative hw⟩, _, hs.symm⟩
    · rw [hf]
      refine ⟨⟨_, .decimal negative hw hd⟩, rest, ?_⟩
      rw [List.append_assoc, ← hrest, hs]

theorem isLiteral_of_number? {s n : List Char} (h : number? s = some n) :
    (∃ number, Number.IsLiteral n number) ∧ ∃ rest, s = n ++ rest ∧ endsNumeral rest = true := by
  obtain ⟨hn, hends⟩ := Option.filter_eq_some_iff.mp h
  have hfront : (∃ number, Number.IsLiteral n number) ∧ ∃ rest, s = n ++ rest := by
    unfold numeral? at hn
    split at hn
    · obtain ⟨m, hm, rfl⟩ := Option.map_eq_some_iff.mp hn
      obtain ⟨hl, rest, rfl⟩ := isLiteral_of_unsigned? hm true
      exact ⟨hl, rest, rfl⟩
    · exact isLiteral_of_unsigned? hn false
  obtain ⟨hl, rest, rfl⟩ := hfront
  rw [List.drop_left] at hends
  exact ⟨hl, rest, rfl, hends⟩

/-! ### The reader of lexemes -/

theorem tail_word {s : List Char} : (word s).tail = s.length - 1 := by
  unfold word
  dsimp only
  split
  · rfl
  · rfl

theorem stands_word {s rest : List Char} (hs : isWord s = true) (hr : EndsWord rest) :
    Stands s rest (word s).kind (word s).value := by
  cases h : reserved? (String.ofList (s.map Char.toLower)) with
  | some kind => simpa [word, h] using Stands.reserved hs hr h
  | none => simpa [word, h] using Stands.path hs hr h

/-- What is read at the front of a text is a lexeme that stands there. -/
theorem stands_of_read {position : Nat} {c : Char} {rest : List Char} {l : Lexeme}
    (h : read position c rest = .ok l) :
    ∃ s after, rest = s ++ after ∧ s.length = l.tail ∧ Stands (c :: s) after l.kind l.value := by
  unfold read at h
  split at h
  · rename_i kind hb
    cases h
    exact ⟨[], rest, rfl, rfl, .bracket hb⟩
  · split at h
    · rename_i hc
      subst hc
      split at h
      · rename_i t n hq
        cases h
        obtain ⟨body, after, rfl, rfl, hquotes⟩ := quotes_of_quoted? hq
        exact ⟨body ++ ['"'], after, by simp, by simp, .text hquotes⟩
      · cases h
    · split at h
      · rename_i n hn
        cases h
        obtain ⟨⟨number, hl⟩, after, hsplit, hends⟩ := isLiteral_of_number? hn
        obtain ⟨d, s, rfl, -⟩ := cons_of_isLiteral hl
        rw [List.cons_append, List.cons.injEq] at hsplit
        obtain ⟨rfl, rfl⟩ := hsplit
        exact ⟨s, after, rfl, rfl, .number hl hends⟩
      · split at h
        · rename_i hc
          cases h
          refine ⟨rest.takeWhile inWord, rest.dropWhile inWord, List.takeWhile_append_dropWhile.symm,
            by simp [tail_word], stands_word ?_ ?_⟩
          · have hall : (rest.takeWhile inWord).all inWord = true := List.all_takeWhile
            simp [isWord, hc, hall]
          · intro d hd
            have := List.head?_dropWhile_not inWord rest
            rw [hd] at this
            simpa using this
        · cases h

/-- A lexeme that stands at the front of a text is read there; it does not start with a blank. -/
theorem read_of_stands {s rest : List Char} {kind : TokenKind} {value : String}
    (h : Stands s rest kind value) :
    ∃ c t, s = c :: t ∧ Text.isBlank c = false ∧
      ∀ position, read position c (t ++ rest) = .ok ⟨kind, value, t.length⟩ := by
  have hword : ∀ {kind value}, isWord s = true → EndsWord rest →
      word s = ⟨kind, value, s.length - 1⟩ → ∃ c t, s = c :: t ∧ Text.isBlank c = false ∧
        ∀ position, read position c (t ++ rest) = .ok ⟨kind, value, t.length⟩ := by
    intro kind value hs hr hw
    cases s with
    | nil => cases hs
    | cons c t =>
        simp only [isWord, Bool.and_eq_true, List.all_eq_true] at hs
        have hn := toNat_of_startsWord hs.1
        refine ⟨c, t, rfl, isBlank_eq_false (by omega), fun position => ?_⟩
        rw [read_word position hs.1, (Text.takeWhile_append_of_head hs.2 rest hr).1, hw]
        rfl
  cases h with
  | bracket hb =>
      rename_i c
      have hn := toNat_of_bracket? (c := c) (by simp [hb])
      exact ⟨c, [], rfl, isBlank_eq_false (by omega), fun position => by simp [read, hb]⟩
  | text hq =>
      refine ⟨'"', _, rfl, rfl, fun position => ?_⟩
      have hbracket : bracket? '"' = none := rfl
      rw [List.append_assoc]
      simp [read, hbracket, quoted?_of_quotes hq]
  | number hl hends =>
      obtain ⟨c, t, rfl, hc⟩ := cons_of_isLiteral hl
      refine ⟨c, t, rfl, isBlank_eq_false ?_, fun position => read_literal position hl hends⟩
      rcases hc with rfl | hd
      · decide
      · have := Number.toNat_of_isDigit hd
        omega
  | reserved hs hr hk => exact hword hs hr (by simp [word, hk])
  | path hs hr hk => exact hword hs hr (by simp [word, hk])

/-- At most one lexeme stands at the front of a text. -/
theorem Stands.unique {s s' rest rest' : List Char} {kind kind' : TokenKind} {value value' : String}
    (h : Stands s rest kind value) (h' : Stands s' rest' kind' value')
    (he : s ++ rest = s' ++ rest') : s = s' ∧ rest = rest' ∧ kind = kind' ∧ value = value' := by
  obtain ⟨c, t, rfl, -, hread⟩ := read_of_stands h
  obtain ⟨c', t', rfl, -, hread'⟩ := read_of_stands h'
  simp only [List.cons_append, List.cons.injEq] at he
  obtain ⟨rfl, he⟩ := he
  have hl := hread 0
  rw [he, hread' 0] at hl
  simp only [Except.ok.injEq, Lexeme.mk.injEq] at hl
  obtain ⟨rfl, rfl, hlength⟩ := hl
  obtain ⟨rfl, rfl⟩ := List.append_inj he hlength.symm
  exact ⟨rfl, rfl, rfl, rfl⟩

/-- A lexeme stays one when the text after it is cut off somewhere. -/
theorem Stands.take {s rest : List Char} {kind : TokenKind} {value : String}
    (h : Stands s rest kind value) (n : Nat) : Stands s (rest.take n) kind value := by
  have hword : EndsWord rest → EndsWord (rest.take n) := by
    intro hr c hc
    rw [List.head?_take] at hc
    split at hc
    · cases hc
    · exact hr c hc
  cases h with
  | bracket hb => exact .bracket hb
  | text hq => exact .text hq
  | number hl hends =>
      refine .number hl ?_
      cases rest with
      | nil => simpa using hends
      | cons c rest =>
          cases n with
          | zero => rfl
          | succ n => exact hends
  | reserved hs hr hk => exact .reserved hs (hword hr) hk
  | path hs hr hk => exact .path hs (hword hr) hk

/-- No lexeme is read where a quote stays open or a character starts none. -/
theorem fault_of_read {position : Nat} {c : Char} {rest : List Char} {fault : Filter.Fault}
    (h : read position c rest = .error fault) :
    fault = .unterminated position ∨ fault = .unexpectedCharacter c position := by
  unfold read at h
  split at h
  · cases h
  · split at h
    · split at h
      · cases h
      · cases h
        exact .inl rfl
    · split at h
      · cases h
      · split at h
        · cases h
        · cases h
          exact .inr rfl

theorem position?_of_read {position : Nat} {c : Char} {rest : List Char} {fault : Filter.Fault}
    (h : read position c rest = .error fault) : fault.position? = some position := by
  rcases fault_of_read h with rfl | rfl
  · rfl
  · rfl

end Lexeme

namespace Token

/-! ### Texts as blanks and lexemes -/

/-- A lexeme of a text, after the blanks before it. -/
structure Piece where
  blanks : List Char
  lexeme : List Char
  kind : TokenKind
  value : String

/-- `Decomposes s ps`: the text `s` is the pieces `ps` after one another, and blanks at the end. -/
inductive Decomposes : List Char → List Piece → Prop
  | blanks {s : List Char} : (∀ c ∈ s, Text.isBlank c = true) → Decomposes s []
  | piece {p : Piece} {rest : List Char} {ps : List Piece} :
      (∀ c ∈ p.blanks, Text.isBlank c = true) → Lexeme.Stands p.lexeme rest p.kind p.value →
      Decomposes rest ps → Decomposes (p.blanks ++ (p.lexeme ++ rest)) (p :: ps)

/-- One token for each piece, at the offset of its lexeme. -/
def ofPieces (position : Nat) : List Piece → List Token
  | [] => []
  | p :: ps =>
    ⟨p.kind, p.value, (position + p.blanks.length : Nat)⟩
      :: ofPieces (position + p.blanks.length + p.lexeme.length) ps

/-- A text decomposes in at most one way. -/
theorem Decomposes.unique {s : List Char} {ps qs : List Piece} (hp : Decomposes s ps)
    (hq : Decomposes s qs) : ps = qs := by
  induction hp generalizing qs with
  | @blanks s hs =>
      generalize hu : s = u at hq
      cases hq with
      | blanks _ => rfl
      | piece hb hl _ =>
          -- A lexeme starts with a character that is no blank.
          obtain ⟨c, t, hct, hc, -⟩ := Lexeme.read_of_stands hl
          have := hs c (by rw [hu, hct]; simp)
          rw [hc] at this
          cases this
  | @piece p rest ps hb hl _ ih =>
      obtain ⟨c, t, hct, hc, -⟩ := Lexeme.read_of_stands hl
      generalize hu : p.blanks ++ (p.lexeme ++ rest) = u at hq
      cases hq with
      | blanks hs =>
          have := hs c (by rw [← hu, hct]; simp)
          rw [hc] at this
          cases this
      | @piece q rest' qs hb' hl' hq =>
          obtain ⟨c', t', hct', hc', -⟩ := Lexeme.read_of_stands hl'
          have hfront := Text.takeWhile_append_of_head hb (p.lexeme ++ rest) (by simp [hct, hc])
          have hfront' := Text.takeWhile_append_of_head hb' (q.lexeme ++ rest') (by simp [hct', hc'])
          rw [hu] at hfront
          have hblanks : p.blanks = q.blanks := hfront.1.symm.trans hfront'.1
          have hrest : p.lexeme ++ rest = q.lexeme ++ rest' := hfront.2.symm.trans hfront'.2
          obtain ⟨hlexeme, rfl, hkind, hvalue⟩ := hl.unique hl' hrest
          rw [ih hq]
          congr 1
          cases p
          cases q
          simp_all

/-! ### Scanning -/

theorem scanFrom_blanks {bs : List Char} (hb : ∀ c ∈ bs, Text.isBlank c = true) (position : Nat)
    (rest : List Char) :
    scanFrom position (bs ++ rest) = scanFrom (position + bs.length) rest := by
  induction bs generalizing position with
  | nil => rfl
  | cons c bs ih =>
      rw [List.cons_append, scanFrom_blank (hb c (by simp)), ih fun d hd => hb d (by simp [hd])]
      simp only [List.length_cons]
      congr 1
      omega

theorem scanFrom_stands {s rest : List Char} {kind : TokenKind} {value : String}
    (h : Lexeme.Stands s rest kind value) (position : Nat) :
    scanFrom position (s ++ rest) =
      (scanFrom (position + s.length) rest).map (⟨kind, value, position⟩ :: ·) := by
  obtain ⟨c, t, rfl, hc, hread⟩ := Lexeme.read_of_stands h
  rw [List.cons_append, scanFrom_lexeme hc (hread position), List.drop_left]
  rfl

/-- A text that decomposes is scanned as the tokens of its pieces. -/
theorem scanFrom_of_decomposes {s : List Char} {ps : List Piece} (h : Decomposes s ps)
    (position : Nat) :
    scanFrom position s =
      .ok (ofPieces position ps ++ [⟨.stop, "", (position + s.length : Nat)⟩]) := by
  induction h generalizing position with
  | @blanks s hs =>
      have := scanFrom_blanks hs position []
      rwa [List.append_nil, scanFrom_nil] at this
  | @piece p rest ps hb hl _ ih =>
      rw [scanFrom_blanks hb, scanFrom_stands hl, ih]
      simp only [Except.map, ofPieces, List.cons_append, List.length_append, Nat.add_assoc]

/-- Blanks before a text are blanks before its first piece, or before its end. -/
theorem Decomposes.blank_cons {c : Char} (hc : Text.isBlank c = true) {s : List Char}
    {ps : List Piece} (h : Decomposes s ps) : ∃ qs, Decomposes (c :: s) qs := by
  cases h with
  | blanks hs =>
      refine ⟨[], .blanks fun d hd => ?_⟩
      rcases List.mem_cons.mp hd with rfl | hd
      · exact hc
      · exact hs d hd
  | @piece p rest ps hb hl h =>
      refine ⟨{ p with blanks := c :: p.blanks } :: ps, ?_⟩
      refine Decomposes.piece (p := { p with blanks := c :: p.blanks }) (fun d hd => ?_) hl h
      rcases List.mem_cons.mp hd with rfl | hd
      · exact hc
      · exact hb d hd

/-- A text that is scanned decomposes. -/
theorem decomposes_of_scanFrom {position : Nat} {s : List Char} {ts : List Token}
    (h : scanFrom position s = .ok ts) : ∃ ps, Decomposes s ps := by
  fun_induction scanFrom position s generalizing ts with
  | case1 => exact ⟨[], .blanks (by simp)⟩
  | case2 position c rest hc ih =>
      obtain ⟨ps, hps⟩ := ih h
      exact hps.blank_cons hc
  | case3 position c rest hc ih =>
      cases hread : Lexeme.read position c rest with
      | error fault =>
          rw [hread] at h
          cases h
      | ok l =>
          rw [hread] at h
          cases htail : scanFrom (position + l.width) (rest.drop l.tail) with
          | error fault =>
              simp only [bind, Except.bind, htail] at h
              cases h
          | ok us =>
              obtain ⟨ps, hps⟩ := ih l htail
              obtain ⟨s, after, rfl, hs, hl⟩ := Lexeme.stands_of_read hread
              rw [← hs, List.drop_left] at hps
              exact ⟨_, Decomposes.piece (p := ⟨[], c :: s, l.kind, l.value⟩) (by simp) hl hps⟩

/-- Where scanning fails, the text before is scanned, and no lexeme stands there. -/
theorem scanFrom_eq_error {position : Nat} {s : List Char} {fault : Filter.Fault}
    (h : scanFrom position s = .error fault) :
    ∃ n : Nat, fault.position? = some ((position + n : Nat) : Int) ∧ n < s.length ∧
      (∃ ts, scanFrom position (s.take n) = .ok ts) ∧
      ∀ l rest kind value, s.drop n = l ++ rest → ¬ Lexeme.Stands l rest kind value := by
  fun_induction scanFrom position s with
  | case1 => cases h
  | case2 position c rest hc ih =>
      obtain ⟨n, hp, hn, ⟨ts, hts⟩, hno⟩ := ih h
      refine ⟨n + 1, ?_, by simpa using hn, ⟨ts, ?_⟩, hno⟩
      · rw [hp]
        congr 2
        omega
      · rw [List.take_succ_cons, scanFrom_blank hc, hts]
  | case3 position c rest hc ih =>
      cases hread : Lexeme.read position c rest with
      | error fault' =>
          rw [hread] at h
          cases h
          refine ⟨0, Lexeme.position?_of_read hread, by simp, ⟨_, scanFrom_nil position⟩, ?_⟩
          intro l after kind value hsplit hl
          obtain ⟨d, t, rfl, -, hok⟩ := Lexeme.read_of_stands hl
          rw [List.drop_zero, List.cons_append, List.cons.injEq] at hsplit
          obtain ⟨rfl, rfl⟩ := hsplit
          rw [hok position] at hread
          cases hread
      | ok l =>
          rw [hread] at h
          cases htail : scanFrom (position + l.width) (rest.drop l.tail) with
          | ok us =>
              simp only [bind, Except.bind, htail] at h
              cases h
          | error fault' =>
              simp only [bind, Except.bind, htail, Except.error.injEq] at h
              subst h
              obtain ⟨n, hp, hn, ⟨ts, hts⟩, hno⟩ := ih l htail
              obtain ⟨s, after, rfl, hs, hl⟩ := Lexeme.stands_of_read hread
              have hwidth : l.width = (c :: s).length := by simp [Lexeme.width, hs]
              rw [← hs, List.drop_left] at hn hts hno
              rw [hwidth] at hp hts
              refine ⟨(c :: s).length + n, ?_, ?_, ⟨⟨l.kind, l.value, position⟩ :: ts, ?_⟩, ?_⟩
              · rw [hp, Nat.add_assoc]
              · simp only [List.length_cons, List.length_append]
                omega
              · rw [← List.cons_append, List.take_length_add_append, scanFrom_stands (hl.take n), hts]
                rfl
              · rw [← List.cons_append, List.drop_length_add_append]
                exact hno

/-- Scanning decides the lexical grammar.

* A text is scanned exactly when it is blanks and lexemes in turn, and then as one token for each
  lexeme, at the offset of the lexeme, and a stop at the end.
* It is so in at most one way.
* Where it is refused, what stands before the place that the refusal is about is scanned, and no
  lexeme stands there. -/
theorem scan_decides_lexemes (text : String) :
    (∀ ts, scan text = .ok ts ↔ ∃ ps, Decomposes text.toList ps ∧
      ts = ofPieces 0 ps ++ [⟨.stop, "", text.length⟩]) ∧
    (∀ ps qs, Decomposes text.toList ps → Decomposes text.toList qs → ps = qs) ∧
    (∀ fault, scan text = .error fault → ∃ n : Nat, fault.position? = some (n : Int) ∧
      n < text.length ∧
      (∃ ts, scan (String.ofList (text.toList.take n)) = .ok ts) ∧
      ∀ s rest kind value, text.toList.drop n = s ++ rest →
        ¬ Lexeme.Stands s rest kind value) := by
  refine ⟨fun ts => ⟨fun h => ?_, ?_⟩, fun ps qs hp hq => hp.unique hq, fun fault h => ?_⟩
  · obtain ⟨ps, hps⟩ := decomposes_of_scanFrom h
    refine ⟨ps, hps, ?_⟩
    have hscan := scanFrom_of_decomposes hps 0
    rw [scan, hscan, Except.ok.injEq, Nat.zero_add, String.length_toList] at h
    exact h.symm
  · rintro ⟨ps, hps, rfl⟩
    rw [scan, scanFrom_of_decomposes hps 0, Nat.zero_add, String.length_toList]
  · obtain ⟨n, hp, hn, hts, hno⟩ := scanFrom_eq_error h
    rw [Nat.zero_add] at hp
    rw [String.length_toList] at hn
    refine ⟨n, hp, hn, ?_, hno⟩
    rw [scan, String.toList_ofList]
    exact hts

/-- A quote that is never closed is refused where it opens, after two lexemes. -/
theorem scan_decides_lexemes_open_quote :
    scan "not(\"a\\\"" = .error (.unterminated 4) ∧
      (∃ ts, scan "not(" = .ok ts) ∧
      ∀ s rest kind value, "\"a\\\"".toList = s ++ rest → ¬ Lexeme.Stands s rest kind value := by
  have hscan : scan "not(\"a\\\"" = .error (.unterminated 4) := by decide +kernel
  obtain ⟨n, hp, -, hts, hno⟩ := (scan_decides_lexemes "not(\"a\\\"").2.2 _ hscan
  have hn : (4 : Int) = n := Option.some.inj hp
  obtain rfl : n = 4 := by omega
  exact ⟨hscan, hts, hno⟩

end Token
end ScimQuery
