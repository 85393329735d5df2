import ScimQuery.Listing
import ScimQuery.Proofs.Filter.Grammar

/-! # Scanning a text piece by piece

`Token.Scans p s ts` says that the text `s`, at position `p` and before a blank, a bracket or the
end, is scanned as the tokens `ts`.  Pieces are put together after one another where the second
starts with a blank or a bracket (`Scans.append`), around a word (`Scans.joined`), and between
brackets (`Scans.enclosed`).  The pieces that are one lexeme are words
(`scans_word`), literals (`scans_literal`) and quoted texts (`scans_text`). -/

namespace ScimQuery

namespace Lexeme

/-- Whether a text is one word. -/
def isWord : List Char → Bool
  | [] => false
  | c :: s => startsWord c && s.all inWord

/-! ### Classes of characters -/

theorem toNat_of_isAlpha {c : Char} (h : c.isAlpha = true) :
    (65 ≤ c.toNat ∧ c.toNat ≤ 90) ∨ (97 ≤ c.toNat ∧ c.toNat ≤ 122) := by
  rcases Bool.or_eq_true_iff.mp h with hu | hl
  · obtain ⟨h1, h2⟩ := of_decide_eq_true hu
    exact .inl ⟨h1, h2⟩
  · obtain ⟨h1, h2⟩ := Bool.and_eq_true_iff.mp hl
    exact .inr ⟨of_decide_eq_true h1, of_decide_eq_true h2⟩

/-- A character of a word is a hyphen, a point, a digit, a colon, a letter or an underscore. -/
theorem toNat_of_inWord {c : Char} (h : inWord c = true) :
    c.toNat = 45 ∨ c.toNat = 46 ∨ (48 ≤ c.toNat ∧ c.toNat ≤ 58) ∨
      (65 ≤ c.toNat ∧ c.toNat ≤ 90) ∨ c.toNat = 95 ∨ (97 ≤ c.toNat ∧ c.toNat ≤ 122) := by
  simp only [inWord, Bool.or_eq_true, beq_iff_eq] at h
  rcases h with (((h | rfl) | rfl) | rfl) | rfl
  · rcases Bool.or_eq_true_iff.mp h with ha | hd
    · have := toNat_of_isAlpha ha
      omega
    · obtain ⟨h1, h2⟩ := Bool.and_eq_true_iff.mp hd
      have h1 : 48 ≤ c.toNat := of_decide_eq_true h1
      have h2 : c.toNat ≤ 57 := of_decide_eq_true h2
      omega
  · decide
  · decide
  · decide
  · decide

theorem inWord_of_startsWord {c : Char} (h : startsWord c = true) : inWord c = true := by
  simp only [startsWord, inWord, Bool.or_eq_true] at h ⊢
  rcases h with (h | h) | h
  · exact .inl (.inl (.inl (.inl (Bool.or_eq_true_iff.mpr (.inl h)))))
  · exact .inl (.inl (.inl (.inr h)))
  · exact .inl (.inr h)

/-- A word starts with a letter, an underscore or a colon. -/
theorem toNat_of_startsWord {c : Char} (h : startsWord c = true) :
    c.toNat = 58 ∨ (65 ≤ c.toNat ∧ c.toNat ≤ 90) ∨ c.toNat = 95 ∨
      (97 ≤ c.toNat ∧ c.toNat ≤ 122) := by
  simp only [startsWord, Bool.or_eq_true, beq_iff_eq] at h
  rcases h with (h | rfl) | rfl
  · have := toNat_of_isAlpha h
    omega
  · decide
  · decide

/-- A bracket is one of four characters. -/
theorem toNat_of_bracket? {c : Char} (h : (bracket? c).isSome = true) :
    c.toNat = 40 ∨ c.toNat = 41 ∨ c.toNat = 91 ∨ c.toNat = 93 := by
  unfold bracket? at h
  split at h
  · decide
  · decide
  · decide
  · decide
  · cases h

/-- A blank is none of the characters of words, literals, quotes and brackets. -/
theorem toNat_of_isBlank {c : Char} (h : Text.isBlank c = true) : c.toNat ≤ 32 ∨ 133 ≤ c.toNat := by
  simp only [Text.isBlank, Bool.or_eq_true, Bool.and_eq_true, decide_eq_true_eq, beq_iff_eq] at h
  omega

theorem bracket?_eq_none {c : Char} (h : ¬ (c.toNat = 40 ∨ c.toNat = 41 ∨ c.toNat = 91 ∨ c.toNat = 93)) :
    bracket? c = none := by
  cases hb : bracket? c with
  | none => rfl
  | some kind => exact absurd (toNat_of_bracket? (by simp [hb])) h

theorem isBlank_eq_false {c : Char} (h : 32 < c.toNat ∧ c.toNat < 133) : Text.isBlank c = false := by
  cases hb : Text.isBlank c with
  | false => rfl
  | true =>
      have := toNat_of_isBlank hb
      omega

theorem ne_quote {c : Char} (h : 34 < c.toNat) : c ≠ '"' := by
  rintro rfl
  exact absurd h (by decide)

/-- What ends a literal starts with a blank or a bracket, so with none of the characters that a
word or a literal goes on with. -/
theorem head_of_endsNumeral {rest : List Char} (h : endsNumeral rest = true) :
    ∀ c, rest.head? = some c → inWord c = false ∧ Number.isDigit c = false ∧ c ≠ '.' := by
  intro c hc
  cases rest with
  | nil => cases hc
  | cons d rest =>
      obtain rfl : d = c := by simpa using hc
      have hd : d.toNat ≤ 32 ∨ 133 ≤ d.toNat ∨ d.toNat = 40 ∨ d.toNat = 41 ∨ d.toNat = 91 ∨
          d.toNat = 93 := by
        simp only [endsNumeral, Bool.or_eq_true] at h
        rcases h with h | h
        · rcases toNat_of_isBlank h with h | h
          · exact .inl h
          · exact .inr (.inl h)
        · exact .inr (.inr (toNat_of_bracket? h))
      refine ⟨?_, ?_, ?_⟩
      · refine eq_false_of_ne_true fun hw => ?_
        have := toNat_of_inWord hw
        omega
      · refine eq_false_of_ne_true fun hw => ?_
        have := Number.toNat_of_isDigit hw
        omega
      · rintro rfl
        have hpoint : '.'.toNat = 46 := by decide
        omega

/-! ### Lexemes at the front of a text -/

theorem unsigned?_integer {whole rest : List Char} (hw : Number.AreDigits whole)
    (hr : endsNumeral rest = true) : unsigned? (whole ++ rest) = some whole := by
  have hhead := head_of_endsNumeral hr
  obtain ⟨ht, hd⟩ := Text.takeWhile_append_of_head hw.2 rest fun c hc => (hhead c hc).2.1
  have hfraction : fraction rest = [] := by
    unfold fraction
    split
    · exact absurd rfl (hhead '.' rfl).2.2
    · rfl
  simp [unsigned?, ht, hd, hfraction, hw.1]

theorem unsigned?_decimal {whole digits rest : List Char} (hw : Number.AreDigits whole)
    (hf : Number.AreDigits digits) (hr : endsNumeral rest = true) :
    unsigned? (whole ++ '.' :: digits ++ rest) = some (whole ++ '.' :: digits) := by
  have hhead := head_of_endsNumeral hr
  obtain ⟨ht, hd⟩ := Text.takeWhile_append_of_head hw.2 ('.' :: (digits ++ rest)) (by
    intro c hc
    obtain rfl : '.' = c := by simpa using hc
    exact Number.isDigit_point)
  obtain ⟨htf, _⟩ := Text.takeWhile_append_of_head hf.2 rest fun c hc => (hhead c hc).2.1
  have hfraction : fraction ('.' :: (digits ++ rest)) = '.' :: digits := by
    simp [fraction, htf, hf.1]
  have happend : whole ++ '.' :: digits ++ rest = whole ++ '.' :: (digits ++ rest) := by simp
  rw [happend]
  simp [unsigned?, ht, hd, hfraction, hw.1]

/-- A literal is the numeral at the front of a text that goes on with what may end one. -/
theorem numeral?_of_isLiteral {s rest : List Char} {n : Number} (h : Number.IsLiteral s n)
    (hr : endsNumeral rest = true) : numeral? (s ++ rest) = some s := by
  have hunsigned : ∀ {t : List Char}, unsigned? (t ++ rest) = some t →
      (∀ c, t.head? = some c → Number.isDigit c = true) → t ≠ [] → ∀ negative,
      numeral? (Number.signText negative ++ t ++ rest) = some (Number.signText negative ++ t) := by
    intro t ht hhead hne negative
    cases negative with
    | true => simp [Number.signText, numeral?, ht]
    | false =>
        cases t with
        | nil => exact absurd rfl hne
        | cons c t =>
            have hc : c ≠ '-' := by
              rintro rfl
              exact absurd (hhead '-' rfl) (by simp [Number.isDigit_minus])
            simp only [Number.signText, Bool.false_eq_true, if_false, List.nil_append,
              List.cons_append] at ht ⊢
            unfold numeral?
            split
            · rename_i heq
              simp only [List.cons.injEq] at heq
              exact absurd heq.1 hc
            · exact ht
  cases h with
  | integer negative hw =>
      exact hunsigned (unsigned?_integer hw hr) (fun c hc => hw.2 c (List.mem_of_head? hc)) hw.1 _
  | @decimal negative whole digits hw hf =>
      refine hunsigned (unsigned?_decimal hw hf hr) (fun c hc => ?_) (by simp) _
      cases whole with
      | nil => exact absurd rfl hw.1
      | cons d whole =>
          obtain rfl : d = c := by simpa using hc
          exact hw.2 d (by simp)

theorem number?_of_isLiteral {s rest : List Char} {n : Number} (h : Number.IsLiteral s n)
    (hr : endsNumeral rest = true) : number? (s ++ rest) = some s := by
  simp [number?, numeral?_of_isLiteral h hr, hr]

/-- A literal starts with a digit or a minus sign. -/
theorem cons_of_isLiteral {s : List Char} {n : Number} (h : Number.IsLiteral s n) :
    ∃ c t, s = c :: t ∧ (c = '-' ∨ Number.isDigit c = true) := by
  have hsign : ∀ negative {whole : List Char} (rest : List Char), Number.AreDigits whole →
      ∃ c t, Number.signText negative ++ (whole ++ rest) = c :: t ∧
        (c = '-' ∨ Number.isDigit c = true) := by
    intro negative whole rest hw
    cases negative with
    | true => exact ⟨'-', whole ++ rest, rfl, .inl rfl⟩
    | false =>
        cases whole with
        | nil => exact absurd rfl hw.1
        | cons c whole => exact ⟨c, whole ++ rest, rfl, .inr (hw.2 c (by simp))⟩
  cases h with
  | @integer negative whole hw =>
      have := hsign negative [] hw
      rwa [List.append_nil] at this
  | decimal negative hw _ => exact hsign negative _ hw

/-- No numeral starts with a character that is neither a digit nor a minus sign. -/
theorem number?_eq_none {c : Char} (hc : c ≠ '-') (hd : Number.isDigit c = false)
    (rest : List Char) : number? (c :: rest) = none := by
  have hn : numeral? (c :: rest) = none := by
    unfold numeral?
    split
    · rename_i heq
      simp only [List.cons.injEq] at heq
      exact absurd heq.1 hc
    · simp [unsigned?, hd]
  simp [number?, hn]

/-- A quoted text is read back from its escaped form. -/
theorem quoted?_escape (s rest : List Char) :
    quoted? (Listing.escape s ++ '"' :: rest) = some (s, (Listing.escape s).length + 1) := by
  induction s with
  | nil => rfl
  | cons c s ih =>
      have hcons : Listing.escape (c :: s) =
          (if c = '\\' ∨ c = '"' then ['\\', c] else [c]) ++ Listing.escape s := rfl
      rw [hcons]
      by_cases hc : c = '\\' ∨ c = '"'
      · rw [if_pos hc]
        simp [quoted?, ih]
      · rw [if_neg hc]
        have hslash : c ≠ '\\' := fun h => hc (.inl h)
        have hquote : c ≠ '"' := fun h => hc (.inr h)
        simp [quoted?, ih, hslash]

/-! ### Reading one lexeme -/

/-- The word at the front of a text. -/
theorem read_word (position : Nat) {c : Char} (hc : startsWord c = true) (rest : List Char) :
    read position c rest = .ok (word (c :: rest.takeWhile inWord)) := by
  have hn := toNat_of_startsWord hc
  have hbracket : bracket? c = none := bracket?_eq_none (by omega)
  have hquote : c ≠ '"' := ne_quote (by omega)
  have hminus : c ≠ '-' := by
    rintro rfl
    have : '-'.toNat = 45 := by decide
    omega
  have hdigit : Number.isDigit c = false := by
    refine eq_false_of_ne_true fun hd => ?_
    have := Number.toNat_of_isDigit hd
    omega
  simp [read, hbracket, hquote, number?_eq_none hminus hdigit, hc]

/-- The literal at the front of a text that goes on with what may end one. -/
theorem read_literal (position : Nat) {c : Char} {s rest : List Char} {n : Number}
    (h : Number.IsLiteral (c :: s) n) (hr : endsNumeral rest = true) :
    read position c (s ++ rest) = .ok ⟨.number, String.ofList (c :: s), s.length⟩ := by
  have hn : c = '-' ∨ Number.isDigit c = true := by
    obtain ⟨d, t, heq, hd⟩ := cons_of_isLiteral h
    simp only [List.cons.injEq] at heq
    exact heq.1 ▸ hd
  have hnat : c.toNat = 45 ∨ (48 ≤ c.toNat ∧ c.toNat ≤ 57) := by
    rcases hn with rfl | hd
    · decide
    · exact .inr (Number.toNat_of_isDigit hd)
  have hbracket : bracket? c = none := bracket?_eq_none (by omega)
  have hquote : c ≠ '"' := ne_quote (by omega)
  have hnumber := number?_of_isLiteral h hr
  rw [List.cons_append] at hnumber
  simp [read, hbracket, hquote, hnumber]

/-- The quoted text at the front of a text. -/
theorem read_text (position : Nat) (s rest : List Char) :
    read position '"' (Listing.escape s ++ '"' :: rest) =
      .ok ⟨.text, String.ofList s, (Listing.escape s).length + 1⟩ := by
  have hbracket : bracket? '"' = none := rfl
  simp [read, hbracket, quoted?_escape]

end Lexeme

namespace Token

/-! ### Recursion equations -/

theorem scanFrom_nil (position : Nat) : scanFrom position [] = .ok [⟨.stop, "", position⟩] := by
  rw [scanFrom]

theorem scanFrom_blank {c : Char} (hc : Text.isBlank c = true) (position : Nat) (rest : List Char) :
    scanFrom position (c :: rest) = scanFrom (position + 1) rest := by
  rw [scanFrom, if_pos hc]

theorem scanFrom_lexeme {position : Nat} {c : Char} {rest : List Char} {l : Lexeme}
    (hc : Text.isBlank c = false) (h : Lexeme.read position c rest = .ok l) :
    scanFrom position (c :: rest) =
      (scanFrom (position + l.width) (rest.drop l.tail)).map (⟨l.kind, l.value, position⟩ :: ·) := by
  rw [scanFrom, if_neg (by simp [hc]), h]
  simp only [bind, Except.bind, pure, Except.pure]
  cases scanFrom (position + l.width) (rest.drop l.tail) with
  | ok ts => rfl
  | error fault => rfl

/-! ### Pieces of a text -/

/-- `Scans p s ts`: the text `s`, at position `p` and before a blank, a bracket or the end, is
scanned as the tokens `ts`. -/
def Scans (position : Nat) (s : List Char) (ts : List Token) : Prop :=
  ∀ rest, Lexeme.endsNumeral rest = true →
    scanFrom position (s ++ rest) = (scanFrom (position + s.length) rest).map (ts ++ ·)

theorem scanFrom_of_scans {position : Nat} {s : List Char} {ts : List Token}
    (h : Scans position s ts) :
    scanFrom position s = .ok (ts ++ [⟨.stop, "", (position + s.length : Nat)⟩]) := by
  have h := h [] rfl
  rw [List.append_nil, scanFrom_nil] at h
  exact h

theorem Scans.nil (position : Nat) : Scans position [] [] := by
  intro rest _
  cases h : scanFrom position rest with
  | ok ts => simp [h, Except.map]
  | error fault => simp [h, Except.map]

/-- One piece and, after it, a piece that starts with a blank or a bracket. -/
theorem Scans.append {position : Nat} {s u : List Char} {ts us : List Token}
    (hs : Scans position s ts) (hu : Scans (position + s.length) u us)
    (hend : Lexeme.endsNumeral u = true) : Scans position (s ++ u) (ts ++ us) := by
  intro rest hr
  have hends : Lexeme.endsNumeral (u ++ rest) = true := by
    cases u with
    | nil => exact hr
    | cons c u => exact hend
  rw [List.append_assoc, hs _ hends, hu _ hr, List.length_append, Nat.add_assoc]
  cases scanFrom (position + (s.length + u.length)) rest with
  | ok vs => simp [Except.map]
  | error fault => rfl

/-- A blank before a piece. -/
theorem Scans.blank_cons {position : Nat} {s : List Char} {ts : List Token}
    (hs : Scans (position + 1) s ts) : Scans position (' ' :: s) ts := by
  intro rest hr
  rw [List.cons_append, scanFrom_blank rfl, hs _ hr, List.length_cons]
  congr 2
  omega

/-- A bracket before a piece. -/
theorem Scans.bracket_cons {position : Nat} {c : Char} {kind : TokenKind} {s : List Char}
    {ts : List Token} (hc : Lexeme.bracket? c = some kind) (hs : Scans (position + 1) s ts) :
    Scans position (c :: s) (⟨kind, String.singleton c, position⟩ :: ts) := by
  intro rest hr
  have hread : Lexeme.read position c (s ++ rest) = .ok ⟨kind, String.singleton c, 0⟩ := by
    simp [Lexeme.read, hc]
  have hblank : Text.isBlank c = false := by
    refine Lexeme.isBlank_eq_false ?_
    have := Lexeme.toNat_of_bracket? (c := c) (by simp [hc])
    omega
  rw [List.cons_append, scanFrom_lexeme hblank hread]
  simp only [Lexeme.width, Nat.zero_add, List.drop_zero, List.length_cons]
  rw [hs _ hr, Nat.add_assoc, Nat.add_comm 1]
  cases scanFrom (position + (s.length + 1)) rest with
  | ok vs => rfl
  | error fault => rfl

/-- Two pieces around a piece of one token, with blanks between them. -/
theorem Scans.joined {position : Nat} {s w u : List Char} {ts us : List Token} {t : Token}
    (hs : Scans position s ts) (hw : Scans (position + s.length + 1) w [t])
    (hu : Scans (position + s.length + 1 + w.length + 1) u us) :
    Scans position (s ++ ' ' :: (w ++ ' ' :: u)) (ts ++ t :: us) := by
  have hwu : Scans (position + s.length + 1) (w ++ ' ' :: u) ([t] ++ us) :=
    hw.append hu.blank_cons rfl
  exact hs.append hwu.blank_cons rfl

/-- A piece between brackets. -/
theorem Scans.enclosed {position : Nat} {o c : Char} {opening closing : TokenKind} {s : List Char}
    {ts : List Token} (ho : Lexeme.bracket? o = some opening)
    (hc : Lexeme.bracket? c = some closing) (hs : Scans (position + 1) s ts) :
    Scans position (o :: (s ++ [c])) (⟨opening, String.singleton o, position⟩ ::
      (ts ++ [⟨closing, String.singleton c, (position + 1 + s.length : Nat)⟩])) := by
  have hend : Lexeme.endsNumeral [c] = true := by simp [Lexeme.endsNumeral, hc]
  have hclose := (Scans.nil (position + 1 + s.length + 1)).bracket_cons hc
  exact (hs.append hclose hend).bracket_cons ho

/-! ### Pieces of one lexeme -/

theorem scans_lexeme {position : Nat} {c : Char} {s : List Char} {l : Lexeme}
    (hc : Text.isBlank c = false)
    (hread : ∀ rest, Lexeme.endsNumeral rest = true → Lexeme.read position c (s ++ rest) = .ok l)
    (htail : l.tail = s.length) : Scans position (c :: s) [⟨l.kind, l.value, position⟩] := by
  intro rest hr
  rw [List.cons_append, scanFrom_lexeme hc (hread rest hr), htail, List.drop_left]
  simp only [Lexeme.width, htail, List.length_cons]
  rfl

theorem scans_word (position : Nat) {s : List Char} {l : Lexeme} (hs : Lexeme.isWord s = true)
    (hl : Lexeme.word s = l) : Scans position s [⟨l.kind, l.value, position⟩] := by
  subst hl
  cases s with
  | nil => cases hs
  | cons c s =>
      simp only [Lexeme.isWord, Bool.and_eq_true, List.all_eq_true] at hs
      have hn := Lexeme.toNat_of_startsWord hs.1
      refine scans_lexeme (Lexeme.isBlank_eq_false (by omega)) (fun rest hr => ?_) ?_
      · rw [Lexeme.read_word position hs.1]
        have hhead := Lexeme.head_of_endsNumeral hr
        rw [(Text.takeWhile_append_of_head hs.2 rest fun d hd => (hhead d hd).1).1]
      · unfold Lexeme.word
        dsimp only
        split
        · rfl
        · rfl

theorem scans_literal (position : Nat) {s : List Char} {n : Number} (h : Number.IsLiteral s n) :
    Scans position s [⟨.number, String.ofList s, position⟩] := by
  obtain ⟨c, t, rfl, hc⟩ := Lexeme.cons_of_isLiteral h
  refine scans_lexeme (Lexeme.isBlank_eq_false ?_)
    (fun rest hr => Lexeme.read_literal position h hr) rfl
  rcases hc with rfl | hd
  · decide
  · have := Number.toNat_of_isDigit hd
    omega

theorem scans_text (position : Nat) (s : List Char) :
    Scans position ('"' :: (Listing.escape s ++ ['"'])) [⟨.text, String.ofList s, position⟩] := by
  refine scans_lexeme (l := ⟨.text, String.ofList s, (Listing.escape s).length + 1⟩) rfl
    (fun rest _ => ?_) (by simp)
  rw [List.append_assoc]
  exact Lexeme.read_text position s rest

end Token
end ScimQuery
