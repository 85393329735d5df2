import ScimQuery.Proofs.Filter.Machine
import ScimQuery.Proofs.Text.Trimming
import ScimQuery.Proofs.Token.Scanning

/-! # Writing filters

`Filter.render` writes a filter with as few parentheses as the grammar allows: around a disjunction
that a conjunction joins, and around a right side that is joined by the same connective.  Filters
whose paths are identifiers and whose values are texts, integers, truth values or `null` have such
a text (`Filter.isRenderable`).

`Writes Value p s f` says that the text `s` is scanned, wherever it stands, as a phrase of kind `p`
for the filter `f`.  There is one lemma for each rule of the grammar, and `writes_written` puts them
together by induction on the filter: each side of a connective is a phrase of the kind that its rule
wants, with its parentheses or without them.  No text of a filter has blanks at its ends
(`isTight_written`), so trimming leaves it alone and `parse` undoes `render`, unless an integer has too
many digits (`parse_render`). -/

namespace ScimQuery

/-! ### Texts of filters -/

/-- The text of a value.  Doubles have none. -/
def Scalar.written : Scalar → List Char
  | .null => "null".toList
  | .bool true => "true".toList
  | .bool false => "false".toList
  | .number (.integer n) => (toString n).toList
  | .number (.double _) => []
  | .text s => '"' :: (Listing.escape s.toList ++ ['"'])

namespace Filter

/-- A text, in parentheses if they are needed. -/
def grouped (needed : Bool) (s : List Char) : List Char :=
  if needed then '(' :: (s ++ [')']) else s

/-- Whether a filter is a disjunction that a conjunction joins. -/
def bindsLooser (op : Connective) : Filter → Bool
  | .logical inner _ _ => op == .and && inner == .or
  | _ => false

/-- Whether a filter is joined by a given connective. -/
def joinedBy (op : Connective) : Filter → Bool
  | .logical inner _ _ => inner == op
  | _ => false

/-- The characters of the text of a filter. -/
def written : Filter → List Char
  | .compare path op value =>
    if op = .present then path.toList ++ " pr".toList
    else path.toList ++ ' ' :: (op.name.toList ++ ' ' :: value.written)
  | .logical op left right =>
    grouped (left.bindsLooser op) left.written ++
      ' ' :: (op.name.toList ++
        ' ' :: grouped (right.bindsLooser op || right.joinedBy op) right.written)
  | .not inner => "not (".toList ++ (inner.written ++ [')'])
  | .valuePath path inner => path.toList ++ '[' :: (inner.written ++ [']'])
  | .unrecognized => []

/-- The text of a filter. -/
def render (f : Filter) : String := String.ofList f.written

/-! ### Filters that have a text -/

/-- The operators that compare with a value. -/
def comparisons : List Operator := [
  .equal, .notEqual, .contains, .startsWith, .endsWith, .greater, .greaterOrEqual, .less,
  .lessOrEqual]

/-- Whether a text is an identifier: a word that is no keyword and no operator, in any case. -/
def isIdentifier (path : String) : Bool :=
  Lexeme.isWord path.toList &&
    (Lexeme.reserved? (String.ofList (path.toList.map Char.toLower))).isNone

/-- Whether an operator may stand with a value: a test for presence has none, and no value is a
double. -/
def isTest : Operator → Scalar → Bool
  | .present, value => value == .null
  | _, .number (.double _) => false
  | op, _ => comparisons.contains op

/-- Whether a filter has a text. -/
def isRenderable : Filter → Bool
  | .compare path op value => isIdentifier path && isTest op value
  | .logical _ left right => left.isRenderable && right.isRenderable
  | .not inner => inner.isRenderable
  | .valuePath path inner => isIdentifier path && inner.isRenderable
  | .unrecognized => false

end Filter

namespace Number

/-- No character of a literal is a blank. -/
theorem IsLiteral.isTight {s : List Char} {n : Number} (h : IsLiteral s n) : Text.IsTight s := by
  obtain ⟨c, t, rfl, -⟩ := Lexeme.cons_of_isLiteral h
  refine Text.isTight_of_forall (List.cons_ne_nil c t) fun d hd => Lexeme.isBlank_eq_false ?_
  have := h.toNat_of_mem hd
  omega

end Number

/-! ### Written values -/

namespace Scalar

/-- Whether a value is an integer of too many digits. -/
def IsOverlong : Scalar → Prop
  | .number (.integer n) => 10 ^ Number.digitLimit ≤ n.natAbs
  | _ => False

instance : DecidablePred IsOverlong
  | .number (.integer n) => inferInstanceAs (Decidable (10 ^ Number.digitLimit ≤ n.natAbs))
  | .number (.double _) => inferInstanceAs (Decidable False)
  | .null => inferInstanceAs (Decidable False)
  | .bool _ => inferInstanceAs (Decidable False)
  | .text _ => inferInstanceAs (Decidable False)

/-- The text of a value is scanned as one token that is the value, and has too many digits if the value
has. -/
theorem scans_written {v : Scalar} (hv : ∀ d, v ≠ .number (.double d)) (position : Nat) :
    ∃ t, Token.Scans position v.written [t] ∧ t.Denotes v ∧ (t.IsOverlong ↔ v.IsOverlong) := by
  have hother {t : Token} (ht : t.kind ≠ .number) : t.IsOverlong ↔ False :=
    iff_false_intro fun ho => ht ho.1
  cases v with
  | null =>
      have hl : Lexeme.word "null".toList = ⟨.null, "null", 3⟩ := by decide
      exact ⟨_, Token.scans_word position (by decide) hl, .null rfl, hother (by simp)⟩
  | bool b =>
      cases b with
      | true =>
          have hl : Lexeme.word "true".toList = ⟨.truth, "true", 3⟩ := by decide
          exact ⟨_, Token.scans_word position (by decide) hl, .truth rfl, hother (by simp)⟩
      | false =>
          have hl : Lexeme.word "false".toList = ⟨.truth, "false", 4⟩ := by decide
          exact ⟨_, Token.scans_word position (by decide) hl, .truth rfl, hother (by simp)⟩
  | number n =>
      cases n with
      | double d => exact absurd rfl (hv d)
      | integer n =>
          have hscan := Token.scans_literal position (Number.isLiteral_toString n)
          rw [String.ofList_toList] at hscan
          refine ⟨_, hscan, .number rfl (Number.isLiteral_toString n), ?_⟩
          exact (and_iff_right rfl).trans (Number.isOverlong_toString_iff (by decide) n)
  | text s =>
      refine ⟨_, Token.scans_text position s.toList, ?_, hother (by simp)⟩
      rw [String.ofList_toList]
      exact .text rfl

end Scalar

theorem Lexeme.inWord_of_isWord {s : List Char} (h : isWord s = true) :
    s ≠ [] ∧ ∀ c ∈ s, inWord c = true := by
  cases s with
  | nil => cases h
  | cons c s =>
      simp only [isWord, Bool.and_eq_true, List.all_eq_true] at h
      refine ⟨List.cons_ne_nil c s, fun d hd => ?_⟩
      rcases List.mem_cons.mp hd with rfl | hd
      · exact inWord_of_startsWord h.1
      · exact h.2 d hd

theorem Lexeme.isTight_of_isWord {s : List Char} (h : isWord s = true) : Text.IsTight s := by
  obtain ⟨hne, hword⟩ := inWord_of_isWord h
  refine Text.isTight_of_forall hne fun c hc => isBlank_eq_false ?_
  have := toNat_of_inWord (hword c hc)
  omega

theorem Scalar.isTight_written {v : Scalar} (hv : ∀ d, v ≠ .number (.double d)) :
    Text.IsTight v.written := by
  cases v with
  | null => exact Lexeme.isTight_of_isWord (by decide)
  | bool b =>
      cases b with
      | true => exact Lexeme.isTight_of_isWord (by decide)
      | false => exact Lexeme.isTight_of_isWord (by decide)
  | number n =>
      cases n with
      | double d => exact absurd rfl (hv d)
      | integer n => exact (Number.isLiteral_toString n).isTight
  | text s =>
      have hquote : Text.IsTight ['"'] := Text.isTight_singleton rfl
      exact hquote.append (Listing.escape s.toList) hquote

namespace Filter

/-! ### Written phrases -/

/-- How wide a phrase is: every phrase is also one of the wider kinds. -/
def Phrase.rank : Phrase → Nat
  | .comparison => 0
  | .operand => 1
  | .conjunction => 2
  | .filter => 3

theorem Phrase.rank_le_filter (p : Phrase) : p.rank ≤ Phrase.filter.rank := by
  cases p <;> decide

variable {Value : Token → Scalar → Prop}

theorem Derives.widen {p q : Phrase} {ts : List Token} {f : Filter} (h : Derives Value p ts f)
    (hpq : p.rank ≤ q.rank) : Derives Value q ts f := by
  cases p with
  | comparison =>
      cases q with
      | comparison => exact h
      | operand => exact .comparison h
      | conjunction => exact .operand (.comparison h)
      | filter => exact .conjunction (.operand (.comparison h))
  | operand =>
      cases q with
      | comparison => exact absurd hpq (by decide)
      | operand => exact h
      | conjunction => exact .operand h
      | filter => exact .conjunction (.operand h)
  | conjunction =>
      cases q with
      | conjunction => exact h
      | filter => exact .conjunction h
      | _ => exact absurd hpq (by decide)
  | filter =>
      cases q with
      | filter => exact h
      | _ => exact absurd hpq (by decide)

/-- The kind of phrase that a connective makes, and that its left side is. -/
def phraseOf : Connective → Phrase
  | .and => .conjunction
  | .or => .filter

/-- The kind of phrase that the right side of a connective is. -/
def sideOf : Connective → Phrase
  | .and => .operand
  | .or => .conjunction

theorem operand_le_phraseOf (op : Connective) : Phrase.operand.rank ≤ (phraseOf op).rank := by
  cases op <;> decide

theorem operand_le_sideOf (op : Connective) : Phrase.operand.rank ≤ (sideOf op).rank := by
  cases op <;> decide

/-- The kind of phrase that the text of a filter is. -/
def phrase : Filter → Phrase
  | .logical op _ _ => phraseOf op
  | .not _ => .operand
  | _ => .comparison

/-- The lexeme of a connective. -/
def connectiveLexeme : Connective → Lexeme
  | .and => ⟨.and, "and", 2⟩
  | .or => ⟨.or, "or", 1⟩

theorem Derives.joined (op : Connective) {ts us : List Token} {t : Token} {left right : Filter}
    (hl : Derives Value (phraseOf op) ts left) (ht : t.kind = (connectiveLexeme op).kind)
    (hr : Derives Value (sideOf op) us right) :
    Derives Value (phraseOf op) (ts ++ t :: us) (.logical op left right) := by
  cases op with
  | and => exact .and hl ht hr
  | or => exact .or hl ht hr

/-- `Writes Value p s f`: the text `s` is scanned, wherever it stands, as a phrase of kind `p` for `f`. -/
def Writes (Value : Token → Scalar → Prop) (p : Phrase) (s : List Char) (f : Filter) : Prop :=
  ∀ position, ∃ ts, Token.Scans position s ts ∧ Derives Value p ts f

theorem Writes.widen {p q : Phrase} {s : List Char} {f : Filter} (h : Writes Value p s f)
    (hpq : p.rank ≤ q.rank) : Writes Value q s f := by
  intro position
  obtain ⟨ts, hs, hd⟩ := h position
  exact ⟨ts, hs, hd.widen hpq⟩

theorem Writes.joined (op : Connective) {s u : List Char} {left right : Filter}
    (hl : Writes Value (phraseOf op) s left) (hr : Writes Value (sideOf op) u right) :
    Writes Value (phraseOf op) (s ++ ' ' :: (op.name.toList ++ ' ' :: u)) (.logical op left right) := by
  intro position
  have hw : Lexeme.isWord op.name.toList = true ∧
      Lexeme.word op.name.toList = connectiveLexeme op := by
    cases op with
    | and => decide
    | or => decide
  obtain ⟨ts, hs, hd⟩ := hl position
  obtain ⟨us, hs', hd'⟩ := hr (position + s.length + 1 + op.name.toList.length + 1)
  exact ⟨_, hs.joined (Token.scans_word _ hw.1 hw.2) hs', hd.joined op rfl hd'⟩

theorem Writes.group {s : List Char} {f : Filter} (h : Writes Value .filter s f) :
    Writes Value .operand ('(' :: (s ++ [')'])) f := by
  intro position
  obtain ⟨ts, hs, hd⟩ := h (position + 1)
  exact ⟨_, hs.enclosed rfl rfl, .group rfl hd rfl⟩

theorem Writes.not {s : List Char} {f : Filter} (h : Writes Value .filter s f) :
    Writes Value .operand ("not (".toList ++ (s ++ [')'])) (.not f) := by
  intro position
  have hl : Lexeme.word "not".toList = ⟨.not, "not", 2⟩ := by decide
  obtain ⟨ts, hs, hd⟩ := h (position + "not".toList.length + 1 + 1)
  have hbrackets := hs.enclosed (o := '(') (c := ')') rfl rfl
  have hnot := (Token.scans_word position (by decide) hl).append hbrackets.blank_cons rfl
  exact ⟨_, hnot, .not rfl rfl hd rfl⟩

/-- An identifier is scanned as one attribute token. -/
theorem scans_identifier {path : String} (h : isIdentifier path = true) (position : Nat) :
    Token.Scans position path.toList [⟨.attribute, path, position⟩] := by
  simp only [isIdentifier, Bool.and_eq_true, Option.isNone_iff_eq_none] at h
  have hl : Lexeme.word path.toList = ⟨.attribute, path, path.toList.length - 1⟩ := by
    simp [Lexeme.word, h.2]
  exact Token.scans_word position h.1 hl

theorem Writes.items {path : String} (hp : isIdentifier path = true) {s : List Char} {f : Filter}
    (h : Writes Value .filter s f) :
    Writes Value .comparison (path.toList ++ '[' :: (s ++ [']'])) (.valuePath path f) := by
  intro position
  obtain ⟨ts, hs, hd⟩ := h (position + path.toList.length + 1)
  have hbrackets := hs.enclosed (o := '[') (c := ']') rfl rfl
  exact ⟨_, (scans_identifier hp position).append hbrackets rfl,
    .items (a := ⟨.attribute, path, position⟩) rfl rfl hd rfl⟩

theorem writes_present {path : String} (hp : isIdentifier path = true) :
    Writes Value .comparison (path.toList ++ " pr".toList) (.compare path .present .null) := by
  intro position
  have hl : Lexeme.word "pr".toList = ⟨.present, "pr", 1⟩ := by decide
  have hw := Token.scans_word (position + path.toList.length + 1) (by decide) hl
  exact ⟨_, (scans_identifier hp position).append hw.blank_cons rfl,
    .present (a := ⟨.attribute, path, position⟩) rfl rfl⟩

theorem writes_value {path : String} (hp : isIdentifier path = true) {op : Operator}
    (hop : op ∈ comparisons) {v : Scalar}
    (hv : ∀ position, ∃ t, Token.Scans position v.written [t] ∧ Value t v) :
    Writes Value .comparison (path.toList ++ ' ' :: (op.name.toList ++ ' ' :: v.written))
      (.compare path op v) := by
  intro position
  have hw : ∀ op ∈ comparisons, Lexeme.isWord op.name.toList = true ∧
      Lexeme.word op.name.toList = ⟨.operator, op.name, 1⟩ ∧ Operator.ofName op.name = op := by
    decide
  obtain ⟨hword, hl, hname⟩ := hw op hop
  obtain ⟨t, ht, hd⟩ := hv (position + path.toList.length + 1 + op.name.toList.length + 1)
  refine ⟨_, (scans_identifier hp position).joined (Token.scans_word _ hword hl) ht, ?_⟩
  have hvalue : Derives Value .comparison [⟨.attribute, path, position⟩,
      ⟨.operator, op.name, (position + path.toList.length + 1 : Nat)⟩, t]
      (.compare path (Operator.ofName op.name) v) := .value rfl rfl hd
  rwa [hname] at hvalue

/-! ### Written filters -/

theorem isTest_present {v : Scalar} (h : isTest .present v = true) : v = .null := by
  simpa [isTest] using h

theorem isTest_comparison {op : Operator} {v : Scalar} (h : isTest op v = true)
    (hop : op ≠ .present) : op ∈ comparisons ∧ ∀ d, v ≠ .number (.double d) := by
  unfold isTest at h
  split at h
  · exact absurd rfl hop
  · cases h
  · rename_i hdouble
    exact ⟨by simpa using h, fun d hd => hdouble d hd⟩

/-- Comparisons and negations are phrases of the narrow kinds. -/
theorem rank_le_operand {f : Filter} (h : ∀ op left right, f ≠ .logical op left right) :
    f.phrase.rank ≤ Phrase.operand.rank := by
  cases f with
  | logical op left right => exact absurd rfl (h op left right)
  | not inner => exact Nat.le_refl 1
  | _ => exact Nat.zero_le 1

/-- A filter that needs no parentheses on the left is a phrase of the kind of the connective. -/
theorem rank_of_not_bindsLooser {op : Connective} {f : Filter} (h : f.bindsLooser op = false) :
    f.phrase.rank ≤ (phraseOf op).rank := by
  cases f with
  | logical inner left right =>
      simp only [bindsLooser] at h
      cases op with
      | or => exact Phrase.rank_le_filter (phraseOf inner)
      | and =>
          cases inner with
          | and => exact Nat.le_refl 2
          | or => cases h
  | _ => exact Nat.le_trans (rank_le_operand (by simp)) (operand_le_phraseOf op)

/-- A filter that needs no parentheses on the right is a phrase of the kind of a right side. -/
theorem rank_of_not_joinedBy {op : Connective} {f : Filter}
    (h : (f.bindsLooser op || f.joinedBy op) = false) : f.phrase.rank ≤ (sideOf op).rank := by
  cases f with
  | logical inner left right =>
      simp only [bindsLooser, joinedBy] at h
      cases op with
      | or =>
          cases inner with
          | and => exact Nat.le_refl 2
          | or => cases h
      | and => cases inner <;> cases h
  | _ => exact Nat.le_trans (rank_le_operand (by simp)) (operand_le_sideOf op)

/-- A side of a connective, with its parentheses or without them. -/
theorem writes_grouped {p : Phrase} {needed : Bool} {s : List Char} {f : Filter}
    (h : Writes Value f.phrase s f) (hp : Phrase.operand.rank ≤ p.rank)
    (hneeded : needed = false → f.phrase.rank ≤ p.rank) : Writes Value p (grouped needed s) f := by
  cases needed with
  | true => exact (h.widen f.phrase.rank_le_filter).group.widen hp
  | false => exact h.widen (hneeded rfl)

/-- The text of a filter is a phrase of its kind, if the texts of its values are values.  By induction
on the filter. -/
theorem writes_written {f : Filter} (h : f.isRenderable = true)
    (hvalues : ∀ v ∈ f.values, (∀ d, v ≠ .number (.double d)) →
      ∀ position, ∃ t, Token.Scans position v.written [t] ∧ Value t v) :
    Writes Value f.phrase f.written f := by
  induction f with
  | compare path op v =>
      simp only [isRenderable, Bool.and_eq_true] at h
      by_cases hop : op = .present
      · subst hop
        obtain rfl := isTest_present h.2
        exact writes_present h.1
      · obtain ⟨hmem, hv⟩ := isTest_comparison h.2 hop
        rw [written, if_neg hop]
        exact writes_value h.1 hmem (hvalues v (by simp [values, hop]) hv)
  | logical op left right ihl ihr =>
      simp only [isRenderable, Bool.and_eq_true] at h
      have hl := ihl h.1 fun v hv => hvalues v (List.mem_append_left _ hv)
      have hr := ihr h.2 fun v hv => hvalues v (List.mem_append_right _ hv)
      have hleft : Writes Value (phraseOf op) (grouped (left.bindsLooser op) left.written) left :=
        writes_grouped hl (operand_le_phraseOf op) rank_of_not_bindsLooser
      have hright : Writes Value (sideOf op)
          (grouped (right.bindsLooser op || right.joinedBy op) right.written) right :=
        writes_grouped hr (operand_le_sideOf op) rank_of_not_joinedBy
      exact Writes.joined op hleft hright
  | not inner ih => exact Writes.not ((ih h hvalues).widen inner.phrase.rank_le_filter)
  | valuePath path inner ih =>
      simp only [isRenderable, Bool.and_eq_true] at h
      exact Writes.items h.1 ((ih h.2 hvalues).widen inner.phrase.rank_le_filter)
  | unrecognized => cases h

theorem isTight_identifier {path : String} (h : isIdentifier path = true) :
    Text.IsTight path.toList := by
  simp only [isIdentifier, Bool.and_eq_true] at h
  exact Lexeme.isTight_of_isWord h.1

theorem isTight_grouped (needed : Bool) {s : List Char} (h : Text.IsTight s) :
    Text.IsTight (grouped needed s) := by
  have hopen : Text.IsTight ['('] := Text.isTight_singleton rfl
  have hclose : Text.IsTight [')'] := Text.isTight_singleton rfl
  cases needed with
  | true => exact hopen.append s hclose
  | false => exact h

/-- No text of a filter starts or ends with a blank. -/
theorem isTight_written {f : Filter} (h : f.isRenderable = true) : Text.IsTight f.written := by
  induction f with
  | compare path op v =>
      simp only [isRenderable, Bool.and_eq_true] at h
      have hpath := isTight_identifier h.1
      by_cases hop : op = .present
      · have hr : Text.IsTight ['r'] := Text.isTight_singleton rfl
        rw [written, if_pos hop]
        exact hpath.append [' ', 'p'] hr
      · obtain ⟨_, hv⟩ := isTest_comparison h.2 hop
        have := hpath.append (' ' :: (op.name.toList ++ [' '])) (Scalar.isTight_written hv)
        simpa [written, hop] using this
  | logical op left right ihl ihr =>
      simp only [isRenderable, Bool.and_eq_true] at h
      have := (isTight_grouped (left.bindsLooser op) (ihl h.1)).append
        (' ' :: (op.name.toList ++ [' ']))
        (isTight_grouped (right.bindsLooser op || right.joinedBy op) (ihr h.2))
      simpa [written] using this
  | not inner ih =>
      have hn : Text.IsTight ['n'] := Text.isTight_singleton rfl
      have hclose : Text.IsTight [')'] := Text.isTight_singleton rfl
      have := hn.append ("ot (".toList ++ inner.written) hclose
      simpa [written] using this
  | valuePath path inner ih =>
      simp only [isRenderable, Bool.and_eq_true] at h
      have hclose : Text.IsTight [']'] := Text.isTight_singleton rfl
      have := (isTight_identifier h.1).append ('[' :: inner.written) hclose
      simpa [written] using this
  | unrecognized => cases h

/-! ### Parsing -/

/-- What is made of a text between blanks is made of its tokens. -/
theorem parse_eq_of_scans {b s b' : List Char} (hb : Text.AreBlanks b) (hs : Text.IsTight s)
    (hb' : Text.AreBlanks b') {ts : List Token} (hscan : Token.Scans 0 s ts) :
    parse (String.ofList (b ++ (s ++ b'))) =
      (ofTokens (ts ++ [⟨.stop, "", (s.length : Nat)⟩])).mapError fun fault =>
        ⟨String.ofList s, fault⟩ := by
  have htext : ofText (String.ofList s) = ofTokens (ts ++ [⟨.stop, "", (s.length : Nat)⟩]) := by
    rw [ofText, Token.scan, String.toList_ofList, Token.scanFrom_of_scans hscan, Nat.zero_add]
    rfl
  rw [parse, Text.allBlank_padded b b' hs, if_neg Bool.false_ne_true, Text.trim,
    String.toList_ofList, Text.trimChars_padded hb hs hb', htext]

/-- A text that is scanned as a filter is parsed as that filter, with or without blanks around it. -/
theorem parse_of_scans {b s b' : List Char} (hb : Text.AreBlanks b) (hs : Text.IsTight s)
    (hb' : Text.AreBlanks b') {ts : List Token} (hscan : Token.Scans 0 s ts) {f : Filter}
    (hd : Derives Token.IsReadAs .filter ts f) : parse (String.ofList (b ++ (s ++ b'))) = .ok f := by
  rw [parse_eq_of_scans hb hs hb' hscan, ofTokens_of_endsInStop ⟨_, List.getLast?_concat, rfl⟩,
    Parser.run_of_derives hd rfl []]
  rfl

theorem parse_of_writes {s : List Char} {f : Filter} (h : Writes Token.IsReadAs .filter s f)
    (hs : Text.IsTight s) : parse (String.ofList s) = .ok f := by
  obtain ⟨ts, hscan, hd⟩ := h 0
  have := parse_of_scans Text.areBlanks_nil hs Text.areBlanks_nil hscan hd
  rwa [List.nil_append, List.append_nil] at this

/-- A text that is scanned as a filter with an integer of too many digits is refused for it. -/
theorem parse_of_isOverlong {s : List Char} (hs : Text.IsTight s) {ts : List Token}
    (hscan : Token.Scans 0 s ts) {f : Filter} (hd : Derives Token.Denotes .filter ts f)
    (hover : ∃ t ∈ ts, t.IsOverlong) :
    ∃ t ∈ ts, t.IsOverlong ∧
      parse (String.ofList s) = .error ⟨String.ofList s, .tooManyDigits t.digitCount t⟩ := by
  obtain ⟨before, t, after, state, rfl, -, ho, hread, href, hfault⟩ :=
    Parser.refuses_isOverlong hd hover
  have hparse := parse_eq_of_scans Text.areBlanks_nil hs Text.areBlanks_nil hscan
  rw [List.nil_append, List.append_nil, ofTokens_of_endsInStop ⟨_, List.getLast?_concat, rfl⟩,
    List.append_assoc, List.cons_append, Parser.State.run_append hread, Parser.run_of_refuses href,
    hfault] at hparse
  exact ⟨t, by simp, ho, hparse⟩

/-- A filter without integers of too many digits is read back from its text. -/
theorem parse_render_of_short {f : Filter} (h : f.isRenderable = true)
    (hshort : ∀ v ∈ f.values, ¬ v.IsOverlong) : parse f.render = .ok f := by
  have hwrites : Writes Token.IsReadAs f.phrase f.written f := by
    refine writes_written h fun v hv hdouble position => ?_
    obtain ⟨t, hscan, hd, ho⟩ := Scalar.scans_written hdouble position
    exact ⟨t, hscan, hd, fun h => hshort v hv (ho.mp h)⟩
  exact parse_of_writes (hwrites.widen f.phrase.rank_le_filter) (isTight_written h)

/-- A filter with one is not. -/
theorem parse_render_of_isOverlong {f : Filter} (h : f.isRenderable = true)
    (hover : ∃ v ∈ f.values, v.IsOverlong) :
    ∃ t, t.IsOverlong ∧ parse f.render = .error ⟨f.render, .tooManyDigits t.digitCount t⟩ := by
  have hwrites : Writes (fun t v => t.Denotes v ∧ (v.IsOverlong → t.IsOverlong)) f.phrase
      f.written f := by
    refine writes_written h fun v _ hdouble position => ?_
    obtain ⟨t, hscan, hd, ho⟩ := Scalar.scans_written hdouble position
    exact ⟨t, hscan, hd, ho.mpr⟩
  obtain ⟨ts, hscan, hd⟩ := hwrites.widen f.phrase.rank_le_filter 0
  obtain ⟨v, hv, hlong⟩ := hover
  obtain ⟨t, ht, hvalue⟩ := hd.exists_value hv
  obtain ⟨u, -, hu, hparse⟩ := parse_of_isOverlong (isTight_written h) hscan
    (hd.imp fun _ _ _ h => h.1) ⟨t, ht, hvalue.2 hlong⟩
  exact ⟨u, hu, hparse⟩

/-- Parsing undoes writing: a filter is read back from its text, whatever its texts are, however it is
nested, and with no more parentheses than the grammar needs, if none of its integers has too many
digits; a filter with such an integer has a text that is refused for one. -/
theorem parse_render {f : Filter} (h : f.isRenderable = true) :
    ((∀ v ∈ f.values, ¬ v.IsOverlong) → parse f.render = .ok f) ∧
    ((∃ v ∈ f.values, v.IsOverlong) →
      ∃ t, t.IsOverlong ∧ parse f.render = .error ⟨f.render, .tooManyDigits t.digitCount t⟩) :=
  ⟨parse_render_of_short h, parse_render_of_isOverlong h⟩

/-- A filter with a disjunction under a conjunction, a right side joined by its own connective, a
negation, a value path, escapes and a negative integer. -/
def sampleFilter : Filter :=
  .logical .and
    (.logical .or (.compare "a" .equal (.text "or \"\\")) (.compare "b" .present .null))
    (.logical .and (.not (.compare "Not:x" .less (.number (.integer (-20)))))
      (.valuePath "m" (.logical .or (.logical .and (.compare "c" .notEqual (.bool true))
        (.compare "d.e" .contains .null)) (.compare "f-" .endsWith (.text "")))))

theorem parse_render_sampleFilter :
    sampleFilter.isRenderable = true ∧ (∀ v ∈ sampleFilter.values, ¬ v.IsOverlong) ∧
    sampleFilter.render = "(a eq \"or \\\"\\\\\" or b pr) and (not (Not:x lt -20) and " ++
      "m[c ne true and d.e co null or f- ew \"\"])" ∧
    parse sampleFilter.render = .ok sampleFilter := by
  have h : sampleFilter.isRenderable = true := by decide
  have hshort : ∀ v ∈ sampleFilter.values, ¬ v.IsOverlong := by decide +kernel
  exact ⟨h, hshort, by decide, (parse_render h).1 hshort⟩

/-- A comparison with the first integer of too many digits. -/
def overlongFilter : Filter := .compare "a" .equal (.number (.integer Number.firstOverlong))

theorem isOverlong_firstOverlong : (Scalar.number (.integer Number.firstOverlong)).IsOverlong :=
  (Number.isOverlong_toString_iff (by decide) _).mp Number.isOverlong_firstOverlong

/-- It has a text that is not read back, but refused for no fault of syntax. -/
theorem parse_render_overlongFilter : overlongFilter.isRenderable = true ∧
    ∃ refusal, parse overlongFilter.render = .error refusal ∧ refusal.fault.isSyntax = false := by
  have h : overlongFilter.isRenderable = true := rfl
  obtain ⟨t, -, hparse⟩ := parse_render_of_isOverlong h
    ⟨_, List.mem_singleton_self _, isOverlong_firstOverlong⟩
  exact ⟨h, _, hparse, rfl⟩

end Filter
end ScimQuery
