import Mathlib.Data.List.Induction
import Mathlib.Data.Nat.Digits.Defs
import ScimQuery.Number.Numeral
import ScimQuery.Proofs.Text.Pieces

/-! # Literals

The numerals that stand in the texts of filters are `-?D+(.D+)?` for digits `D` (`Number.IsLiteral`).
They are read as the numbers that they write, but for an integer of more digits than the limit
(`Number.ofNumeral_of_isLiteral`).  As a limit can be as long as a text, a literal writes one number
(`IsLiteral.unique`).

Some number of digits writes what is less than that power of ten (`ofDigits_lt`), and what is less is
written with so many (`countP_isDigit_toString_le_iff`). -/

namespace ScimQuery
namespace Number

/-- Decimal digits, at least one. -/
def AreDigits (s : List Char) : Prop := s ≠ [] ∧ ∀ c ∈ s, isDigit c = true

/-- The text of a sign. -/
def signText (negative : Bool) : List Char := if negative then ['-'] else []

/-- `IsLiteral s n`: the text `s` is a literal, and `n` is the number that it writes. -/
inductive IsLiteral : List Char → Number → Prop
  | integer (negative : Bool) {whole : List Char} : AreDigits whole →
      IsLiteral (signText negative ++ whole)
        (.integer (if negative then -(ofDigits whole : Int) else ofDigits whole))
  | decimal (negative : Bool) {whole fraction : List Char} : AreDigits whole → AreDigits fraction →
      IsLiteral (signText negative ++ (whole ++ '.' :: fraction))
        (.double (Double.ofDecimal negative (ofDigits (whole ++ fraction)) (-(fraction.length : Int))))

/-- `IsOverlong limit s`: a text has no point, and more digits than a limit. -/
def IsOverlong (limit : Nat) (s : List Char) : Prop := '.' ∉ s ∧ limit < s.countP isDigit

instance (limit : Nat) (s : List Char) : Decidable (IsOverlong limit s) :=
  inferInstanceAs (Decidable (_ ∧ _))

/-! ### Characters of literals -/

theorem toNat_of_isDigit {c : Char} (h : isDigit c = true) : 48 ≤ c.toNat ∧ c.toNat ≤ 57 := by
  simp only [isDigit, Bool.and_eq_true, decide_eq_true_eq] at h
  exact h

theorem isDigit_point : isDigit '.' = false := by decide

theorem isDigit_minus : isDigit '-' = false := by decide

/-- The digits at the front of a text that starts with one. -/
theorem areDigits_takeWhile {s : List Char} (h : (s.takeWhile isDigit).isEmpty = false) :
    AreDigits (s.takeWhile isDigit) := by
  refine ⟨by simpa using h, fun c hc => ?_⟩
  have hall : (s.takeWhile isDigit).all isDigit = true := List.all_takeWhile
  exact List.all_eq_true.mp hall c hc

theorem AreDigits.not_mem {s : List Char} (h : AreDigits s) {c : Char} (hc : isDigit c = false) :
    c ∉ s := by
  intro hm
  rw [h.2 c hm] at hc
  cases hc

theorem toNat_of_mem_signText {negative : Bool} {c : Char} (h : c ∈ signText negative) :
    c.toNat = 45 := by
  cases negative with
  | true =>
      obtain rfl : c = '-' := by simpa [signText] using h
      rfl
  | false => cases h

/-- A literal is made of a hyphen, digits and a point. -/
theorem IsLiteral.toNat_of_mem {s : List Char} {n : Number} (h : IsLiteral s n) {c : Char}
    (hc : c ∈ s) : c.toNat = 45 ∨ c.toNat = 46 ∨ (48 ≤ c.toNat ∧ c.toNat ≤ 57) := by
  cases h with
  | integer negative hw =>
      rcases List.mem_append.mp hc with hc | hc
      · exact .inl (toNat_of_mem_signText hc)
      · exact .inr (.inr (toNat_of_isDigit (hw.2 c hc)))
  | decimal negative hw hf =>
      simp only [List.mem_append, List.mem_cons] at hc
      rcases hc with hc | hc | rfl | hc
      · exact .inl (toNat_of_mem_signText hc)
      · exact .inr (.inr (toNat_of_isDigit (hw.2 c hc)))
      · exact .inr (.inl rfl)
      · exact .inr (.inr (toNat_of_isDigit (hf.2 c hc)))

theorem countP_signText (negative : Bool) : (signText negative).countP isDigit = 0 := by
  cases negative <;> decide

theorem AreDigits.countP_eq {s : List Char} (h : AreDigits s) : s.countP isDigit = s.length :=
  List.countP_eq_length.mpr h.2

theorem point_not_mem_integer (negative : Bool) {whole : List Char} (h : AreDigits whole) :
    '.' ∉ signText negative ++ whole := by
  rw [List.mem_append, not_or]
  refine ⟨fun hc => ?_, h.not_mem isDigit_point⟩
  exact absurd (toNat_of_mem_signText hc) (by decide)

/-! ### Reading literals -/

theorem plainDigit_of_ascii {c : Char} (h : c.toNat < 0x80) : Text.plainDigit c = c := by
  have hzeros : ∀ first ∈ Text.zeros, 0x80 ≤ first := by decide
  have hnone : (Text.zeros.find? fun first => first ≤ c.toNat && c.toNat ≤ first + 9) = none := by
    refine List.find?_eq_none.mpr fun first hfirst => ?_
    have := hzeros first hfirst
    simp only [Bool.and_eq_true, decide_eq_true_eq]
    omega
  simp only [Text.plainDigit, Text.digitValue?, hnone, Option.map_none]

/-- Nothing of a literal is white space or a digit of another script. -/
theorem IsLiteral.trimWhite_map {s : List Char} {n : Number} (h : IsLiteral s n) :
    Text.trimWhite (s.map Text.plainDigit) = s := by
  have hplain : s.map Text.plainDigit = s := by
    refine (List.map_congr_left fun c hc => ?_).trans (List.map_id s)
    have := h.toNat_of_mem hc
    exact plainDigit_of_ascii (by omega)
  have hwhite : ∀ c ∈ s, Text.isWhite c = false := by
    intro c hc
    have := h.toNat_of_mem hc
    simp only [Text.isWhite, Text.isBlank, Bool.and_eq_false_iff, Bool.or_eq_false_iff,
      decide_eq_false_iff_not, beq_eq_false_iff_ne]
    omega
  have hdrop : ∀ t : List Char, (∀ c ∈ t, Text.isWhite c = false) → t.dropWhile Text.isWhite = t := by
    intro t ht
    cases t with
    | nil => rfl
    | cons c t => rw [List.dropWhile_cons, if_neg (by simp [ht c List.mem_cons_self])]
  rw [hplain, Text.trimWhite, hdrop s hwhite,
    hdrop _ fun c hc => hwhite c (List.mem_reverse.mp hc), List.reverse_reverse]

/-- The sign of what starts with a digit. -/
theorem cutSign_signText (negative : Bool) {whole : List Char} (h : AreDigits whole)
    (rest : List Char) : cutSign (signText negative ++ (whole ++ rest)) = (negative, whole ++ rest) := by
  cases negative with
  | true => rfl
  | false =>
      cases whole with
      | nil => exact absurd rfl h.1
      | cons c whole =>
          have hc := toNat_of_isDigit (h.2 c List.mem_cons_self)
          simp only [signText, Bool.false_eq_true, if_false, List.nil_append, List.cons_append]
          unfold cutSign
          split
          · rename_i heq
            rw [List.cons.injEq] at heq
            rw [heq.1] at hc
            exact absurd hc (by decide)
          · rename_i heq
            rw [List.cons.injEq] at heq
            rw [heq.1] at hc
            exact absurd hc (by decide)
          · rfl

theorem digits?_of_areDigits {s : List Char} (h : AreDigits s) : digits? s = some s := by
  have hmark : '_' ∉ s := h.not_mem (by decide)
  have hall : s.all isDigit = true := List.all_eq_true.mpr h.2
  simp [digits?, Text.splitOn_of_not_mem hmark, h.1, hall]

theorem integral_of_areDigits (limit : Nat) (negative : Bool) {whole : List Char}
    (h : AreDigits whole) :
    integral limit negative whole =
      if limit < whole.length then .error (.tooManyDigits whole.length)
      else .ok (.integer (if negative then -(ofDigits whole : Int) else ofDigits whole)) := by
  obtain ⟨htake, hdrop⟩ := Text.takeWhile_append_of_head (p := fun c => isDigit c || c == '_')
    (fun c hc => by rw [h.2 c hc, Bool.true_or]) [] (by simp)
  rw [List.append_nil] at htake hdrop
  simp only [integral, htake, hdrop, digits?_of_areDigits h, List.isEmpty_nil, if_true]
  rfl

theorem pointed?_of_areDigits (negative : Bool) {whole fraction : List Char} (h : AreDigits whole)
    (hf : AreDigits fraction) :
    pointed? negative (whole ++ '.' :: fraction) =
      some (.double (Double.ofDecimal negative (ofDigits (whole ++ fraction))
        (-(fraction.length : Int)))) := by
  have hbefore : ∀ c ∈ whole ++ '.' :: fraction, (c != 'e' && c != 'E') = true := by
    intro c hc
    have hnat : c.toNat < 58 := by
      simp only [List.mem_append, List.mem_cons] at hc
      rcases hc with hc | rfl | hc
      · have := toNat_of_isDigit (h.2 c hc)
        omega
      · decide
      · have := toNat_of_isDigit (hf.2 c hc)
        omega
    simp only [Bool.and_eq_true, bne_iff_ne]
    exact ⟨fun he => absurd (he ▸ hnat) (by decide), fun he => absurd (he ▸ hnat) (by decide)⟩
  obtain ⟨htake, hdrop⟩ := Text.takeWhile_append_of_head hbefore [] (by simp)
  rw [List.append_nil] at htake hdrop
  have hcut : Text.cutFirst '.' (whole ++ '.' :: fraction) = some (whole, fraction) :=
    Text.cutFirst_eq_some_iff.mpr ⟨rfl, h.not_mem isDigit_point⟩
  have hside : ∀ {s : List Char}, AreDigits s → sideDigits? s = some s := by
    intro s hs
    simp [sideDigits?, digits?_of_areDigits hs, hs.1]
  simp [pointed?, htake, hdrop, hcut, hside h, hside hf, exponent?, ofParts, h.1]

/-- A literal is read as the number that it writes, unless it has no point and more digits than the
limit. -/
theorem ofNumeral_of_isLiteral (limit : Nat) {s : List Char} {n : Number} (h : IsLiteral s n) :
    ofNumeral limit s =
      if IsOverlong limit s then .error (.tooManyDigits (s.countP isDigit)) else .ok n := by
  have htrim := h.trimWhite_map
  cases h with
  | @integer negative whole hw =>
      have hcut := cutSign_signText negative hw []
      rw [List.append_nil] at hcut
      have hpoint := point_not_mem_integer negative hw
      have hcount : (signText negative ++ whole).countP isDigit = whole.length := by
        rw [List.countP_append, countP_signText, Nat.zero_add, hw.countP_eq]
      simp only [ofNumeral, htrim, hcut, List.contains_iff_mem, hpoint, if_false,
        integral_of_areDigits limit negative hw, IsOverlong, hcount, not_false_eq_true, true_and]
  | @decimal negative whole fraction hw hf =>
      have hpoint : '.' ∈ signText negative ++ (whole ++ '.' :: fraction) := by simp
      have hnot : ¬ IsOverlong limit (signText negative ++ (whole ++ '.' :: fraction)) :=
        fun h => h.1 hpoint
      simp only [ofNumeral, htrim, cutSign_signText negative hw, List.contains_iff_mem, hpoint,
        if_true, pointed?_of_areDigits negative hw hf, hnot, if_false]

/-- A literal writes one number. -/
theorem IsLiteral.unique {s : List Char} {m n : Number} (hm : IsLiteral s m) (hn : IsLiteral s n) :
    m = n := by
  have hnot : ¬ IsOverlong s.length s := fun h => absurd List.countP_le_length (Nat.not_le.mpr h.2)
  have h := (ofNumeral_of_isLiteral s.length hm).symm.trans (ofNumeral_of_isLiteral s.length hn)
  rw [if_neg hnot, if_neg hnot] at h
  exact Except.ok.inj h

/-! ### Integers in decimal -/

theorem isDigit_of_isDigit {c : Char} (h : c.isDigit = true) : isDigit c = true := by
  simp only [Char.isDigit, Bool.and_eq_true, decide_eq_true_eq] at h
  simp only [isDigit, Bool.and_eq_true, decide_eq_true_eq]
  exact h

theorem areDigits_repr (n : Nat) : AreDigits n.repr.toList := by
  rw [Nat.toList_repr]
  refine ⟨Nat.toDigits_ne_nil, fun c hc => ?_⟩
  exact isDigit_of_isDigit (Nat.isDigit_of_mem_toDigits (by decide) (by decide) hc)

theorem ofDigits_repr (n : Nat) : ofDigits n.repr.toList = n := by
  rw [Nat.toList_repr, ofDigits]
  have h := Nat.ofDigitChars_ten_toDigits (n := n)
  rw [Nat.ofDigitChars_eq_foldl] at h
  exact h

/-- Digits write a number below a power of ten, by induction from the last digit. -/
theorem ofDigits_lt {s : List Char} (h : ∀ c ∈ s, isDigit c = true) : ofDigits s < 10 ^ s.length := by
  induction s using List.reverseRecOn with
  | nil => decide
  | append_singleton s c ih =>
      have hs := ih fun d hd => h d (List.mem_append_left [c] hd)
      have hc := toNat_of_isDigit (h c (by simp))
      have hstep : ofDigits (s ++ [c]) = 10 * ofDigits s + (c.toNat - 48) := by
        simp [ofDigits, List.foldl_append]
      rw [hstep, List.length_append, List.length_singleton, Nat.pow_succ]
      omega

/-- The decimal text of an integer is a sign and digits. -/
theorem toList_toString (n : Int) :
    (toString n).toList = signText (decide (n < 0)) ++ n.natAbs.repr.toList := by
  cases n with
  | ofNat m =>
      have hnot : ¬ Int.ofNat m < 0 := by simp
      rw [decide_eq_false hnot]
      rfl
  | negSucc m =>
      have hlt : Int.negSucc m < 0 := Int.negSucc_lt_zero m
      rw [decide_eq_true hlt]
      have htext : toString (Int.negSucc m) = "-" ++ (m + 1).repr := rfl
      rw [htext, String.toList_append]
      rfl

/-- An integer is written as the literal for it. -/
theorem isLiteral_toString (n : Int) : IsLiteral (toString n).toList (.integer n) := by
  rw [toList_toString]
  have h := IsLiteral.integer (decide (n < 0)) (areDigits_repr n.natAbs)
  rw [ofDigits_repr] at h
  have hn : (if decide (n < 0) = true then -(n.natAbs : Int) else n.natAbs) = n := by
    by_cases hneg : n < 0
    · rw [if_pos (decide_eq_true hneg)]
      omega
    · rw [if_neg (by simpa using hneg)]
      omega
  rwa [hn] at h

/-- An integer has no more digits than the power of ten that it stays below. -/
theorem countP_isDigit_toString_le_iff {limit : Nat} (hlimit : 0 < limit) (n : Int) :
    (toString n).toList.countP isDigit ≤ limit ↔ n.natAbs < 10 ^ limit := by
  rw [toList_toString, List.countP_append, countP_signText, Nat.zero_add,
    (areDigits_repr n.natAbs).countP_eq]
  constructor
  · intro h
    have hlt := ofDigits_lt (areDigits_repr n.natAbs).2
    rw [ofDigits_repr] at hlt
    exact hlt.trans_le (Nat.pow_le_pow_right (by decide) h)
  · intro h
    rw [String.length_toList]
    exact Nat.repr_length _ _ hlimit h

theorem isOverlong_toString_iff {limit : Nat} (hlimit : 0 < limit) (n : Int) :
    IsOverlong limit (toString n).toList ↔ 10 ^ limit ≤ n.natAbs := by
  have hpoint : '.' ∉ (toString n).toList := by
    rw [toList_toString]
    exact point_not_mem_integer _ (areDigits_repr n.natAbs)
  rw [IsOverlong, and_iff_right hpoint, ← Nat.not_le, countP_isDigit_toString_le_iff hlimit,
    Nat.not_lt]

/-- The first integer of too many digits. -/
def firstOverlong : Int := 10 ^ digitLimit

theorem isOverlong_firstOverlong : IsOverlong digitLimit (toString firstOverlong).toList := by
  refine (isOverlong_toString_iff (by decide) _).mpr (Nat.le_of_eq ?_)
  have hten : Int.natAbs 10 = 10 := rfl
  rw [firstOverlong, Int.natAbs_pow, hten]

end Number
end ScimQuery
