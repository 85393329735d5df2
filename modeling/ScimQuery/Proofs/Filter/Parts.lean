import Mathlib.Data.List.Infix
import ScimQuery.Filter.Meaning

/-! # Parts of a text

Whether the tests for a part of a text find a text that stands there as it is written.  They look
for the lower-case form of the part in that of the whole, and a capital sigma is lower-cased by what
stands around it, which the part alone does not have.  `lowerBetween` is the lower-case form that a
part has inside a text, and it is the form of the part alone exactly if every capital sigma in it
keeps its form there (`lowerBetween_eq_iff`).

So a text starts and ends with a written part exactly if its capital sigmas keep their forms, and it
contains one if they do; a part without a capital sigma is always found (`test_written_part`). -/

namespace ScimQuery

namespace Text

/-! ### Search -/

/-- What stands somewhere in a text is a part of it. -/
theorem occursIn_iff (needle : List Char) : ∀ s, occursIn needle s = true ↔ needle <:+: s
  | [] => by rw [occursIn, List.isEmpty_iff, List.infix_nil]
  | c :: s => by
      rw [occursIn, Bool.or_eq_true, List.isPrefixOf_iff_prefix, occursIn_iff needle s,
        List.infix_cons_iff]

/-! ### The form of a part -/

/-- The lower-case form of characters between `before`, nearest first, and `rest`. -/
def lowerBetween (before : List Char) : (s rest : List Char) → List Char
  | [], _ => []
  | c :: s, rest => lowerAt before c (s ++ rest) ++ lowerBetween (c :: before) s rest

theorem lowerAfter_append (before s rest : List Char) :
    lowerAfter before (s ++ rest) =
      lowerBetween before s rest ++ lowerAfter (s.reverse ++ before) rest := by
  induction s generalizing before with
  | nil => rfl
  | cons c s ih =>
      rw [List.cons_append, lowerAfter, ih, lowerBetween, List.append_assoc, List.reverse_cons,
        List.append_assoc, List.singleton_append]

theorem lowerBetween_nil (before s : List Char) :
    lowerBetween before s [] = lowerAfter before s := by
  have h := lowerAfter_append before s []
  rw [lowerAfter, List.append_nil, List.append_nil] at h
  exact h.symm

/-- The form of one character has one length, wherever it stands. -/
theorem length_lowerAt (before before' rest rest' : List Char) (c : Char) :
    (lowerAt before c rest).length = (lowerAt before' c rest').length := by
  unfold lowerAt
  split
  · rfl
  · split <;> rfl

theorem length_lowerBetween (before before' s rest rest' : List Char) :
    (lowerBetween before s rest).length = (lowerBetween before' s rest').length := by
  induction s generalizing before before' with
  | nil => rfl
  | cons c s ih =>
      rw [lowerBetween, lowerBetween, List.length_append, List.length_append,
        length_lowerAt before before' (s ++ rest) (s ++ rest'), ih]

theorem length_lowerChars (before s rest : List Char) :
    (lowerChars s).length = (lowerBetween before s rest).length := by
  rw [lowerChars, ← lowerBetween_nil]
  exact length_lowerBetween [] before s [] rest

/-- Of all characters only a capital sigma has different forms. -/
theorem lowerAt_eq_iff (before before' rest rest' : List Char) (c : Char) :
    lowerAt before c rest = lowerAt before' c rest' ↔
      (c = 'Σ' → lowerSigma before rest = lowerSigma before' rest') := by
  by_cases hs : c = 'Σ'
  · subst hs
    simp [lowerAt]
  · simp [lowerAt, hs]

/-- Whether every capital sigma in `s` has the form between `before`, nearest first, and `rest` that
it has in `s` alone. -/
def KeepsSigmas (before s rest : List Char) : Prop :=
  ∀ front back, s = front ++ 'Σ' :: back →
    lowerSigma (front.reverse ++ before) (back ++ rest) = lowerSigma front.reverse back

/-- A part has the same form in two places if its capital sigmas do.  By induction on the part, with
what has been read of it (`inner`) before what is left. -/
theorem lowerBetween_append_eq_iff (inner before s rest : List Char) :
    lowerBetween (inner ++ before) s rest = lowerBetween inner s [] ↔
      ∀ front back, s = front ++ 'Σ' :: back →
        lowerSigma (front.reverse ++ (inner ++ before)) (back ++ rest) =
          lowerSigma (front.reverse ++ inner) back := by
  induction s generalizing inner with
  | nil => simp [lowerBetween]
  | cons c s ih =>
      have hlength := length_lowerAt (inner ++ before) inner (s ++ rest) (s ++ []) c
      have happend : lowerBetween (inner ++ before) (c :: s) rest = lowerBetween inner (c :: s) [] ↔
          lowerAt (inner ++ before) c (s ++ rest) = lowerAt inner c (s ++ []) ∧
            lowerBetween (c :: inner ++ before) s rest = lowerBetween (c :: inner) s [] :=
        ⟨fun h => List.append_inj h hlength, fun h => congrArg₂ (· ++ ·) h.1 h.2⟩
      rw [happend, lowerAt_eq_iff, ih, List.append_nil]
      constructor
      · rintro ⟨hfirst, hothers⟩ front back hsplit
        rcases List.cons_eq_append_iff.mp hsplit with ⟨rfl, he⟩ | ⟨front', rfl, he⟩
        · obtain ⟨rfl, rfl⟩ := List.cons.inj he
          exact hfirst rfl
        · have := hothers front' back he
          simpa using this
      · intro h
        refine ⟨fun hc => ?_, fun front back hsplit => ?_⟩
        · have := h [] s (by rw [hc]; rfl)
          simpa using this
        · have := h (c :: front) back (by rw [hsplit]; rfl)
          simpa using this

/-- A part has the form that it has alone exactly if its capital sigmas keep theirs. -/
theorem lowerBetween_eq_iff (before s rest : List Char) :
    lowerBetween before s rest = lowerChars s ↔ KeepsSigmas before s rest := by
  rw [lowerChars, ← lowerBetween_nil]
  have h := lowerBetween_append_eq_iff [] before s rest
  simpa [KeepsSigmas] using h

instance (before s rest : List Char) : Decidable (KeepsSigmas before s rest) :=
  decidable_of_iff _ (lowerBetween_eq_iff before s rest)

theorem keepsSigmas_of_not_mem {s : List Char} (h : 'Σ' ∉ s) (before rest : List Char) :
    KeepsSigmas before s rest := by
  rintro front back rfl
  exact absurd (by simp) h

/-- The lower-case form of a text of two parts. -/
theorem toList_lower_append (s t : String) :
    (lower (s ++ t)).toList =
      lowerBetween [] s.toList t.toList ++ lowerBetween s.toList.reverse t.toList [] := by
  rw [lower, String.toList_ofList, String.toList_append, lowerChars, lowerAfter_append,
    List.append_nil, lowerBetween_nil]

theorem toList_lower (w : String) : (lower w).toList = lowerChars w.toList := by
  rw [lower, String.toList_ofList]

end Text

namespace Operator

open Text

/-- A text contains another exactly if the lower-case form of the other is a part of its own. -/
theorem contains_iff (s w : String) :
    contains.test (.text s) (.text w) = true ↔ (lower w).toList <:+: (lower s).toList := by
  rw [test, Json.testText, occursIn_iff]

/-- A text contains a written part that keeps its capital sigmas. -/
theorem contains_of_keepsSigmas {u w v : String}
    (h : KeepsSigmas u.toList.reverse w.toList v.toList) :
    contains.test (.text (u ++ w ++ v)) (.text w) = true := by
  have hpart := (lowerBetween_eq_iff _ _ _).mpr h
  have hwhole : (lower (u ++ w ++ v)).toList =
      lowerBetween [] u.toList (w.toList ++ v.toList) ++ lowerChars w.toList ++
        lowerAfter (w.toList.reverse ++ u.toList.reverse) v.toList := by
    rw [lower, String.toList_ofList, String.toList_append, String.toList_append, lowerChars,
      List.append_assoc, lowerAfter_append, lowerAfter_append, List.append_nil, hpart,
      List.append_assoc]
  rw [contains_iff, hwhole, toList_lower]
  exact ⟨_, _, rfl⟩

/-- A text starts with a written part exactly if the part keeps its capital sigmas. -/
theorem startsWith_iff (w v : String) :
    startsWith.test (.text (w ++ v)) (.text w) = true ↔ KeepsSigmas [] w.toList v.toList := by
  have hlength := length_lowerChars [] w.toList v.toList
  rw [test, Json.testText, List.isPrefixOf_iff_prefix, toList_lower_append, toList_lower,
    ← lowerBetween_eq_iff]
  constructor
  · intro h
    have hlead := List.prefix_of_prefix_length_le h (List.prefix_append _ _) (le_of_eq hlength)
    exact (hlead.eq_of_length hlength).symm
  · intro h
    rw [h]
    exact List.prefix_append _ _

/-- A text ends with a written part exactly if the part keeps its capital sigmas. -/
theorem endsWith_iff (u w : String) :
    endsWith.test (.text (u ++ w)) (.text w) = true ↔
      KeepsSigmas u.toList.reverse w.toList [] := by
  have hlength := length_lowerChars u.toList.reverse w.toList []
  rw [test, Json.testText, List.isSuffixOf_iff_suffix, toList_lower_append, toList_lower,
    ← lowerBetween_eq_iff]
  constructor
  · intro h
    have hsuffix := List.suffix_of_suffix_length_le h (List.suffix_append _ _) (le_of_eq hlength)
    exact (hsuffix.eq_of_length hlength).symm
  · intro h
    rw [h]
    exact List.suffix_append _ _

/-- A part that is looked for as it is written.  It is found in a text exactly if its lower-case form
is a part of that of the text, and so if its capital sigmas have the same form in the text as in the
part alone; at the start and at the end of the text it is found only then.  A part without a capital
sigma is found wherever it stands. -/
theorem test_written_part (u w v : String) :
    (contains.test (.text (u ++ w ++ v)) (.text w) = true ↔
      (lower w).toList <:+: (lower (u ++ w ++ v)).toList) ∧
    (KeepsSigmas u.toList.reverse w.toList v.toList →
      contains.test (.text (u ++ w ++ v)) (.text w) = true) ∧
    (startsWith.test (.text (w ++ v)) (.text w) = true ↔ KeepsSigmas [] w.toList v.toList) ∧
    (endsWith.test (.text (u ++ w)) (.text w) = true ↔
      KeepsSigmas u.toList.reverse w.toList []) ∧
    ('Σ' ∉ w.toList → contains.test (.text (u ++ w ++ v)) (.text w) = true ∧
      startsWith.test (.text (w ++ v)) (.text w) = true ∧
      endsWith.test (.text (u ++ w)) (.text w) = true) := by
  refine ⟨contains_iff _ w, contains_of_keepsSigmas, startsWith_iff w v, endsWith_iff u w,
    fun h => ⟨?_, ?_, ?_⟩⟩
  · exact contains_of_keepsSigmas (keepsSigmas_of_not_mem h _ _)
  · exact (startsWith_iff w v).mpr (keepsSigmas_of_not_mem h _ _)
  · exact (endsWith_iff u w).mpr (keepsSigmas_of_not_mem h _ _)

/-- A whole word keeps its final sigma between blanks. -/
theorem test_written_part_whole_word :
    KeepsSigmas "Η ".toList.reverse "ΟΔΟΣ".toList " ΑΥΤΗ".toList ∧
    contains.test (.text ("Η " ++ "ΟΔΟΣ" ++ " ΑΥΤΗ")) (.text "ΟΔΟΣ") = true := by
  have h : KeepsSigmas "Η ".toList.reverse "ΟΔΟΣ".toList " ΑΥΤΗ".toList := by decide +kernel
  exact ⟨h, (test_written_part "Η " "ΟΔΟΣ" " ΑΥΤΗ").2.1 h⟩

/-- Not every written part is found: a sigma that is final in `ΑΣ` is not final in `ΑΣΑ`, and one that
is not final in `Σ` is final in `ΑΣ`. -/
theorem misses_written_part :
    (¬ ∀ u w v : String, contains.test (.text (u ++ w ++ v)) (.text w) = true) ∧
    (¬ ∀ w v : String, startsWith.test (.text (w ++ v)) (.text w) = true) ∧
    ¬ ∀ u w : String, endsWith.test (.text (u ++ w)) (.text w) = true := by
  refine ⟨fun h => ?_, fun h => ?_, fun h => ?_⟩
  · have hcontains := h "" "ΑΣ" "Α"
    exact absurd hcontains (by decide +kernel)
  · have hstarts := h "ΑΣ" "Α"
    exact absurd hstarts (by decide +kernel)
  · have hends := h "Α" "Σ"
    exact absurd hends (by decide +kernel)

end Operator
end ScimQuery
