import ScimQuery.Proofs.Text.Lowering
import ScimQuery.Text.Blank

/-! # Ends of texts

A text is tight if it neither starts nor ends with a blank.  Of a tight text with blanks around it,
trimming leaves the tight text (`trimChars_padded`); and every text that does not consist of blanks
is of this form (`exists_trim`).  Lower-casing makes no blank of another character, so that the
lower-case form of a tight text is tight (`isTight_lower`). -/

namespace ScimQuery
namespace Text

/-- Whether a text starts and ends with characters that are no blanks. -/
def IsTight (s : List Char) : Prop :=
  ∃ c d, s.head? = some c ∧ s.getLast? = some d ∧ isBlank c = false ∧ isBlank d = false

theorem IsTight.append {s u : List Char} (hs : IsTight s) (middle : List Char) (hu : IsTight u) :
    IsTight (s ++ (middle ++ u)) := by
  obtain ⟨c, _, hc, _, hblank, _⟩ := hs
  obtain ⟨_, d, _, hd, _, hblank'⟩ := hu
  refine ⟨c, d, ?_, ?_, hblank, hblank'⟩
  · rw [List.head?_append, hc, Option.some_or]
  · rw [List.getLast?_append, List.getLast?_append, hd, Option.some_or, Option.some_or]

theorem isTight_of_forall {s : List Char} (hne : s ≠ []) (h : ∀ c ∈ s, isBlank c = false) :
    IsTight s := by
  refine ⟨s.head hne, s.getLast hne, List.head?_eq_some_head hne, List.getLast?_eq_some_getLast hne,
    h _ (List.head_mem hne), h _ (List.getLast_mem hne)⟩

theorem isTight_singleton {c : Char} (h : isBlank c = false) : IsTight [c] :=
  ⟨c, c, rfl, rfl, h, h⟩

/-- A tight text ends with no blank, and so does every end of it. -/
theorem IsTight.isBlank_of_getLast? {front rest : List Char} (h : IsTight (front ++ rest))
    {d : Char} (hd : rest.getLast? = some d) : isBlank d = false := by
  obtain ⟨_, e, _, he, _, hblank⟩ := h
  rw [List.getLast?_append, hd, Option.some_or] at he
  exact Option.some.inj he ▸ hblank

theorem trimFront_of_head {s : List Char} {c : Char} (hc : s.head? = some c)
    (hblank : isBlank c = false) : trimFront s = s := by
  cases s with
  | nil => rfl
  | cons d s =>
      obtain rfl : d = c := by simpa using hc
      simp [trimFront, hblank]

/-! ### Blanks around a text -/

/-- Whether a list of characters consists of blanks. -/
def AreBlanks (s : List Char) : Prop := ∀ c ∈ s, isBlank c = true

theorem areBlanks_nil : AreBlanks [] := by
  intro c hc
  cases hc

theorem AreBlanks.not_mem {b : List Char} (hb : AreBlanks b) {c : Char} (hc : isBlank c = false) :
    c ∉ b := by
  intro hmem
  have := hb c hmem
  rw [hc] at this
  cases this

/-- No blanks are at the end of a text that ends with no blank. -/
theorem AreBlanks.eq_nil_of_getLast? {b : List Char} (hb : AreBlanks b) (front : List Char)
    (h : ∀ d, (front ++ b).getLast? = some d → isBlank d = false) : b = [] := by
  rcases List.eq_nil_or_concat b with hnil | ⟨w, d, rfl⟩
  · exact hnil
  · have hblank := h d (by rw [List.concat_eq_append, ← List.append_assoc, List.getLast?_concat])
    exact absurd (by simp) (hb.not_mem hblank)

theorem trimFront_append {b s : List Char} (hb : AreBlanks b) {c : Char} (hc : s.head? = some c)
    (hblank : isBlank c = false) : trimFront (b ++ s) = s := by
  have h : trimFront (b ++ s) = trimFront s := List.dropWhile_append_of_pos hb
  rw [h, trimFront_of_head hc hblank]

/-- Trimming takes the blanks around a tight text away. -/
theorem trimChars_padded {b s b' : List Char} (hb : AreBlanks b) (hs : IsTight s)
    (hb' : AreBlanks b') : trimChars (b ++ (s ++ b')) = s := by
  obtain ⟨c, d, hc, hd, hblank, hblank'⟩ := hs
  have hfront : (s ++ b').head? = some c := by rw [List.head?_append, hc, Option.some_or]
  have hback : s.reverse.head? = some d := by rw [List.head?_reverse, hd]
  have hreverse : AreBlanks b'.reverse := fun x hx => hb' x (List.mem_reverse.mp hx)
  rw [trimChars, trimFront_append hb hfront hblank, List.reverse_append,
    trimFront_append hreverse hback hblank', List.reverse_reverse]

theorem allBlank_padded (b b' : List Char) {s : List Char} (hs : IsTight s) :
    allBlank (String.ofList (b ++ (s ++ b'))) = false := by
  obtain ⟨c, _, hc, _, hblank, _⟩ := hs
  have hmem : c ∈ s := List.mem_of_head? hc
  simp only [allBlank, String.toList_ofList, List.all_eq_false]
  exact ⟨c, by simp [hmem], by simp [hblank]⟩

/-- Trimming leaves a tight text as it is. -/
theorem trim_of_isTight {s : String} (h : IsTight s.toList) : trim s = s := by
  have hself := trimChars_padded areBlanks_nil h areBlanks_nil
  rw [List.nil_append, List.append_nil] at hself
  rw [trim, hself, String.ofList_toList]

/-- A text that does not consist of blanks has a first character that is no blank. -/
theorem exists_first : ∀ {s : List Char}, ¬ AreBlanks s →
    ∃ b c t, AreBlanks b ∧ isBlank c = false ∧ s = b ++ c :: t
  | [], h => absurd areBlanks_nil h
  | c :: s, h => by
      cases hc : isBlank c with
      | false => exact ⟨[], c, s, areBlanks_nil, hc, rfl⟩
      | true =>
          have hs : ¬ AreBlanks s := by
            intro hs
            apply h
            intro x hx
            rcases List.mem_cons.mp hx with rfl | hx
            · exact hc
            · exact hs x hx
          obtain ⟨b, d, t, hb, hd, rfl⟩ := exists_first hs
          refine ⟨c :: b, d, t, ?_, hd, rfl⟩
          intro x hx
          rcases List.mem_cons.mp hx with rfl | hx
          · exact hc
          · exact hb x hx

/-- A text that starts with no blank is tight up to the blanks at its end. -/
theorem exists_trimEnd {c : Char} (hc : isBlank c = false) (s : List Char) :
    ∃ t b, IsTight t ∧ AreBlanks b ∧ c :: s = t ++ b := by
  have hnot : ¬ AreBlanks (c :: s).reverse := by
    intro h
    have := h c (by simp)
    rw [hc] at this
    cases this
  obtain ⟨b, d, t, hb, hd, hsplit⟩ := exists_first hnot
  have hs : c :: s = (d :: t).reverse ++ b.reverse := by
    rw [← List.reverse_append, ← hsplit, List.reverse_reverse]
  refine ⟨(d :: t).reverse, b.reverse, ⟨c, d, ?_, ?_, hc, hd⟩, ?_, hs⟩
  · cases hr : (d :: t).reverse with
    | nil => simp at hr
    | cons e r =>
        rw [hr, List.cons_append, List.cons.injEq] at hs
        rw [hs.1]
        rfl
  · rw [List.getLast?_reverse]
    rfl
  · exact fun x hx => hb x (List.mem_reverse.mp hx)

/-- A text that does not consist of blanks is what trimming leaves of it, with blanks around it. -/
theorem exists_trim {text : String} (h : allBlank text = false) :
    ∃ b b', AreBlanks b ∧ AreBlanks b' ∧ IsTight (trim text).toList ∧
      text.toList = b ++ ((trim text).toList ++ b') := by
  have hnot : ¬ AreBlanks text.toList := by
    intro hall
    rw [allBlank, List.all_eq_true.mpr hall] at h
    cases h
  obtain ⟨b, c, s, hb, hc, hsplit⟩ := exists_first hnot
  obtain ⟨t, b', ht, hb', hs⟩ := exists_trimEnd hc s
  have htrim : (trim text).toList = t := by
    rw [trim, String.toList_ofList, hsplit, hs, trimChars_padded hb ht hb']
  exact ⟨b, b', hb, hb', htrim ▸ ht, by rw [htrim, hsplit, hs]⟩

/-- Trimming leaves nothing of a text of blanks, and of no other. -/
theorem allBlank_iff {s : String} : allBlank s = true ↔ trim s = "" := by
  constructor
  · intro h
    have hfront : trimFront (s.toList ++ []) = [] :=
      List.dropWhile_append_of_pos (List.all_eq_true.mp h)
    rw [List.append_nil] at hfront
    rw [trim, trimChars, hfront]
    rfl
  · intro h
    refine Bool.of_not_eq_false fun hall => ?_
    obtain ⟨_, _, _, _, htight, _⟩ := exists_trim hall
    obtain ⟨c, _, hc, _⟩ := htight
    rw [h] at hc
    cases hc

/-! ### Lower-case forms -/

/-- The blank characters by ranges. -/
def blankRanges : List (Nat × Nat) :=
  [(0x09, 0x0D), (0x1C, 0x20), (0x85, 0x85), (0xA0, 0xA0), (0x1680, 0x1680), (0x2000, 0x200A),
    (0x2028, 0x2029), (0x202F, 0x202F), (0x205F, 0x205F), (0x3000, 0x3000)]

theorem inRanges_of_isBlank {c : Char} (h : isBlank c = true) :
    inRanges blankRanges c.toNat = true := by
  simp only [isBlank, Bool.or_eq_true, Bool.and_eq_true, decide_eq_true_eq, beq_iff_eq] at h
  simp only [inRanges, blankRanges, List.any_cons, List.any_nil, Bool.or_eq_true, Bool.and_eq_true,
    decide_eq_true_eq]
  omega

/-- Whether no lower-case form of a run is a blank. -/
def CaseRun.isInked (r : CaseRun) : Bool :=
  blankRanges.all fun (first, last) => r.lastImage < first || last < r.image

theorem lowerRuns_inked : ∀ r ∈ lowerRuns, r.isInked = true := by
  have h : lowerRuns.all CaseRun.isInked = true := by decide +kernel
  exact List.all_eq_true.mp h

/-- The form that the table of cases has for a character is no blank. -/
theorem isBlank_of_lower? {r : CaseRun} (hr : r ∈ lowerRuns) {n m : Nat}
    (h : r.lower? n = some m) : isBlank (Char.ofNat m) = false := by
  refine Bool.eq_false_iff.mpr fun hblank => ?_
  -- A blank lies in one of the ranges, and the forms of the run are apart from each of these.
  have hin := inRanges_of_isBlank hblank
  rw [toNat_of_lower? hr h] at hin
  obtain ⟨⟨first, last⟩, hmem, hrange⟩ := List.any_eq_true.mp hin
  have hapart := List.all_eq_true.mp (lowerRuns_inked r hr) _ hmem
  obtain ⟨hfirst, hlast, -, rfl⟩ := CaseRun.lower?_eq_some h
  unfold CaseRun.lastImage at hapart
  simp only [Bool.or_eq_true, Bool.and_eq_true, decide_eq_true_eq] at hrange hapart
  omega

theorem isBlank_toLower {c : Char} (h : isBlank c = false) : isBlank c.toLower = false := by
  by_cases hc : 65 ≤ c.toNat ∧ c.toNat ≤ 90
  · have hn := toNat_toLower hc
    simp only [isBlank, Bool.or_eq_false_iff, Bool.and_eq_false_iff, decide_eq_false_iff_not,
      beq_eq_false_iff_ne]
    omega
  · rwa [toLower_eq_self hc]

theorem isBlank_lowerChar {c : Char} (h : isBlank c = false) : isBlank (lowerChar c) = false := by
  unfold lowerChar
  split
  · exact isBlank_toLower h
  · split
    · rename_i m hm
      obtain ⟨r, hr, hlower⟩ := List.exists_of_findSome?_eq_some hm
      exact isBlank_of_lower? hr hlower
    · exact h

/-- The form of a character that is no blank has no blank. -/
theorem isBlank_of_mem_lowerAt {before : List Char} {c d : Char} {rest : List Char}
    (h : isBlank c = false) (hd : d ∈ lowerAt before c rest) : isBlank d = false := by
  unfold lowerAt at hd
  split at hd
  · simp only [List.mem_cons, List.not_mem_nil, or_false] at hd
    rcases hd with rfl | rfl
    · decide
    · decide
  · split at hd
    · rw [List.mem_singleton] at hd
      subst hd
      unfold lowerSigma
      split
      · decide
      · decide
    · rw [List.mem_singleton] at hd
      subst hd
      exact isBlank_lowerChar h

/-- The form of a text starts with what starts the form of its first character. -/
theorem exists_head?_lowerAfter (before : List Char) (c : Char) (s : List Char) :
    ∃ d, (lowerAfter before (c :: s)).head? = some d ∧ d ∈ lowerAt before c s := by
  have hne := lowerAt_ne_nil before c s
  refine ⟨(lowerAt before c s).head hne, ?_, List.head_mem hne⟩
  rw [lowerAfter, List.head?_append, List.head?_eq_some_head hne, Option.some_or]

/-- The form of a text ends with what ends the form of its last character. -/
theorem exists_getLast?_lowerAfter {c : Char} : ∀ {s : List Char} (before : List Char),
    s.getLast? = some c →
    ∃ before' d, (lowerAfter before s).getLast? = some d ∧ d ∈ lowerAt before' c []
  | [e], before, h => by
      obtain rfl : e = c := by simpa using h
      have hne := lowerAt_ne_nil before e []
      refine ⟨before, (lowerAt before e []).getLast hne, ?_, List.getLast_mem hne⟩
      rw [lowerAfter, lowerAfter, List.append_nil, List.getLast?_eq_some_getLast hne]
  | e :: f :: s, before, h => by
      rw [List.getLast?_cons_cons] at h
      obtain ⟨before', d, hlast, hd⟩ := exists_getLast?_lowerAfter (e :: before) h
      refine ⟨before', d, ?_, hd⟩
      rw [lowerAfter, List.getLast?_append, hlast, Option.some_or]

/-- Lower-casing leaves a tight text tight. -/
theorem isTight_lower {s : String} (h : IsTight s.toList) : IsTight (lower s).toList := by
  obtain ⟨c, d, hc, hd, hblank, hblank'⟩ := h
  obtain ⟨before, f, hlast, hf⟩ := exists_getLast?_lowerAfter [] hd
  obtain ⟨t, ht⟩ := List.head?_eq_some_iff.mp hc
  obtain ⟨e, hfirst, he⟩ := exists_head?_lowerAfter [] c t
  rw [← ht] at hfirst
  rw [lower, String.toList_ofList]
  exact ⟨e, f, hfirst, hlast, isBlank_of_mem_lowerAt hblank he, isBlank_of_mem_lowerAt hblank' hf⟩

end Text
end ScimQuery
