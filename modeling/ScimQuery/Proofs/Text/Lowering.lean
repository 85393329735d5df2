import ScimQuery.Text.Case

/-! # Lower-casing character by character

A character that lower-casing leaves alone wherever it stands, such as a point or a colon, stands in
the lower-case form of every text that has it (`mem_lower`).  A lower-case form has only such
characters (`isPlain_of_mem_lower`), so that it and its parts are their own lower-case forms
(`lower_eq_self`, `lower_lower`).  That rests on the table of cases: no form in it has a form of its
own.  The lower-case form of an ASCII text is taken character by character (`lower_of_isAscii`), and
a text with an ASCII form is one itself, unless the form has a `k` (`isAscii_of_lower`). -/

namespace ScimQuery
namespace Text

/-- A character that is its own lower-case form in every context. -/
def IsPlain (c : Char) : Prop := ∀ before rest, lowerAt before c rest = [c]

theorem isPlain_of_lowerChar {c : Char} (hi : c ≠ 'İ') (hs : c ≠ 'Σ') (h : lowerChar c = c) :
    IsPlain c := by
  intro before rest
  simp [lowerAt, hi, hs, h]

theorem isPlain_point : IsPlain '.' :=
  isPlain_of_lowerChar (by decide) (by decide) (by decide)

theorem isPlain_colon : IsPlain ':' :=
  isPlain_of_lowerChar (by decide) (by decide) (by decide)

theorem mem_lowerAfter {c : Char} (h : IsPlain c) :
    ∀ {s : List Char} (before : List Char), c ∈ s → c ∈ lowerAfter before s
  | d :: s, before, hc => by
      rw [lowerAfter, List.mem_append]
      rcases List.mem_cons.mp hc with rfl | hc
      · exact .inl (by rw [h]; simp)
      · exact .inr (mem_lowerAfter h _ hc)

/-- A plain character of a text stands in its lower-case form. -/
theorem mem_lower {c : Char} (h : IsPlain c) {s : String} (hc : c ∈ s.toList) :
    c ∈ (lower s).toList := by
  rw [lower, String.toList_ofList]
  exact mem_lowerAfter h [] hc

/-- A text has no plain character that a text with the same lower-case form lacks. -/
theorem not_mem_of_lower_eq {c : Char} (h : IsPlain c) {s t : String} (he : lower s = t)
    (ht : c ∉ t.toList) : c ∉ s.toList := by
  intro hc
  exact ht (he ▸ mem_lower h hc)

/-! ### The table of cases -/

namespace CaseRun

/-- The last of the lower-case forms of a run. -/
def lastImage (r : CaseRun) : Nat := r.image + (r.last - r.first)

/-- Whether the lower-case forms of a run are apart from the characters of another: on one side of
them, or in between, where the other run takes every second character and this run does so too or
is a single character. -/
def avoids (r q : CaseRun) : Bool :=
  r.lastImage.blt q.first || q.last.blt r.image ||
    ((r.step == 2 || r.last == r.first) && q.step == 2 && (r.image + q.first) % 2 == 1)

/-- Whether the lower-case forms of a run are characters, and none is an ASCII capital or `İ`. -/
def isProper (r : CaseRun) : Bool :=
  (r.lastImage < 0xD800 || (0xE000 ≤ r.image && r.lastImage < 0x110000)) &&
    (r.lastImage < 0x41 || 0x5A < r.image) && (r.lastImage < 0x130 || 0x130 < r.image)

theorem lower?_eq_some {r : CaseRun} {n m : Nat} (h : r.lower? n = some m) :
    r.first ≤ n ∧ n ≤ r.last ∧ (n - r.first) % r.step = 0 ∧ m = r.image + (n - r.first) := by
  unfold lower? at h
  split at h
  · rename_i hc
    simp only [Bool.and_eq_true, decide_eq_true_eq, beq_iff_eq] at hc
    exact ⟨hc.1.1, hc.1.2, hc.2, (Option.some.inj h).symm⟩
  · cases h

theorem lower?_of_avoids {r q : CaseRun} {n m : Nat} (h : r.lower? n = some m)
    (ha : r.avoids q = true) : q.lower? m = none := by
  cases hq : q.lower? m with
  | none => rfl
  | some k =>
      obtain ⟨hf, hl, hs, rfl⟩ := lower?_eq_some h
      obtain ⟨hf', hl', hs', -⟩ := lower?_eq_some hq
      unfold avoids lastImage at ha
      simp only [Bool.or_eq_true, Bool.and_eq_true, Nat.blt_eq, beq_iff_eq] at ha
      rcases ha with (ha | ha) | ⟨⟨hstep | hsingle, hstep'⟩, ha⟩
      · omega
      · omega
      · rw [hstep] at hs
        rw [hstep'] at hs'
        omega
      · rw [hstep'] at hs'
        omega

end CaseRun

theorem lowerRuns_avoid : ∀ r ∈ lowerRuns, ∀ q ∈ lowerRuns, r.avoids q = true := by
  have h : (lowerRuns.all fun r => lowerRuns.all r.avoids) = true := by decide +kernel
  intro r hr q hq
  exact List.all_eq_true.mp (List.all_eq_true.mp h r hr) q hq

theorem lowerRuns_proper : ∀ r ∈ lowerRuns, r.isProper = true := by
  have h : lowerRuns.all CaseRun.isProper = true := by decide +kernel
  exact List.all_eq_true.mp h

/-! ### Forms of characters -/

theorem toLower_eq_self {c : Char} (h : ¬ (65 ≤ c.toNat ∧ c.toNat ≤ 90)) : c.toLower = c := by
  have h' : ¬ (c.val ≥ 'A'.val ∧ c.val ≤ 'Z'.val) := h
  exact dif_neg h'

theorem toNat_toLower {c : Char} (h : 65 ≤ c.toNat ∧ c.toNat ≤ 90) :
    c.toLower.toNat = c.toNat + 32 := by
  have h' : c.val ≥ 'A'.val ∧ c.val ≤ 'Z'.val := h
  have hv : (c.val + ('a'.val - 'A'.val)).toNat = c.val.toNat + 32 := by
    have : c.val.toNat ≤ 90 := h.2
    rw [UInt32.toNat_add]
    simp
    omega
  have hc : c.toLower = ⟨c.val + ('a'.val - 'A'.val), _⟩ := dif_pos h'
  rw [hc]
  exact hv

theorem toNat_ofNat {n : Nat} (h : n.isValidChar) : (Char.ofNat n).toNat = n := by
  unfold Char.ofNat
  rw [dif_pos h]
  rfl

/-- An ASCII character that is no capital is plain. -/
theorem isPlain_of_ascii {c : Char} (h : c.toNat < 0x80) (hc : ¬ (65 ≤ c.toNat ∧ c.toNat ≤ 90)) :
    IsPlain c := by
  refine isPlain_of_lowerChar ?_ ?_ ?_
  · rintro rfl
    exact absurd h (by decide)
  · rintro rfl
    exact absurd h (by decide)
  · rw [lowerChar, if_pos h, toLower_eq_self hc]

theorem isPlain_toLower {c : Char} (h : c.toNat < 0x80) : IsPlain c.toLower := by
  by_cases hc : 65 ≤ c.toNat ∧ c.toNat ≤ 90
  · have hn := toNat_toLower hc
    exact isPlain_of_ascii (by omega) (by omega)
  · rw [toLower_eq_self hc]
    exact isPlain_of_ascii h hc

/-- The form that the table of cases has for a character is the number of a character. -/
theorem toNat_of_lower? {r : CaseRun} (hr : r ∈ lowerRuns) {n m : Nat}
    (h : r.lower? n = some m) : (Char.ofNat m).toNat = m := by
  obtain ⟨hfirst, hlast, -, hm⟩ := CaseRun.lower?_eq_some h
  have hproper := lowerRuns_proper r hr
  unfold CaseRun.isProper CaseRun.lastImage at hproper
  simp only [Bool.or_eq_true, Bool.and_eq_true, decide_eq_true_eq] at hproper
  exact toNat_ofNat (by unfold Nat.isValidChar; omega)

/-- The form that the table of cases has for a character is plain. -/
theorem isPlain_of_lower? {r : CaseRun} (hr : r ∈ lowerRuns) {n m : Nat}
    (h : r.lower? n = some m) : IsPlain (Char.ofNat m) := by
  obtain ⟨hfirst, hlast, -, hm⟩ := CaseRun.lower?_eq_some h
  have hproper := lowerRuns_proper r hr
  unfold CaseRun.isProper CaseRun.lastImage at hproper
  simp only [Bool.or_eq_true, Bool.and_eq_true, decide_eq_true_eq] at hproper
  have hn := toNat_of_lower? hr h
  have hnone : lowerRuns.findSome? (·.lower? m) = none :=
    List.findSome?_eq_none_iff.mpr fun q hq => CaseRun.lower?_of_avoids h (lowerRuns_avoid r hr q hq)
  by_cases hascii : m < 0x80
  · exact isPlain_of_ascii (by omega) (by omega)
  · refine isPlain_of_lowerChar ?_ ?_ ?_
    · intro he
      rw [he, show 'İ'.toNat = 0x130 from rfl] at hn
      omega
    · intro he
      rw [he, show 'Σ'.toNat = 0x3A3 from rfl] at hn
      rw [← hn] at hnone
      exact absurd hnone (by decide)
    · rw [lowerChar, hn, if_neg hascii, hnone]

/-- A lower-case form of one character is its own lower-case form. -/
theorem isPlain_lowerChar {c : Char} (hi : c ≠ 'İ') (hs : c ≠ 'Σ') : IsPlain (lowerChar c) := by
  by_cases hascii : c.toNat < 0x80
  · rw [lowerChar, if_pos hascii]
    exact isPlain_toLower hascii
  · cases hf : lowerRuns.findSome? (·.lower? c.toNat) with
    | none =>
        have hl : lowerChar c = c := by rw [lowerChar, if_neg hascii, hf]
        rw [hl]
        exact isPlain_of_lowerChar hi hs hl
    | some m =>
        obtain ⟨r, hr, hm⟩ := List.exists_of_findSome?_eq_some hf
        rw [lowerChar, if_neg hascii, hf]
        exact isPlain_of_lower? hr hm

/-! ### Forms of texts -/

theorem isPlain_of_mem_lowerAt {before : List Char} {c d : Char} {rest : List Char}
    (h : d ∈ lowerAt before c rest) : IsPlain d := by
  unfold lowerAt at h
  split at h
  · simp only [List.mem_cons, List.not_mem_nil, or_false] at h
    rcases h with rfl | rfl
    · exact isPlain_of_lowerChar (by decide) (by decide) (by decide)
    · exact isPlain_of_lowerChar (by decide) (by decide) (by decide)
  · rename_i hi
    split at h
    · rw [List.mem_singleton] at h
      subst h
      unfold lowerSigma
      split
      · exact isPlain_of_lowerChar (by decide) (by decide) (by decide)
      · exact isPlain_of_lowerChar (by decide) (by decide) (by decide)
    · rename_i hs
      rw [List.mem_singleton] at h
      subst h
      exact isPlain_lowerChar (by simpa using hi) (by simpa using hs)

theorem isPlain_of_mem_lowerAfter {d : Char} :
    ∀ {s : List Char} (before : List Char), d ∈ lowerAfter before s → IsPlain d
  | c :: s, before, h => by
      rw [lowerAfter, List.mem_append] at h
      rcases h with h | h
      · exact isPlain_of_mem_lowerAt h
      · exact isPlain_of_mem_lowerAfter _ h

/-- A lower-case form has plain characters only. -/
theorem isPlain_of_mem_lower {s : String} {d : Char} (h : d ∈ (lower s).toList) : IsPlain d := by
  rw [lower, String.toList_ofList] at h
  exact isPlain_of_mem_lowerAfter [] h

theorem lowerAfter_eq_self : ∀ {s : List Char} (before : List Char), (∀ c ∈ s, IsPlain c) →
    lowerAfter before s = s
  | [], _, _ => rfl
  | c :: s, before, h => by
      rw [lowerAfter, h c (by simp), lowerAfter_eq_self _ fun d hd => h d (by simp [hd])]
      rfl

/-- A text of plain characters is its own lower-case form. -/
theorem lower_eq_self {s : String} (h : ∀ c ∈ s.toList, IsPlain c) : lower s = s := by
  rw [lower, lowerChars, lowerAfter_eq_self [] h, String.ofList_toList]

theorem lowerAt_ne_nil (before : List Char) (c : Char) (rest : List Char) :
    lowerAt before c rest ≠ [] := by
  unfold lowerAt
  split
  · simp
  · split
    · simp
    · simp

theorem lowerAfter_ne_nil (before : List Char) (c : Char) (s : List Char) :
    lowerAfter before (c :: s) ≠ [] := by
  rw [lowerAfter]
  exact List.append_ne_nil_of_left_ne_nil (lowerAt_ne_nil before c s) _

/-- Only the empty text has an empty lower-case form. -/
theorem lower_eq_empty_iff {s : String} : lower s = "" ↔ s = "" := by
  rw [← String.toList_inj, ← String.toList_inj, lower, String.toList_ofList]
  cases s.toList with
  | nil => simp [lowerChars, lowerAfter]
  | cons c s => simp [lowerChars, lowerAfter_ne_nil]

theorem lower_lower (s : String) : lower (lower s) = lower s :=
  lower_eq_self fun _ => isPlain_of_mem_lower

/-! ### ASCII texts -/

/-- Whether a text has ASCII characters only. -/
def IsAscii (s : List Char) : Prop := ∀ c ∈ s, c.toNat < 0x80

instance (s : List Char) : Decidable (IsAscii s) :=
  List.decidableBAll (fun c : Char => c.toNat < 0x80) s

theorem lowerAt_of_ascii {c : Char} (h : c.toNat < 0x80) (before rest : List Char) :
    lowerAt before c rest = [c.toLower] := by
  have hi : c ≠ 'İ' := by
    rintro rfl
    exact absurd h (by decide)
  have hs : c ≠ 'Σ' := by
    rintro rfl
    exact absurd h (by decide)
  simp [lowerAt, hi, hs, lowerChar, h]

theorem lowerAfter_of_isAscii : ∀ {s : List Char} (before : List Char), IsAscii s →
    lowerAfter before s = s.map Char.toLower
  | [], _, _ => rfl
  | c :: s, before, h => by
      rw [lowerAfter, lowerAt_of_ascii (h c (by simp)),
        lowerAfter_of_isAscii _ fun d hd => h d (by simp [hd])]
      rfl

/-- The lower-case form of an ASCII text. -/
theorem lower_of_isAscii {s : String} (h : IsAscii s.toList) :
    lower s = String.ofList (s.toList.map Char.toLower) := by
  rw [lower, lowerChars, lowerAfter_of_isAscii [] h]

/-! ### Texts with ASCII forms -/

/-- Whether no lower-case form of a run is an ASCII character, but for the `k` of the kelvin sign. -/
def CaseRun.isBeyondAscii (r : CaseRun) : Bool :=
  0x80 ≤ r.image || (r.image == 0x6B && r.last == r.first)

theorem lowerRuns_beyondAscii : ∀ r ∈ lowerRuns, r.isBeyondAscii = true := by
  have h : lowerRuns.all CaseRun.isBeyondAscii = true := by decide +kernel
  exact List.all_eq_true.mp h

/-- A character beyond ASCII has no ASCII character but `k` as its lower-case form. -/
theorem lowerChar_beyondAscii {c : Char} (h : 0x80 ≤ c.toNat) :
    0x80 ≤ (lowerChar c).toNat ∨ lowerChar c = 'k' := by
  rw [lowerChar, if_neg (by omega)]
  cases hf : lowerRuns.findSome? (·.lower? c.toNat) with
  | none => exact .inl h
  | some m =>
      dsimp only
      obtain ⟨r, hr, hm⟩ := List.exists_of_findSome?_eq_some hf
      have hn := toNat_of_lower? hr hm
      obtain ⟨hfirst, hlast, -, rfl⟩ := CaseRun.lower?_eq_some hm
      have hbeyond := lowerRuns_beyondAscii r hr
      unfold CaseRun.isBeyondAscii at hbeyond
      simp only [Bool.or_eq_true, Bool.and_eq_true, decide_eq_true_eq, beq_iff_eq] at hbeyond
      rcases hbeyond with hbeyond | ⟨himage, hsingle⟩
      · rw [hn]
        exact .inl (by omega)
      · have hzero : c.toNat - r.first = 0 := by omega
        rw [himage, hzero]
        exact .inr rfl

theorem isAscii_of_toLower {c : Char} (h : c.toLower.toNat < 0x80) : c.toNat < 0x80 := by
  by_cases hc : 65 ≤ c.toNat ∧ c.toNat ≤ 90
  · omega
  · rwa [toLower_eq_self hc] at h

/-- A capital sigma has no ASCII character as its form. -/
theorem lowerSigma_beyondAscii (before rest : List Char) :
    ¬ (lowerSigma before rest).toNat < 0x80 := by
  unfold lowerSigma
  split
  · decide
  · decide

/-- Only an ASCII character has a form of ASCII characters without a `k`. -/
theorem isAscii_of_lowerAt {before : List Char} {c : Char} {rest : List Char}
    (h : IsAscii (lowerAt before c rest)) (hk : 'k' ∉ lowerAt before c rest) : c.toNat < 0x80 := by
  rcases Nat.lt_or_ge c.toNat 0x80 with hc | hc
  · exact hc
  unfold lowerAt at h hk
  split at h
  · exact absurd (h '\u0307' (by simp)) (by decide)
  · rename_i hi
    rw [if_neg hi] at hk
    split at h
    · exact absurd (h _ (by simp)) (lowerSigma_beyondAscii before rest)
    · rename_i hs
      rw [if_neg hs, List.mem_singleton] at hk
      rcases lowerChar_beyondAscii hc with hbeyond | he
      · exact absurd (h (lowerChar c) (by simp)) (by omega)
      · exact absurd he.symm hk

/-- An ASCII character in the form of a character, but for `i` and `k`, is its ASCII form. -/
theorem toLower_of_mem_lowerAt {before : List Char} {c d : Char} {rest : List Char}
    (h : d ∈ lowerAt before c rest) (hd : d.toNat < 0x80) (hi : d ≠ 'i') (hk : d ≠ 'k') :
    c.toLower = d := by
  unfold lowerAt at h
  split at h
  · rw [List.mem_cons, List.mem_singleton, or_iff_right hi] at h
    subst h
    exact absurd hd (by decide)
  · split at h
    · rw [List.mem_singleton] at h
      exact absurd (h ▸ hd) (lowerSigma_beyondAscii before rest)
    · rw [List.mem_singleton] at h
      subst h
      rcases Nat.lt_or_ge c.toNat 0x80 with hc | hc
      · rw [lowerChar, if_pos hc]
      · rcases lowerChar_beyondAscii hc with hbeyond | he
        · omega
        · exact absurd he hk

theorem exists_of_mem_lowerAfter {d : Char} (hd : d.toNat < 0x80) (hi : d ≠ 'i') (hk : d ≠ 'k') :
    ∀ {s : List Char} (before : List Char), d ∈ lowerAfter before s → ∃ c ∈ s, c.toLower = d
  | c :: s, before, h => by
      rw [lowerAfter, List.mem_append] at h
      rcases h with h | h
      · exact ⟨c, List.mem_cons_self, toLower_of_mem_lowerAt h hd hi hk⟩
      · obtain ⟨e, he, hlower⟩ := exists_of_mem_lowerAfter hd hi hk _ h
        exact ⟨e, List.mem_cons_of_mem c he, hlower⟩

theorem isAscii_of_lowerAfter : ∀ {s : List Char} (before : List Char),
    IsAscii (lowerAfter before s) → 'k' ∉ lowerAfter before s → IsAscii s
  | [], _, _, _ => fun _ hc => nomatch hc
  | c :: s, before, h, hk => by
      rw [lowerAfter] at h hk
      rw [List.mem_append, not_or] at hk
      intro d hd
      rcases List.mem_cons.mp hd with rfl | hd
      · exact isAscii_of_lowerAt (fun e he => h e (List.mem_append_left _ he)) hk.1
      · exact isAscii_of_lowerAfter _ (fun e he => h e (List.mem_append_right _ he)) hk.2 d hd

/-- A text whose lower-case form is an ASCII text without a `k` is an ASCII text; a `k` may be the form
of the kelvin sign. -/
theorem isAscii_of_lower {s : String} (h : IsAscii (lower s).toList) (hk : 'k' ∉ (lower s).toList) :
    IsAscii s.toList := by
  rw [lower, String.toList_ofList] at h hk
  exact isAscii_of_lowerAfter [] h hk

end Text
end ScimQuery
