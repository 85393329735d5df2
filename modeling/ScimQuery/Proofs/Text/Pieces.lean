import ScimQuery.Text.Pieces

/-! # Pieces of a text

What the cuts of `Text.Pieces` give for texts without the separator and for such texts joined by it,
what they give when every character but the separator may change, and what is taken from the front
of a text by a class of characters. -/

namespace ScimQuery
namespace Text

theorem splitOn_of_not_mem {sep : Char} : ∀ {s : List Char}, sep ∉ s → splitOn sep s = [s]
  | [], _ => rfl
  | c :: s, h => by
      have hc : c ≠ sep := fun he => h (by simp [he])
      have hs : sep ∉ s := fun hm => h (by simp [hm])
      rw [splitOn, if_neg hc, splitOn_of_not_mem hs]

theorem splitOn_ne_nil (sep : Char) : ∀ s : List Char, splitOn sep s ≠ []
  | [] => by simp [splitOn]
  | c :: s => by
      rw [splitOn]
      split
      · simp
      · split
        · simp
        · simp

/-- The pieces of two texts with a separator between them. -/
theorem splitOn_joined {sep : Char} (t : List Char) : ∀ s : List Char,
    splitOn sep (s ++ sep :: t) = splitOn sep s ++ splitOn sep t
  | [] => by
      simp only [List.nil_append, splitOn, if_pos, List.singleton_append]
  | c :: s => by
      simp only [List.cons_append, splitOn, splitOn_joined t s]
      by_cases hc : c = sep
      · simp only [if_pos hc, List.cons_append]
      · obtain ⟨piece, pieces, hs⟩ := List.exists_cons_of_ne_nil (splitOn_ne_nil sep s)
        simp only [if_neg hc, hs, List.cons_append]

/-- The pieces of joined texts without the separator are these texts. -/
theorem splitOn_join {sep : Char} : ∀ {texts : List String}, texts ≠ [] →
    (∀ s ∈ texts, sep ∉ s.toList) →
    splitOn sep (join (String.singleton sep) texts).toList = texts.map String.toList
  | [s], _, h => by
      rw [join, splitOn_of_not_mem (h s List.mem_cons_self)]
      rfl
  | s :: t :: rest, _, h => by
      have hs := splitOn_of_not_mem (h s List.mem_cons_self)
      have hrest := splitOn_join (List.cons_ne_nil t rest)
        fun u hu => h u (List.mem_cons_of_mem s hu)
      have hjoin : join (String.singleton sep) (s :: t :: rest) =
          s ++ String.singleton sep ++ join (String.singleton sep) (t :: rest) := rfl
      rw [hjoin, String.toList_append, String.toList_append, String.toList_singleton,
        List.append_assoc, List.singleton_append, splitOn_joined, hs, hrest]
      rfl

theorem cutLast_of_not_mem {sep : Char} : ∀ {s : List Char}, sep ∉ s → cutLast sep s = none
  | [], _ => rfl
  | c :: s, h => by
      have hc : c ≠ sep := fun he => h (by simp [he])
      have hs : sep ∉ s := fun hm => h (by simp [hm])
      rw [cutLast, cutLast_of_not_mem hs]
      exact if_neg hc

/-! ### Characters of pieces -/

theorem mem_of_mem_splitOn {sep c : Char} : ∀ {s piece : List Char}, piece ∈ splitOn sep s →
    c ∈ piece → c ∈ s
  | [], piece, hp, hc => by
      rw [splitOn, List.mem_singleton] at hp
      rw [hp] at hc
      exact hc
  | d :: s, piece, hp, hc => by
      rw [splitOn] at hp
      split at hp
      · rcases List.mem_cons.mp hp with rfl | hp
        · cases hc
        · exact List.mem_cons_of_mem d (mem_of_mem_splitOn hp hc)
      · split at hp
        · rw [List.mem_singleton] at hp
          rw [hp, List.mem_singleton] at hc
          simp [hc]
        · rename_i first pieces hs
          rcases List.mem_cons.mp hp with rfl | hp
          · rcases List.mem_cons.mp hc with rfl | hc
            · exact List.mem_cons_self
            · exact List.mem_cons_of_mem d (mem_of_mem_splitOn (hs ▸ List.mem_cons_self) hc)
          · exact List.mem_cons_of_mem d
              (mem_of_mem_splitOn (hs ▸ List.mem_cons_of_mem first hp) hc)

/-- What stands before and after the first separator. -/
theorem cutFirst_eq_some_iff {sep : Char} {s before after : List Char} :
    cutFirst sep s = some (before, after) ↔ s = before ++ sep :: after ∧ sep ∉ before := by
  induction s generalizing before with
  | nil => simp [cutFirst]
  | cons c s ih =>
      rw [cutFirst]
      by_cases hc : c = sep
      · rw [if_pos hc]
        cases before with
        | nil => simp [hc]
        | cons d before =>
            simp only [Option.some.injEq, Prod.mk.injEq, List.nil_eq, reduceCtorEq, false_and,
              List.cons_append, List.cons.injEq, List.mem_cons, not_or, false_iff, not_and]
            rintro ⟨rfl, -⟩ hsep
            exact absurd hc.symm hsep
      · rw [if_neg hc]
        cases before with
        | nil =>
            simp only [Option.map_eq_some_iff, Prod.mk.injEq, reduceCtorEq, false_and, and_false,
              exists_const, List.nil_append, List.cons.injEq, List.not_mem_nil, not_false_eq_true,
              and_true, false_iff, not_and]
            exact fun h => absurd h hc
        | cons d before =>
            simp only [Option.map_eq_some_iff, Prod.exists, Prod.mk.injEq, List.cons.injEq,
              List.cons_append, List.mem_cons, not_or]
            constructor
            · rintro ⟨_, _, h, ⟨rfl, rfl⟩, rfl⟩
              obtain ⟨rfl, hn⟩ := ih.mp h
              exact ⟨⟨rfl, rfl⟩, Ne.symm hc, hn⟩
            · rintro ⟨⟨rfl, rfl⟩, -, hn⟩
              exact ⟨before, after, ih.mpr ⟨rfl, hn⟩, ⟨rfl, rfl⟩, rfl⟩

theorem cutFirst_eq_none_iff {sep : Char} {s : List Char} : cutFirst sep s = none ↔ sep ∉ s := by
  constructor
  · intro h hm
    obtain ⟨before, after, rfl, hbefore⟩ := List.eq_append_cons_of_mem hm
    rw [cutFirst_eq_some_iff.mpr ⟨rfl, hbefore⟩] at h
    cases h
  · intro h
    rw [Option.eq_none_iff_forall_ne_some]
    rintro ⟨before, after⟩ hcut
    refine h ?_
    rw [(cutFirst_eq_some_iff.mp hcut).1]
    simp

theorem cutLast_append {sep : Char} {after : List Char} (h : sep ∉ after) : ∀ before : List Char,
    cutLast sep (before ++ sep :: after) = some (before, after)
  | [] => by rw [List.nil_append, cutLast, cutLast_of_not_mem h, if_pos rfl]
  | c :: before => by rw [List.cons_append, cutLast, cutLast_append h before]

/-- A separator in a text has a last place. -/
theorem exists_last {sep : Char} {s : List Char} (h : sep ∈ s) :
    ∃ before after, s = before ++ sep :: after ∧ sep ∉ after := by
  -- It is the first place from behind.
  obtain ⟨after, before, hsplit, hafter⟩ := List.eq_append_cons_of_mem (List.mem_reverse.mpr h)
  refine ⟨before.reverse, after.reverse, ?_, fun hm => hafter (List.mem_reverse.mp hm)⟩
  rw [← List.reverse_reverse s, hsplit]
  simp

/-- What stands before and after the last separator. -/
theorem cutLast_eq_some_iff {sep : Char} {s before after : List Char} :
    cutLast sep s = some (before, after) ↔ s = before ++ sep :: after ∧ sep ∉ after := by
  constructor
  · intro h
    by_cases hm : sep ∈ s
    · obtain ⟨before', after', hs, hnot⟩ := exists_last hm
      rw [hs, cutLast_append hnot, Option.some.injEq, Prod.mk.injEq] at h
      obtain ⟨rfl, rfl⟩ := h
      exact ⟨hs, hnot⟩
    · rw [cutLast_of_not_mem hm] at h
      cases h
  · rintro ⟨rfl, h⟩
    exact cutLast_append h before

/-! ### Changed characters -/

section Map

variable {f : Char → Char} {sep : Char} (hf : ∀ c, f c = sep ↔ c = sep)
include hf

theorem splitOn_map : ∀ s : List Char, splitOn sep (s.map f) = (splitOn sep s).map (List.map f)
  | [] => rfl
  | c :: s => by
      rw [List.map_cons, splitOn, splitOn, splitOn_map s]
      by_cases hc : c = sep
      · rw [if_pos hc, if_pos ((hf c).mpr hc)]
        rfl
      · rw [if_neg hc, if_neg fun h => hc ((hf c).mp h)]
        cases splitOn sep s with
        | nil => rfl
        | cons piece pieces => rfl

theorem cutLast_map : ∀ s : List Char,
    cutLast sep (s.map f) = (cutLast sep s).map (Prod.map (List.map f) (List.map f))
  | [] => rfl
  | c :: s => by
      rw [List.map_cons, cutLast, cutLast, cutLast_map s]
      cases cutLast sep s with
      | some cut => rfl
      | none =>
          by_cases hc : c = sep
          · simp [hc, (hf sep).mpr rfl]
          · simp [hc, hf]

end Map

/-! ### Classes of characters -/

/-- Characters of a class are what is taken from a text that goes on with none of the class. -/
theorem takeWhile_append_of_head {p : Char → Bool} {s : List Char} (hs : ∀ c ∈ s, p c = true)
    (rest : List Char) (hr : ∀ c, rest.head? = some c → p c = false) :
    (s ++ rest).takeWhile p = s ∧ (s ++ rest).dropWhile p = rest := by
  rw [List.takeWhile_append_of_pos hs, List.dropWhile_append_of_pos hs]
  cases rest with
  | nil => simp
  | cons c rest => simp [hr c rfl]

end Text
end ScimQuery
