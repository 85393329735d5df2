import ScimQuery.Proofs.Attribute.Routes

/-! # The pattern of qualified paths

What a path qualified by a URN is, said by its characters and not by a search in it: `urn:` in any case
and characters of one class, a colon, characters of another class, and perhaps a line feed
(`Urn.Splits`).  The classes have almost all their characters in common, and a path may have many colons
and points, so that it might be cut at several of them.  But no colon is in the second class.  So there
is one cut at most, at the last colon, and the search finds it (`split?_iff_splits`). -/

namespace ScimQuery
namespace Urn

/-! ### Classes of characters -/

/-- The letters and digits of both classes, as ranges with their first and last character. -/
def letterRanges : List (Char × Char) := [('a', 'z'), ('A', 'Z'), ('0', '9')]

/-- The characters outside of ASCII that are letters of these ranges when case is ignored. -/
def otherLetters : List Char := ['\u0130', '\u0131', '\u017f', '\u212a']

/-- The marks in a schema URN. -/
def schemaMarks : List Char := [':', '.', '_', '-']

/-- The marks in a path within a schema. -/
def suffixMarks : List Char := ['_', '.', '$', '-']

/-- `InClass marks c`: a character is a letter or digit, ignoring case, or one of some marks. -/
def InClass (marks : List Char) (c : Char) : Prop :=
  (∃ range ∈ letterRanges, range.1 ≤ c ∧ c ≤ range.2) ∨ c ∈ otherLetters ∨ c ∈ marks

theorem isAlphanum_iff_range {c : Char} :
    c.isAlphanum = true ↔ ∃ range ∈ letterRanges, range.1 ≤ c ∧ c ≤ range.2 := by
  have hranges : (∃ range ∈ letterRanges, range.1 ≤ c ∧ c ≤ range.2) ↔
      ('a' ≤ c ∧ c ≤ 'z') ∨ ('A' ≤ c ∧ c ≤ 'Z') ∨ ('0' ≤ c ∧ c ≤ '9') := by
    simp [letterRanges]
  rw [hranges, Text.isAlphanum_iff]
  exact or_left_comm

theorem inClass_iff {marks : List Char} {c : Char} :
    InClass marks c ↔ isLetterOrDigit c = true ∨ c ∈ marks := by
  rw [InClass, ← isAlphanum_iff_range, ← or_assoc]
  simp [isLetterOrDigit, otherLetters, or_assoc]

theorem inSchema_iff {c : Char} : inSchema c = true ↔ InClass schemaMarks c := by
  rw [inClass_iff]
  simp [inSchema, schemaMarks, or_assoc]

theorem inSuffix_iff {c : Char} : inSuffix c = true ↔ InClass suffixMarks c := by
  rw [inClass_iff]
  simp [inSuffix, suffixMarks, or_assoc]

/-! ### The pattern -/

/-- `Splits path schema suffix`: a path, or a path without the line feed at its end, is `urn:`, in any
case, and characters of the class of schemas, then a colon, then characters of the class of paths within
a schema. -/
structure Splits (path schema suffix : String) : Prop where
  path_eq : path = schema ++ ":" ++ suffix ∨ path = schema ++ ":" ++ suffix ++ "\n"
  schema_eq : ∃ start body, schema = start ++ body ∧ Text.lower start = "urn:" ∧ body ≠ "" ∧
    ∀ c ∈ body.toList, InClass schemaMarks c
  suffix_ne : suffix ≠ ""
  suffix_in : ∀ c ∈ suffix.toList, InClass suffixMarks c

theorem isSuffix_iff {s : String} :
    isSuffix s.toList = true ↔ s ≠ "" ∧ ∀ c ∈ s.toList, InClass suffixMarks c := by
  simp only [isSuffix, Bool.and_eq_true, List.all_eq_true, inSuffix_iff]
  simp

/-- The lower-case form `urn:` is that of four ASCII characters. -/
theorem lower_eq_start_iff {s : String} :
    Text.lower s = "urn:" ↔ s.toList.map Char.toLower = ['u', 'r', 'n', ':'] := by
  constructor
  · intro h
    have hstart : Text.IsAscii (Text.lower s).toList ∧ 'k' ∉ (Text.lower s).toList := by
      rw [h]
      decide +kernel
    have hascii : Text.IsAscii s.toList := Text.isAscii_of_lower hstart.1 hstart.2
    rw [Text.lower_of_isAscii hascii, ← String.toList_inj, String.toList_ofList] at h
    exact h
  · intro h
    have hascii : Text.IsAscii s.toList := by
      intro c hc
      have hall : ∀ d ∈ ['u', 'r', 'n', ':'], d.toNat < 0x80 := by simp
      exact Text.isAscii_of_toLower (hall _ (h ▸ List.mem_map_of_mem hc))
    rw [Text.lower_of_isAscii hascii, h]

theorem body?_eq_some_iff {s rest : List Char} :
    body? s = some rest ↔
      ∃ start, s = start ++ rest ∧ start.map Char.toLower = ['u', 'r', 'n', ':'] := by
  constructor
  · intro h
    unfold body? at h
    split at h
    · rename_i u r n rest'
      split at h
      · rename_i hlower
        obtain ⟨hu, hr, hn⟩ := hlower
        obtain rfl := Option.some.inj h
        exact ⟨[u, r, n, ':'], rfl, by simp [hu, hr, hn]⟩
      · cases h
    · cases h
  · rintro ⟨start, rfl, hstart⟩
    obtain ⟨u, r, n, d, rfl⟩ : ∃ u r n d, start = [u, r, n, d] := by
      have hlength := congrArg List.length hstart
      rw [List.length_map] at hlength
      exact List.length_eq_four.mp hlength
    simp only [List.map_cons, List.map_nil, List.cons.injEq, and_true, Text.toLower_eq_colon]
      at hstart
    obtain ⟨hu, hr, hn, rfl⟩ := hstart
    simp [body?, hu, hr, hn]

theorem isSchema_iff {s : String} :
    isSchema s.toList = true ↔ ∃ start body, s = start ++ body ∧ Text.lower start = "urn:" ∧
      body ≠ "" ∧ ∀ c ∈ body.toList, InClass schemaMarks c := by
  have hbody : isSchema s.toList = true ↔
      ∃ rest, body? s.toList = some rest ∧ rest ≠ [] ∧ ∀ c ∈ rest, InClass schemaMarks c := by
    simp only [isSchema, ← inSchema_iff]
    cases body? s.toList with
    | none => simp
    | some rest => simp
  rw [hbody]
  constructor
  · rintro ⟨rest, hrest, hne, hclass⟩
    obtain ⟨start, hs, hstart⟩ := body?_eq_some_iff.mp hrest
    refine ⟨String.ofList start, String.ofList rest, ?_, ?_, ?_, ?_⟩
    · rw [← String.toList_inj, hs]
      simp
    · rw [lower_eq_start_iff, String.toList_ofList]
      exact hstart
    · simpa [← String.toList_inj] using hne
    · simpa using hclass
  · rintro ⟨start, body, rfl, hstart, hne, hclass⟩
    refine ⟨body.toList, body?_eq_some_iff.mpr ⟨start.toList, by simp, ?_⟩, ?_, hclass⟩
    · exact lower_eq_start_iff.mp hstart
    · exact mt String.toList_eq_nil_iff.mp hne

/-! ### The cut -/

/-- What is left of a text without a line feed at its end. -/
theorem dropLineFeed_eq_iff {s t : List Char} (ht : t.getLast? ≠ some '\n') :
    dropLineFeed s = t ↔ s = t ∨ s = t ++ ['\n'] := by
  unfold dropLineFeed
  constructor
  · intro h
    split at h
    · rename_i hlast
      obtain ⟨front, rfl⟩ := List.getLast?_eq_some_iff.mp hlast
      rw [List.dropLast_concat] at h
      exact .inr (by rw [h])
    · exact .inl h
  · rintro (rfl | rfl)
    · rw [if_neg ht]
    · rw [if_pos List.getLast?_concat, List.dropLast_concat]

theorem split?_eq_some_iff {path schema suffix : String} :
    split? path = some (schema, suffix) ↔
      dropLineFeed path.toList = (schema ++ ":" ++ suffix).toList ∧
        isSchema schema.toList = true ∧ isSuffix suffix.toList = true := by
  have hjoined : (schema ++ ":" ++ suffix).toList = schema.toList ++ ':' :: suffix.toList := by simp
  rw [hjoined, ← splitChars?_eq_some_iff, split?, Option.map_eq_some_iff]
  constructor
  · rintro ⟨⟨s, t⟩, hs, he⟩
    simp only [Prod.mk.injEq] at he
    obtain ⟨rfl, rfl⟩ := he
    rwa [String.toList_ofList, String.toList_ofList]
  · intro h
    exact ⟨_, h, by simp⟩

/-- No line feed is at the end of a path within a schema. -/
theorem getLast?_joined_ne {schema suffix : String} (h : isSuffix suffix.toList = true) :
    (schema ++ ":" ++ suffix).toList.getLast? ≠ some '\n' := by
  intro hlast
  have hne : suffix.toList ≠ [] := by
    intro hnil
    rw [hnil] at h
    cases h
  rw [String.toList_append, List.getLast?_append_of_ne_nil _ hne] at hlast
  have hfeed := inSuffix_of_isSuffix h _ (List.mem_of_getLast? hlast)
  exact absurd hfeed (by decide)

theorem split?_eq_some_iff_splits {path schema suffix : String} :
    split? path = some (schema, suffix) ↔ Splits path schema suffix := by
  have hpath (h : isSuffix suffix.toList = true) :
      dropLineFeed path.toList = (schema ++ ":" ++ suffix).toList ↔
        path = schema ++ ":" ++ suffix ∨ path = schema ++ ":" ++ suffix ++ "\n" := by
    rw [dropLineFeed_eq_iff (getLast?_joined_ne h), String.toList_inj]
    refine or_congr_right ?_
    rw [← String.toList_inj, @String.toList_append _ "\n"]
    rfl
  rw [split?_eq_some_iff]
  constructor
  · rintro ⟨hsplit, hschema, hsuffix⟩
    obtain ⟨hne, hclass⟩ := isSuffix_iff.mp hsuffix
    exact ⟨(hpath hsuffix).mp hsplit, isSchema_iff.mp hschema, hne, hclass⟩
  · rintro ⟨hsplit, hschema, hne, hclass⟩
    have hsuffix := isSuffix_iff.mpr ⟨hne, hclass⟩
    exact ⟨(hpath hsuffix).mpr hsplit, isSchema_iff.mpr hschema, hsuffix⟩

/-- A path is split into two texts exactly if the pattern says so.  A path has one such pair at most,
and no colon stands in its second text, which begins behind the last colon. -/
theorem split?_iff_splits (path : String) :
    (∀ schema suffix, split? path = some (schema, suffix) ↔ Splits path schema suffix) ∧
    ∀ schema suffix, Splits path schema suffix → ':' ∉ suffix.toList ∧
      ∀ schema' suffix', Splits path schema' suffix' → schema' = schema ∧ suffix' = suffix := by
  refine ⟨fun schema suffix => split?_eq_some_iff_splits, fun schema suffix h => ?_⟩
  have hsplit := split?_eq_some_iff_splits.mpr h
  refine ⟨?_, fun schema' suffix' h' => ?_⟩
  · obtain ⟨-, -, hsuffix⟩ := split?_eq_some_iff.mp hsplit
    exact colon_not_mem_of_isSuffix hsuffix
  · have hsplit' := split?_eq_some_iff_splits.mpr h'
    rw [hsplit, Option.some.injEq, Prod.mk.injEq] at hsplit'
    exact ⟨hsplit'.1.symm, hsplit'.2.symm⟩

/-- A path in mixed case, with the kelvin sign and a long s for letters and a line feed at its end. -/
theorem split?_iff_splits_other_letters :
    split? "uRN:a:\u212a:\u017f.$\n" = some ("uRN:a:\u212a", "\u017f.$") ∧
      Splits "uRN:a:\u212a:\u017f.$\n" "uRN:a:\u212a" "\u017f.$" ∧
      ':' ∉ "\u017f.$".toList := by
  have hsplit : split? "uRN:a:\u212a:\u017f.$\n" = some ("uRN:a:\u212a", "\u017f.$") := by
    decide +kernel
  obtain ⟨hiff, hunique⟩ := split?_iff_splits "uRN:a:\u212a:\u017f.$\n"
  have h := (hiff _ _).mp hsplit
  exact ⟨hsplit, h, (hunique _ _ h).1⟩

end Urn
end ScimQuery
