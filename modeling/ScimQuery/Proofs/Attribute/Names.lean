import Mathlib.Data.List.Induction
import ScimQuery.Attribute.Names
import ScimQuery.Proofs.Text.Lowering
import ScimQuery.Proofs.Text.Pieces
import ScimQuery.Proofs.Text.Trimming

/-! # Names in normal form

A name in normal form is not empty, and it is what trimming and what lower-casing leave of itself
(`IsNormal`), so that its normal form is the name again; each of its parts is its own lower-case
form too (`isPlain_of_mem_names`).

A list of names is made element by element: an element adds its name at the end, unless it is blank
or its name is there (`normalize_concat`).  By induction on the elements, each name stands once
(`nodup_names`), in the order of the first elements that give the names (`pairwise_firstIndex`), and
names in normal form that stand once each are left as they are (`normalize_eq_self`).  A text of
names between commas gives the same names as their list (`names_join`). -/

namespace ScimQuery
namespace AttributeNames

/-! ### Repetitions -/

theorem eraseDups_concat (names : List String) (name : String) :
    (names ++ [name]).eraseDups =
      if name ∈ names then names.eraseDups else names.eraseDups ++ [name] := by
  rw [List.eraseDups_append, List.removeAll]
  split
  · rename_i h
    simp [h]
  · rename_i h
    simp [h, List.eraseDups_cons]

theorem nodup_eraseDups (names : List String) : names.eraseDups.Nodup := by
  induction names using List.reverseRecOn with
  | nil => simp
  | append_singleton names name ih =>
      rw [eraseDups_concat]
      split
      · exact ih
      · rename_i h
        refine List.nodup_append.mpr ⟨ih, List.pairwise_singleton _ name, fun a ha b hb => ?_⟩
        rw [List.mem_singleton.mp hb]
        exact ne_of_mem_of_not_mem (List.mem_eraseDups.mp ha) h

theorem nodup_names (given : AttributeNames) : given.names.Nodup := by
  cases given with
  | text s => exact nodup_eraseDups _
  | list names => exact nodup_eraseDups _

/-! ### Names -/

/-- A name in normal form. -/
structure IsNormal (name : String) : Prop where
  nonempty : name ≠ ""
  trimmed : Text.trim name = name
  lowered : Text.lower name = name

theorem IsNormal.normalizeName_eq {name : String} (h : IsNormal name) :
    normalizeName name = name := by
  rw [normalizeName, h.trimmed, h.lowered]

/-- What is not blank gives a name in normal form. -/
theorem isNormal_normalizeName {s : String} (h : normalizeName s ≠ "") :
    IsNormal (normalizeName s) := by
  have htrim : Text.trim s ≠ "" := fun he => h (Text.lower_eq_empty_iff.mpr he)
  have hblank : Text.allBlank s = false :=
    Bool.eq_false_iff.mpr fun hall => htrim (Text.allBlank_iff.mp hall)
  obtain ⟨_, _, _, _, htight, _⟩ := Text.exists_trim hblank
  exact ⟨h, Text.trim_of_isTight (Text.isTight_lower htight), Text.lower_lower _⟩

theorem mem_normalize {given : List String} {name : String} :
    name ∈ normalize given ↔ name ≠ "" ∧ ∃ s ∈ given, normalizeName s = name := by
  rw [normalize, List.mem_eraseDups, List.mem_filter, List.mem_map, bne_iff_ne, and_comm]

theorem isNormal_of_mem_normalize {given : List String} {name : String}
    (h : name ∈ normalize given) : IsNormal name := by
  obtain ⟨hne, s, -, rfl⟩ := mem_normalize.mp h
  exact isNormal_normalizeName hne

theorem isPlain_of_mem_normalize {names : List String} {name : String} (h : name ∈ normalize names) :
    ∀ c ∈ name.toList, Text.IsPlain c := by
  obtain ⟨-, s, -, rfl⟩ := mem_normalize.mp h
  exact fun c => Text.isPlain_of_mem_lower

theorem isPlain_of_mem_names {given : AttributeNames} {name : String} (h : name ∈ given.names) :
    ∀ c ∈ name.toList, Text.IsPlain c := by
  cases given with
  | text s => exact isPlain_of_mem_normalize h
  | list names => exact isPlain_of_mem_normalize h

/-! ### One more element -/

/-- An element adds its name at the end, unless it is blank or its name is there. -/
theorem normalize_concat (given : List String) (s : String) :
    normalize (given ++ [s]) =
      if normalizeName s = "" ∨ normalizeName s ∈ normalize given then normalize given
      else normalize given ++ [normalizeName s] := by
  by_cases hblank : normalizeName s = ""
  · rw [if_pos (.inl hblank)]
    simp [normalize, hblank]
  · have hstep : normalize (given ++ [s]) =
        ((given.map normalizeName).filter (· != "") ++ [normalizeName s]).eraseDups := by
      simp [normalize, hblank]
    rw [hstep, eraseDups_concat]
    by_cases hmem : normalizeName s ∈ normalize given
    · rw [if_pos (List.mem_eraseDups.mp hmem), if_pos (.inr hmem), normalize]
    · rw [if_neg (mt List.mem_eraseDups.mpr hmem), if_neg (not_or.mpr ⟨hblank, hmem⟩), normalize]

/-- Names in normal form that stand once are their own normal form. -/
theorem normalize_eq_self {names : List String} (hd : names.Nodup)
    (hn : ∀ name ∈ names, IsNormal name) : normalize names = names := by
  induction names using List.reverseRecOn with
  | nil => rfl
  | append_singleton names name ih =>
      obtain ⟨hd, -, hnot⟩ := List.nodup_append.mp hd
      have hnames := ih hd fun n h => hn n (List.mem_append_left _ h)
      have hname := hn name (by simp)
      have hfresh : name ∉ names := fun h => hnot name h name (by simp) rfl
      rw [normalize_concat, hnames, hname.normalizeName_eq,
        if_neg (not_or.mpr ⟨hname.nonempty, hfresh⟩)]

/-! ### First occurrences -/

/-- The index of the first element that gives a name, or the number of elements. -/
def firstIndex (given : List String) (name : String) : Nat :=
  given.findIdx fun s => normalizeName s == name

theorem firstIndex_lt {given : List String} {name : String} (h : name ∈ normalize given) :
    firstIndex given name < given.length := by
  obtain ⟨-, s, hs, rfl⟩ := mem_normalize.mp h
  exact List.findIdx_lt_length_of_exists ⟨s, hs, by simp⟩

/-- A name that is there keeps its first element when elements follow. -/
theorem firstIndex_append {given : List String} {name : String} (h : name ∈ normalize given)
    (rest : List String) : firstIndex (given ++ rest) name = firstIndex given name := by
  rw [firstIndex, List.findIdx_append]
  exact if_pos (firstIndex_lt h)

/-- The first element of a new name is the one that adds it. -/
theorem firstIndex_concat {given : List String} {s : String} (hne : normalizeName s ≠ "")
    (h : normalizeName s ∉ normalize given) :
    firstIndex (given ++ [s]) (normalizeName s) = given.length := by
  have hnone : ∀ t ∈ given, (normalizeName t == normalizeName s) = false := by
    intro t ht
    rw [beq_eq_false_iff_ne]
    exact fun he => h (mem_normalize.mpr ⟨hne, t, ht, he⟩)
  rw [firstIndex, List.findIdx_append, List.findIdx_eq_length_of_false hnone,
    if_neg (Nat.lt_irrefl _), List.findIdx_singleton]
  simp

/-- Names stand in the order of the first elements that give them. -/
theorem pairwise_firstIndex (given : List String) :
    (normalize given).Pairwise fun a b => firstIndex given a < firstIndex given b := by
  induction given using List.reverseRecOn with
  | nil => exact .nil
  | append_singleton given s ih =>
      -- The names that are there keep their first elements.
      have hold : (normalize given).Pairwise fun a b =>
          firstIndex (given ++ [s]) a < firstIndex (given ++ [s]) b := by
        refine ih.imp_of_mem fun ha hb hlt => ?_
        rwa [firstIndex_append ha, firstIndex_append hb]
      rw [normalize_concat]
      split
      · exact hold
      · rename_i hnew
        obtain ⟨hne, hnot⟩ := not_or.mp hnew
        refine List.pairwise_append.mpr ⟨hold, List.pairwise_singleton _ _, fun a ha b hb => ?_⟩
        rw [List.mem_singleton.mp hb, firstIndex_append ha, firstIndex_concat hne hnot]
        exact firstIndex_lt ha

/-! ### Names between commas -/

/-- Names without commas are the same joined by commas as in a list. -/
theorem names_join {given : List String} (h : ∀ s ∈ given, ',' ∉ s.toList) :
    names (.text (Text.join "," given)) = names (.list given) := by
  cases given with
  | nil =>
      -- No elements are joined to the empty text, whose one piece is blank.
      decide
  | cons s rest =>
      have hpieces := Text.splitOn_join (List.cons_ne_nil s rest) h
      rw [names, show "," = String.singleton ',' from rfl, hpieces, List.map_map]
      simp [names]

/-- The names of a list are in normal form and stand once each, in the order of the first elements
that give them; they are the normal forms of its elements but for the blank ones.  The names of
these names are the same again, and so are those of the elements joined by commas where no element
has one. -/
theorem names_canonical (given : List String) :
    (names (.list given)).Nodup ∧
    (∀ name ∈ names (.list given), IsNormal name) ∧
    (∀ name, name ∈ names (.list given) ↔
      name ≠ "" ∧ ∃ s ∈ given, Text.lower (Text.trim s) = name) ∧
    (names (.list given)).Pairwise (fun a b => firstIndex given a < firstIndex given b) ∧
    names (.list (names (.list given))) = names (.list given) ∧
    ((∀ s ∈ given, ',' ∉ s.toList) →
      names (.text (Text.join "," given)) = names (.list given)) := by
  have hnormal : ∀ name ∈ names (.list given), IsNormal name := fun _ => isNormal_of_mem_normalize
  refine ⟨nodup_names _, hnormal, fun name => mem_normalize, pairwise_firstIndex given, ?_,
    names_join⟩
  exact normalize_eq_self (nodup_names (.list given)) hnormal

/-- Elements with blanks around them, a blank one, and one name in two spellings. -/
def spelledNames : List String := [" userName ", "\u3000", "İd\u00a0", "USERNAME", "ΟΔΟΣ"]

theorem names_canonical_spelled :
    (∀ s ∈ spelledNames, ',' ∉ s.toList) ∧
      names (.text (Text.join "," spelledNames)) = ["username", "i\u0307d", "οδος"] := by
  have hcommas : ∀ s ∈ spelledNames, ',' ∉ s.toList := by decide
  obtain ⟨-, -, -, -, -, hjoin⟩ := names_canonical spelledNames
  refine ⟨hcommas, (hjoin hcommas).trans ?_⟩
  decide +kernel

end AttributeNames
end ScimQuery
