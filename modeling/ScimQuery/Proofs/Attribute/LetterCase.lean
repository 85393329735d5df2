import Mathlib.Data.List.Forall2
import ScimQuery.Proofs.Attribute.Resolution

/-! # Attribute paths in other letters

Two ASCII paths with one lower-case form are cut at the same places, at points (`names_lower`) and
behind a schema (`split?_lower`), into pieces that differ at most in case.  `Json.Alike` relates
values of one shape whose keys and texts differ at most in case; in such values such paths lead to
such values again (`Path.resolve_alike`). -/

namespace ScimQuery

/-! ### Characters in other letters -/

namespace Text

theorem isAlphanum_iff {c : Char} : c.isAlphanum = true ↔
    (65 ≤ c.toNat ∧ c.toNat ≤ 90) ∨ (97 ≤ c.toNat ∧ c.toNat ≤ 122) ∨
      (48 ≤ c.toNat ∧ c.toNat ≤ 57) := by
  have halphanum : c.isAlphanum = true ↔ c.isAlpha = true ∨ c.isDigit = true :=
    Bool.or_eq_true_iff
  have halpha : c.isAlpha = true ↔ c.isUpper = true ∨ c.isLower = true := Bool.or_eq_true_iff
  have hupper : c.isUpper = true ↔ 65 ≤ c.toNat ∧ c.toNat ≤ 90 := decide_eq_true_iff
  have hlower : c.isLower = true ↔ 97 ≤ c.toNat ∧ c.toNat ≤ 122 :=
    Bool.and_eq_true_iff.trans (and_congr decide_eq_true_iff decide_eq_true_iff)
  have hdigit : c.isDigit = true ↔ 48 ≤ c.toNat ∧ c.toNat ≤ 57 :=
    Bool.and_eq_true_iff.trans (and_congr decide_eq_true_iff decide_eq_true_iff)
  rw [halphanum, halpha, hupper, hlower, hdigit, or_assoc]

theorem toLower_toLower (c : Char) : c.toLower.toLower = c.toLower := by
  by_cases hc : 65 ≤ c.toNat ∧ c.toNat ≤ 90
  · have hn := toNat_toLower hc
    exact toLower_eq_self (by omega)
  · rw [toLower_eq_self hc, toLower_eq_self hc]

theorem isAlphanum_toLower (c : Char) : c.toLower.isAlphanum = c.isAlphanum := by
  by_cases hc : 65 ≤ c.toNat ∧ c.toNat ≤ 90
  · have hn := toNat_toLower hc
    rw [Bool.eq_iff_iff, isAlphanum_iff, isAlphanum_iff]
    omega
  · rw [toLower_eq_self hc]

/-- A character that is no ASCII letter is in lower case only where it stands itself. -/
theorem toLower_eq_iff {c d : Char}
    (hd : ¬ (65 ≤ d.toNat ∧ d.toNat ≤ 90) ∧ ¬ (97 ≤ d.toNat ∧ d.toNat ≤ 122)) :
    c.toLower = d ↔ c = d := by
  by_cases hc : 65 ≤ c.toNat ∧ c.toNat ≤ 90
  · have hn := toNat_toLower hc
    constructor
    · rintro rfl
      omega
    · rintro rfl
      exact absurd hc hd.1
  · rw [toLower_eq_self hc]

theorem toLower_eq_point (c : Char) : c.toLower = '.' ↔ c = '.' := toLower_eq_iff (by decide)

theorem toLower_eq_colon (c : Char) : c.toLower = ':' ↔ c = ':' := toLower_eq_iff (by decide)

theorem IsAscii.of_subset {s t : List Char} (h : IsAscii t) (hs : s ⊆ t) : IsAscii s :=
  fun c hc => h c (hs hc)

end Text

namespace Urn

/-! ### Qualified paths in other letters -/

theorem toLower_beq {c d : Char}
    (hd : ¬ (65 ≤ d.toNat ∧ d.toNat ≤ 90) ∧ ¬ (97 ≤ d.toNat ∧ d.toNat ≤ 122)) :
    (c.toLower == d) = (c == d) := by
  rw [Bool.eq_iff_iff, beq_iff_eq, beq_iff_eq]
  exact Text.toLower_eq_iff hd

theorem isLetterOrDigit_toLower (c : Char) : isLetterOrDigit c.toLower = isLetterOrDigit c := by
  unfold isLetterOrDigit
  rw [Text.isAlphanum_toLower, toLower_beq (by decide), toLower_beq (by decide),
    toLower_beq (by decide), toLower_beq (by decide)]

theorem inSchema_toLower (c : Char) : inSchema c.toLower = inSchema c := by
  unfold inSchema
  rw [isLetterOrDigit_toLower, toLower_beq (by decide), toLower_beq (by decide),
    toLower_beq (by decide), toLower_beq (by decide)]

theorem inSuffix_toLower (c : Char) : inSuffix c.toLower = inSuffix c := by
  unfold inSuffix
  rw [isLetterOrDigit_toLower, toLower_beq (by decide), toLower_beq (by decide),
    toLower_beq (by decide), toLower_beq (by decide)]

theorem body?_toLower (s : List Char) :
    body? (s.map Char.toLower) = (body? s).map (List.map Char.toLower) := by
  rcases s with _ | ⟨u, _ | ⟨r, _ | ⟨n, _ | ⟨d, rest⟩⟩⟩⟩
  · rfl
  · rfl
  · rfl
  · rfl
  · by_cases hd : d = ':'
    · subst hd
      have hcolon : ':'.toLower = ':' := rfl
      simp only [List.map_cons, body?, hcolon, Text.toLower_toLower]
      split
      · rfl
      · rfl
    · have hd' : d.toLower ≠ ':' := fun h => hd ((Text.toLower_eq_colon d).mp h)
      simp [body?, hd, hd']

theorem isSchema_toLower (s : List Char) : isSchema (s.map Char.toLower) = isSchema s := by
  unfold isSchema
  rw [body?_toLower]
  cases body? s with
  | none => rfl
  | some rest => simp [Function.comp_def, inSchema_toLower]

theorem isSuffix_toLower (s : List Char) : isSuffix (s.map Char.toLower) = isSuffix s := by
  simp [isSuffix, Function.comp_def, inSuffix_toLower]

theorem dropLineFeed_toLower (s : List Char) :
    dropLineFeed (s.map Char.toLower) = (dropLineFeed s).map Char.toLower := by
  have hlast : (s.map Char.toLower).getLast? = some '\n' ↔ s.getLast? = some '\n' := by
    rw [List.getLast?_map]
    cases s.getLast? with
    | none => simp
    | some c => simp [Text.toLower_eq_iff (c := c) (d := '\n') (by decide)]
  unfold dropLineFeed
  by_cases h : s.getLast? = some '\n'
  · rw [if_pos h, if_pos (hlast.mpr h), List.map_dropLast]
  · rw [if_neg h, if_neg fun hl => h (hlast.mp hl)]

theorem splitChars?_toLower (s : List Char) :
    splitChars? (s.map Char.toLower) =
      (splitChars? s).map (Prod.map (List.map Char.toLower) (List.map Char.toLower)) := by
  unfold splitChars?
  rw [dropLineFeed_toLower, Text.cutLast_map Text.toLower_eq_colon]
  cases Text.cutLast ':' (dropLineFeed s) with
  | none => rfl
  | some cut =>
      simp only [Option.map_some, Option.filter_some, Prod.map_fst, Prod.map_snd,
        isSchema_toLower, isSuffix_toLower]
      split
      · rfl
      · rfl

/-- Both parts of a qualified path are made of characters of the path. -/
theorem subset_of_splitChars? {path schema suffix : List Char}
    (h : splitChars? path = some (schema, suffix)) : schema ⊆ path ∧ suffix ⊆ path := by
  have hcut := (Text.cutLast_eq_some_iff.mp (Option.filter_eq_some_iff.mp h).1).1
  refine ⟨fun c hc => mem_of_mem_dropLineFeed ?_, fun c hc => mem_of_mem_dropLineFeed ?_⟩
  · simp [hcut, hc]
  · simp [hcut, hc]

theorem isAscii_of_split? {path schema suffix : String} (h : split? path = some (schema, suffix))
    (hp : Text.IsAscii path.toList) :
    Text.IsAscii schema.toList ∧ Text.IsAscii suffix.toList := by
  obtain ⟨⟨s, t⟩, hs, he⟩ := Option.map_eq_some_iff.mp h
  simp only [Prod.mk.injEq] at he
  obtain ⟨rfl, rfl⟩ := he
  obtain ⟨hschema, hsuffix⟩ := subset_of_splitChars? hs
  rw [String.toList_ofList, String.toList_ofList]
  exact ⟨hp.of_subset hschema, hp.of_subset hsuffix⟩

/-- The lower-case form of an ASCII path is cut where the path is. -/
theorem split?_lower {path : String} (h : Text.IsAscii path.toList) :
    split? (Text.lower path) = (split? path).map (Prod.map Text.lower Text.lower) := by
  have hchars := splitChars?_toLower path.toList
  rw [Text.lower_of_isAscii h, split?, String.toList_ofList, hchars]
  cases hs : split? path with
  | none =>
      have hnone : splitChars? path.toList = none := by simpa [split?] using hs
      rw [hnone]
      rfl
  | some parts =>
      obtain ⟨schema, suffix⟩ := parts
      obtain ⟨hschema, hsuffix⟩ := isAscii_of_split? hs h
      obtain ⟨⟨s, t⟩, hst, he⟩ := Option.map_eq_some_iff.mp hs
      simp only [Prod.mk.injEq] at he
      obtain ⟨rfl, rfl⟩ := he
      rw [hst]
      simp [Text.lower_of_isAscii hschema, Text.lower_of_isAscii hsuffix]

end Urn

namespace Path

theorem names_lower {path : String} (h : Text.IsAscii path.toList) :
    names (Text.lower path) = (names path).map Text.lower := by
  unfold names
  rw [Text.lower_of_isAscii h, String.toList_ofList, Text.splitOn_map Text.toLower_eq_point,
    List.map_map, List.map_map]
  refine List.map_congr_left fun piece hp => ?_
  have hpiece : Text.IsAscii (String.ofList piece).toList := by
    rw [String.toList_ofList]
    exact h.of_subset fun c hc => Text.mem_of_mem_splitOn hp hc
  simp [Text.lower_of_isAscii hpiece]

/-- Paths that differ at most in case have names that do. -/
theorem map_lower_names {p q : String} (hp : Text.IsAscii p.toList) (hq : Text.IsAscii q.toList)
    (h : Text.lower p = Text.lower q) : (names p).map Text.lower = (names q).map Text.lower := by
  rw [← names_lower hp, ← names_lower hq, h]

end Path

/-! ### Values in other letters -/

/-- Scalars that are the same but for the case of a text; numbers need only be equal as numbers. -/
inductive Scalar.Alike : Scalar → Scalar → Prop
  | null : Alike .null .null
  | bool (b : Bool) : Alike (.bool b) (.bool b)
  | number {x y : Number} : x.place? = y.place? → Alike (.number x) (.number y)
  | text {s t : String} : Text.lower s = Text.lower t → Alike (.text s) (.text t)

/-- Values of one shape that differ at most in the case of keys and texts. -/
inductive Json.Alike : Json → Json → Prop
  | scalar {a b : Scalar} : a.Alike b → Alike (.scalar a) (.scalar b)
  | array {xs ys : List Json} : List.Forall₂ Alike xs ys → Alike (.array xs) (.array ys)
  | object {ms ns : Object} :
      ms.map (fun m => Text.lower m.1) = ns.map (fun n => Text.lower n.1) →
      List.Forall₂ Alike (ms.map (·.2)) (ns.map (·.2)) → Alike (.object ms) (.object ns)

theorem Json.Alike.null : Json.Alike .null .null := .scalar .null

namespace Object

/-- Members that differ at most in case. -/
def MembersAlike (m n : String × Json) : Prop := Text.lower m.1 = Text.lower n.1 ∧ m.2.Alike n.2

theorem forall₂_membersAlike {ms ns : Object}
    (hk : ms.map (fun m => Text.lower m.1) = ns.map (fun n => Text.lower n.1))
    (hv : List.Forall₂ Json.Alike (ms.map (·.2)) (ns.map (·.2))) :
    List.Forall₂ MembersAlike ms ns := by
  induction ms generalizing ns with
  | nil =>
      obtain rfl : ns = [] := by simpa using hk.symm
      exact .nil
  | cons m ms ih =>
      cases ns with
      | nil => simp at hk
      | cons n ns =>
          simp only [List.map_cons, List.cons.injEq, List.forall₂_cons] at hk hv
          exact .cons ⟨hk.1, hv.1⟩ (ih hk.2 hv.2)

/-- The first members that names fit correspond. -/
theorem member?_alike {o p : Object} (h : List.Forall₂ MembersAlike o p) {name name' : String}
    (hn : Text.lower name = Text.lower name') :
    Option.Rel MembersAlike (o.member? name) (p.member? name') := by
  unfold member?
  rw [hn]
  induction h with
  | nil => exact .none
  | cons hm _ ih =>
      rw [List.find?_cons, List.find?_cons]
      dsimp only
      rw [hm.1]
      split
      · exact .some hm
      · exact ih

end Object

/-! ### Paths in such values -/

namespace Path

theorem follow_alike {ns ms : List String} (hn : ns.map Text.lower = ms.map Text.lower) {v w : Json}
    (h : v.Alike w) : (follow ns v).Alike (follow ms w) := by
  induction ns generalizing ms v w with
  | nil =>
      obtain rfl : ms = [] := by simpa using hn.symm
      exact h
  | cons n ns ih =>
      cases ms with
      | nil => simp at hn
      | cons m ms =>
          simp only [List.map_cons, List.cons.injEq] at hn
          simp only [follow]
          cases h with
          | scalar _ => exact .null
          | array _ => exact .null
          | object hk hv =>
              simp only [Json.members?, Option.bind_some]
              have hrel := Object.member?_alike (Object.forall₂_membersAlike hk hv) hn.1
              revert hrel
              generalize Object.member? _ n = a
              generalize Object.member? _ m = b
              intro hrel
              cases hrel with
              | none => exact .null
              | some hm => exact ih hn.2 hm.2

theorem descend_alike {p q : String} (hp : Text.IsAscii p.toList) (hq : Text.IsAscii q.toList)
    (hpq : Text.lower p = Text.lower q) {v w : Json} (h : v.Alike w) :
    (descend p v).Alike (descend q w) :=
  follow_alike (map_lower_names hp hq hpq) h

/-- ASCII paths that differ at most in case lead to values that do, in values that do. -/
theorem resolve_alike {p q : String} (hp : Text.IsAscii p.toList) (hq : Text.IsAscii q.toList)
    (hpq : Text.lower p = Text.lower q) {v w : Json} (h : v.Alike w) :
    (resolve p v).Alike (resolve q w) := by
  have hsplit : (Urn.split? p).map (Prod.map Text.lower Text.lower) =
      (Urn.split? q).map (Prod.map Text.lower Text.lower) := by
    rw [← Urn.split?_lower hp, ← Urn.split?_lower hq, hpq]
  cases h with
  | scalar _ => exact .null
  | array _ => exact .null
  | @object o o' hk hv =>
      simp only [resolve]
      cases hs : Urn.split? p with
      | none =>
          have hs' : Urn.split? q = none := by simpa [hs] using hsplit.symm
          rw [hs']
          exact descend_alike hp hq hpq (.object hk hv)
      | some parts =>
          obtain ⟨schema, suffix⟩ := parts
          rw [hs, Option.map_some] at hsplit
          obtain ⟨⟨schema', suffix'⟩, hs', he⟩ := Option.map_eq_some_iff.mp hsplit.symm
          simp only [Prod.map_apply, Prod.mk.injEq] at he
          rw [hs']
          have hdescend : ∀ {v w : Json}, v.Alike w →
              (descend suffix v).Alike (descend suffix' w) :=
            descend_alike (Urn.isAscii_of_split? hs hp).2 (Urn.isAscii_of_split? hs' hq).2 he.2.symm
          have hcore : Schema.isCore schema' = Schema.isCore schema := by
            simp only [Schema.isCore, Text.sameText, he.1]
          simp only [resolveQualified, hcore]
          have hrel := Object.member?_alike (Object.forall₂_membersAlike hk hv) he.1.symm
          revert hrel
          generalize o.member? schema = a
          generalize o'.member? schema' = b
          intro hrel
          cases hrel with
          | some hm => exact hdescend hm.2
          | none =>
              dsimp only
              split
              · exact hdescend (.object hk hv)
              · exact .null

end Path
end ScimQuery
