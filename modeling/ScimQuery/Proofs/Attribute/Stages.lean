import ScimQuery.Proofs.Attribute.Members
import ScimQuery.Proofs.Attribute.Qualification
import ScimQuery.Proofs.Filter.Rendering

/-! # Paths in stages

A path that goes on behind a point leads where the rest of it leads from what its first stage leads to
(`resolve_joined`).  The rest adds names to those of the first stage (`names_joined`), and leaves a schema
in front of them where it is (`split?_joined`): it has no colon, so the last colon stays the last.  Behind
a core schema a path leads where it leads alone, from the member that the schema names or, failing that,
from the resource (`resolve_core`).  `resolve_in_stages` says both of words. -/

namespace ScimQuery

/-! ### Names that lead on -/

namespace Path

theorem follow_null (ns : List String) : follow ns .null = .null := by
  cases ns with
  | nil => rfl
  | cons n ns => rfl

/-- Names lead on from where other names led. -/
theorem follow_append (ns ms : List String) (v : Json) :
    follow (ns ++ ms) v = follow ms (follow ns v) := by
  induction ns generalizing v with
  | nil => rfl
  | cons n ns ih =>
      rw [List.cons_append, follow, follow]
      cases v.members?.bind (·.member? n) with
      | none => exact (follow_null ms).symm
      | some m => exact ih m.2

theorem descend_joined (path rest : String) (v : Json) :
    descend (path ++ "." ++ rest) v = descend rest (descend path v) := by
  rw [descend, names_joined, follow_append, descend, descend]

/-- Names lead nowhere from a value that is no object. -/
theorem descend_of_members? (path : String) {v : Json} (hv : v.members? = none) :
    descend path v = .null := by
  obtain ⟨name, rest, hnames⟩ := exists_names path
  rw [descend, hnames, follow, hv]
  rfl

theorem resolve_object (path : String) (o : Object) :
    resolve path (.object o) =
      match Urn.split? path with
      | some (schema, suffix) => resolveQualified o schema suffix
      | none => descend path (.object o) := rfl

/-- A path without a colon leads along its names. -/
theorem resolve_of_not_mem {path : String} (h : ':' ∉ path.toList) (v : Json) :
    resolve path v = descend path v := by
  cases v with
  | object o => simp only [resolve, Urn.split?_of_not_mem h]
  | scalar s => exact (descend_of_members? path rfl).symm
  | array items => exact (descend_of_members? path rfl).symm

end Path

/-! ### Words in front of and behind a point -/

namespace Urn

/-- A character of a word that is no colon may stand in a path within a schema. -/
theorem inSuffix_of_inWord {c : Char} (h : Lexeme.inWord c = true) (hc : c ≠ ':') :
    inSuffix c = true := by
  simp only [Lexeme.inWord, Bool.or_eq_true, beq_iff_eq, hc, or_false] at h
  simp only [inSuffix, isLetterOrDigit, Bool.or_eq_true, beq_iff_eq]
  tauto

/-- Characters of words that are no colons are a path within a schema. -/
theorem isSuffix_of_inWord {s : List Char} (hne : s ≠ []) (hword : ∀ c ∈ s, Lexeme.inWord c = true)
    (hcolon : ':' ∉ s) : isSuffix s = true := by
  rw [isSuffix, Bool.and_eq_true, List.all_eq_true]
  refine ⟨by simpa using hne, fun c hc => ?_⟩
  exact inSuffix_of_inWord (hword c hc) fun he => hcolon (he ▸ hc)

/-- A text before a colon and a path within a schema is the schema of the whole, if it is one. -/
theorem split?_of_isSuffix {front suffix : String} (h : isSuffix suffix.toList = true) :
    split? (front ++ ":" ++ suffix) =
      if isSchema front.toList = true then some (front, suffix) else none := by
  have htext : dropLineFeed (front ++ ":" ++ suffix).toList = front.toList ++ ':' :: suffix.toList := by
    rw [(dropLineFeed_eq_iff (getLast?_joined_ne h)).mpr (.inl rfl)]
    simp
  have hcut := Text.cutLast_append (colon_not_mem_of_isSuffix h) front.toList
  simp only [split?, splitChars?, htext, hcut, Option.filter_some, h, Bool.and_true]
  split
  · simp
  · rfl

/-- Paths within a schema with a point between them are one. -/
theorem isSuffix_point {s t : List Char} (hs : isSuffix s = true) (ht : isSuffix t = true) :
    isSuffix (s ++ '.' :: t) = true := by
  rw [isSuffix, Bool.and_eq_true, List.all_eq_true]
  refine ⟨by simp, fun c hc => ?_⟩
  rcases List.mem_append.mp hc with hc | hc
  · exact inSuffix_of_isSuffix hs c hc
  · rcases List.mem_cons.mp hc with rfl | hc
    · decide
    · exact inSuffix_of_isSuffix ht c hc

/-- A word that goes on behind a point is qualified by the schema that qualifies the word. -/
theorem split?_joined {path rest : String} (hpath : Lexeme.isWord path.toList = true)
    (hend : path.toList.getLast? ≠ some ':') (hrest : isSuffix rest.toList = true) :
    split? (path ++ "." ++ rest) =
      (split? path).map fun (schema, suffix) => (schema, suffix ++ "." ++ rest) := by
  by_cases hmem : ':' ∈ path.toList
  · -- What stands behind the last colon is a path within a schema, alone and with the rest.
    obtain ⟨front, behind, hsplit, hbehind⟩ := Text.exists_last hmem
    have hne : behind ≠ [] := by
      rintro rfl
      rw [hsplit, List.getLast?_concat] at hend
      exact hend rfl
    have hword : ∀ c ∈ behind, Lexeme.inWord c = true := fun c hc =>
      (Lexeme.inWord_of_isWord hpath).2 c (by simp [hsplit, hc])
    have hsuffix : isSuffix (String.ofList behind).toList = true := by
      rw [String.toList_ofList]
      exact isSuffix_of_inWord hne hword hbehind
    have hsuffix' : isSuffix (String.ofList behind ++ "." ++ rest).toList = true := by
      simpa using isSuffix_point hsuffix hrest
    have hfront : path = String.ofList front ++ ":" ++ String.ofList behind := by
      rw [← String.toList_inj, hsplit]
      simp
    have hjoined : path ++ "." ++ rest =
        String.ofList front ++ ":" ++ (String.ofList behind ++ "." ++ rest) := by
      rw [hfront]
      simp only [String.append_assoc]
    rw [hjoined, split?_of_isSuffix hsuffix', hfront, split?_of_isSuffix hsuffix]
    split
    · rfl
    · rfl
  · have hcolon := colon_not_mem_of_isSuffix hrest
    rw [split?_of_not_mem hmem, split?_of_not_mem (by simp [hmem, hcolon])]
    rfl

/-- A core schema is a schema URN. -/
theorem isSchema_of_isCore {schema : String} (h : Schema.isCore schema = true) :
    isSchema schema.toList = true := by
  -- The URNs have no `k`, so a text that differs from one at most in case is an ASCII text.
  have hform : ∀ uri, Text.lower schema = Text.lower uri → Text.IsAscii (Text.lower uri).toList →
      'k' ∉ (Text.lower uri).toList → isSchema (Text.lower uri).toList = true →
      isSchema schema.toList = true := by
    intro uri he hascii hk huri
    rw [← he] at hascii hk huri
    have hschema := Text.isAscii_of_lower hascii hk
    rwa [Text.lower_of_isAscii hschema, String.toList_ofList, isSchema_toLower] at huri
  rw [Schema.isCore, Bool.or_eq_true, Text.sameText, Text.sameText, beq_iff_eq, beq_iff_eq] at h
  rcases h with h | h
  · exact hform _ h (by decide +kernel) (by decide +kernel) (by decide +kernel)
  · exact hform _ h (by decide +kernel) (by decide +kernel) (by decide +kernel)

end Urn

/-! ### Paths in stages -/

namespace Path

section Suffix

variable {rest : String} (hrest : Urn.isSuffix rest.toList = true)
include hrest

theorem resolveQualified_joined (o : Object) (schema suffix : String) :
    resolveQualified o schema (suffix ++ "." ++ rest) =
      resolve rest (resolveQualified o schema suffix) := by
  have hnull : resolve rest .null = .null := rfl
  rw [resolve_of_not_mem (Urn.colon_not_mem_of_isSuffix hrest)]
  unfold resolveQualified
  cases o.member? schema with
  | some m => exact descend_joined suffix rest m.2
  | none =>
      dsimp only
      split
      · exact descend_joined suffix rest _
      · exact (descend_of_members? rest rfl).symm

/-- A word that goes on behind a point leads where the rest leads from what the word leads to. -/
theorem resolve_joined {path : String} (hpath : Lexeme.isWord path.toList = true)
    (hend : path.toList.getLast? ≠ some ':') (v : Json) :
    resolve (path ++ "." ++ rest) v = resolve rest (resolve path v) := by
  cases v with
  | scalar s => rfl
  | array items => rfl
  | object o =>
      rw [resolve_object, resolve_object, Urn.split?_joined hpath hend hrest]
      cases Urn.split? path with
      | some split => exact resolveQualified_joined hrest o split.1 split.2
      | none =>
          rw [resolve_of_not_mem (Urn.colon_not_mem_of_isSuffix hrest)]
          exact descend_joined path rest (.object o)

/-- Behind a core schema a path leads where it leads from the member that the schema names, or from the
resource if the schema names none. -/
theorem resolve_core {schema : String} (hcore : Schema.isCore schema = true) (o : Object) :
    resolve (schema ++ ":" ++ rest) (.object o) =
      resolve rest (((o.member? schema).map (·.2)).getD (.object o)) := by
  have hsplit : Urn.split? (schema ++ ":" ++ rest) = some (schema, rest) := by
    rw [Urn.split?_of_isSuffix hrest, if_pos (Urn.isSchema_of_isCore hcore)]
  rw [resolve_object, hsplit, resolve_of_not_mem (Urn.colon_not_mem_of_isSuffix hrest)]
  dsimp only [resolveQualified]
  cases o.member? schema with
  | some m => rfl
  | none => exact if_pos hcore

end Suffix

/-- Paths lead on in stages: a word followed by a point and a word without a colon leads where the second
leads from what the first leads to; and behind a core schema, in any case, such a word leads where it
leads from the first member whose key is the schema up to case, or where it leads from the resource if
there is no such member. -/
theorem resolve_in_stages (rest : String) (hrest : Lexeme.isWord rest.toList = true)
    (hcolon : ':' ∉ rest.toList) :
    (∀ (v : Json) (path : String), Lexeme.isWord path.toList = true →
      path.toList.getLast? ≠ some ':' →
      resolve (path ++ "." ++ rest) v = resolve rest (resolve path v)) ∧
    ∀ (schema : String), Schema.isCore schema = true → ∀ (o : Object),
      (∀ key v, o.IsFirst (fun k => Text.lower k = Text.lower schema) key → o.get? key = some v →
        resolve (schema ++ ":" ++ rest) (.object o) = resolve rest v) ∧
      ((∀ key ∈ o.keys, Text.lower key ≠ Text.lower schema) →
        resolve (schema ++ ":" ++ rest) (.object o) = resolve rest (.object o)) := by
  have hword := Lexeme.inWord_of_isWord hrest
  have hsuffix : Urn.isSuffix rest.toList = true := Urn.isSuffix_of_inWord hword.1 hword.2 hcolon
  refine ⟨fun v path hpath hend => resolve_joined hsuffix hpath hend v, fun schema hcore o => ⟨?_, ?_⟩⟩
  · intro key v hfirst hget
    obtain ⟨⟨key', v'⟩, hm, rfl⟩ := Option.map_eq_some_iff.mp (Object.key?_eq_some_iff.mpr hfirst)
    have hv : v' = v := Option.some.inj ((Object.get?_of_member? hm).symm.trans hget)
    rw [resolve_core hsuffix hcore, hm, ← hv]
    rfl
  · intro hnone
    rw [resolve_core hsuffix hcore, Object.member?_eq_none_iff.mpr hnone]
    rfl

/-- A user with an extension, a core schema in other letters and a value of its own. -/
def extendedUser : Object :=
  [("urn:x:y", .object [("manager", .object [("Value", .text "Ann")])]),
    ("URN:ietf:params:scim:schemas:core:2.0:USER", .object [("value", .text "Bo")]),
    ("VALUE", .text "Cy")]

/-- A value behind a point in the extension, behind the core schema that is a key, and behind the one
that is none. -/
theorem resolve_in_stages_extended_user :
    (Lexeme.isWord "value".toList = true ∧ ':' ∉ "value".toList) ∧
    (Lexeme.isWord "urn:x:y:manager".toList = true ∧
      "urn:x:y:manager".toList.getLast? ≠ some ':' ∧
      resolve "urn:x:y:manager.value" (.object extendedUser) =
        resolve "value" (resolve "urn:x:y:manager" (.object extendedUser))) ∧
    (Schema.isCore Schema.user = true ∧
      extendedUser.IsFirst (fun k => Text.lower k = Text.lower Schema.user)
        "URN:ietf:params:scim:schemas:core:2.0:USER" ∧
      resolve (Schema.user ++ ":" ++ "value") (.object extendedUser) =
        resolve "value" (.object [("value", .text "Bo")])) ∧
    (Schema.isCore Schema.group = true ∧
      (∀ key ∈ extendedUser.keys, Text.lower key ≠ Text.lower Schema.group) ∧
      resolve (Schema.group ++ ":" ++ "value") (.object extendedUser) =
        resolve "value" (.object extendedUser)) := by
  have hrest : Lexeme.isWord "value".toList = true := by decide
  have hcolon : ':' ∉ "value".toList := by decide
  have hpath : Lexeme.isWord "urn:x:y:manager".toList = true := by decide
  have hend : "urn:x:y:manager".toList.getLast? ≠ some ':' := by decide
  have huser : Schema.isCore Schema.user = true := by decide +kernel
  have hgroup : Schema.isCore Schema.group = true := by decide +kernel
  have hfirst : extendedUser.IsFirst (fun k => Text.lower k = Text.lower Schema.user)
      "URN:ietf:params:scim:schemas:core:2.0:USER" := by
    refine ⟨[_], _, [_], rfl, by decide +kernel, fun m hm => ?_⟩
    rw [List.mem_singleton.mp hm]
    decide +kernel
  have hnone : ∀ key ∈ extendedUser.keys, Text.lower key ≠ Text.lower Schema.group := by
    decide +kernel
  obtain ⟨hjoined, hcore⟩ := resolve_in_stages "value" hrest hcolon
  exact ⟨⟨hrest, hcolon⟩, ⟨hpath, hend, hjoined _ _ hpath hend⟩,
    ⟨huser, hfirst, (hcore _ huser _).1 _ _ hfirst rfl⟩, ⟨hgroup, hnone, (hcore _ hgroup _).2 hnone⟩⟩

end Path
end ScimQuery
