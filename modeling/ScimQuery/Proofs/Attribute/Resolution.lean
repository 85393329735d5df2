import ScimQuery.Attribute.Path
import ScimQuery.Proofs.Text.Lowering
import ScimQuery.Proofs.Text.Pieces

/-! # Where simple paths lead

A path that is a single name, without a point or a colon, leads to the first member of an object
that the name fits (`resolve_name`), so two such paths with the same lower-case form lead to the
same value (`resolve_congr`). -/

namespace ScimQuery

/-! ### Names without separators -/

namespace Urn

theorem mem_of_mem_dropLineFeed {c : Char} {s : List Char} (h : c ∈ dropLineFeed s) : c ∈ s := by
  unfold dropLineFeed at h
  split at h
  · exact List.dropLast_subset s h
  · exact h

/-- A path without a colon is not qualified. -/
theorem split?_of_not_mem {path : String} (h : ':' ∉ path.toList) : split? path = none := by
  have hd : ':' ∉ dropLineFeed path.toList := fun hm => h (mem_of_mem_dropLineFeed hm)
  simp [split?, splitChars?, Text.cutLast_of_not_mem hd]

end Urn

namespace Path

/-- A name: a path without points and colons. -/
def IsName (path : String) : Prop := '.' ∉ path.toList ∧ ':' ∉ path.toList

theorem names_of_not_mem {path : String} (h : '.' ∉ path.toList) : names path = [path] := by
  simp [names, Text.splitOn_of_not_mem h]

/-- The names of a path that goes on behind a point. -/
theorem names_joined (path rest : String) :
    names (path ++ "." ++ rest) = names path ++ names rest := by
  have htext : (path ++ "." ++ rest).toList = path.toList ++ '.' :: rest.toList := by simp
  rw [names, htext, Text.splitOn_joined, List.map_append, names, names]

theorem names_append {top : String} (h : '.' ∉ top.toList) (rest : String) :
    names (top ++ "." ++ rest) = top :: names rest := by
  rw [names_joined, names_of_not_mem h, List.singleton_append]

/-- A path with a point has a first name and more. -/
theorem exists_top {path : String} (h : '.' ∈ path.toList) :
    ∃ top rest, '.' ∉ top.toList ∧ path = top ++ "." ++ rest := by
  obtain ⟨before, after, hsplit, hbefore⟩ := List.eq_append_cons_of_mem h
  refine ⟨String.ofList before, String.ofList after, by simpa using hbefore, ?_⟩
  rw [← String.toList_inj, hsplit]
  simp

/-- A text with the lower-case form of a name is a name. -/
theorem IsName.of_lower_eq {p q : String} (h : Text.lower p = q) (hq : IsName q) : IsName p :=
  ⟨Text.not_mem_of_lower_eq Text.isPlain_point h hq.1,
    Text.not_mem_of_lower_eq Text.isPlain_colon h hq.2⟩

/-- A name leads to the first member that it fits. -/
theorem resolve_name {name : String} (h : IsName name) (o : Object) :
    resolve name (.object o) = Json.ofOption ((o.member? name).map (·.2)) := by
  simp only [resolve, Urn.split?_of_not_mem h.2, descend, names_of_not_mem h.1, follow, Json.members?,
    Option.bind_some]
  cases o.member? name with
  | none => rfl
  | some member => rfl

/-- Names that differ at most in case lead to the same value. -/
theorem resolve_congr {p q : String} (hp : IsName p) (hq : IsName q)
    (h : Text.lower p = Text.lower q) (o : Object) :
    resolve p (.object o) = resolve q (.object o) := by
  rw [resolve_name hp, resolve_name hq]
  simp only [Object.member?, h]

end Path
end ScimQuery
