import ScimQuery.Json.Sameness
import ScimQuery.Proofs.Attribute.Members

/-! # Equal values and the order of members

A value without an object that has a key twice is equal to itself (`same_self`), and an object is
equal to itself in any order of its members (`same_object_of_perm`).  Equal objects have equally
many members, and equal arrays have equal items in the same places. -/

namespace ScimQuery

theorem Scalar.same_self (s : Scalar) : s.same s = true := by
  simp [same]

namespace Json

theorem sameMembers_iff {ms : List (String × Json)} {o : Object} :
    sameMembers ms o = true ↔ ∀ m ∈ ms, ∃ v, o.get? m.1 = some v ∧ same m.2 v = true := by
  induction ms with
  | nil => simp [sameMembers]
  | cons m ms ih =>
      rw [sameMembers, Bool.and_eq_true, ih, List.forall_mem_cons]
      refine and_congr_left fun _ => ?_
      cases o.get? m.1 with
      | none => simp
      | some v => simp

theorem sameItems_iff {vs ws : List Json} :
    sameItems vs ws = true ↔ List.Forall₂ (fun v w => same v w = true) vs ws := by
  induction vs generalizing ws with
  | nil => cases ws <;> simp [sameItems]
  | cons v vs ih =>
      cases ws with
      | nil => simp [sameItems]
      | cons w ws => simp [sameItems, ih]

theorem length_eq_of_same {o p : Object} (h : same (.object o) (.object p) = true) :
    o.length = p.length := by
  rw [same, Bool.and_eq_true, beq_iff_eq] at h
  exact h.1

/-- An object is equal to one with the same members in another order. -/
theorem same_object_of_perm {o p : Object} (hp : p.keys.Nodup) (h : o.Perm p)
    (hself : ∀ m ∈ p, same m.2 m.2 = true) : same (.object o) (.object p) = true := by
  rw [same, Bool.and_eq_true, beq_iff_eq, sameMembers_iff]
  refine ⟨h.length_eq, fun m hm => ?_⟩
  have hm' := h.mem_iff.mp hm
  exact ⟨m.2, Object.get?_of_mem hp hm', hself m hm'⟩

/-- By induction on the value: its objects look up their own members. -/
theorem same_self {v : Json} (h : v.HasDistinctKeys) : same v v = true := by
  induction h with
  | scalar s =>
      rw [same]
      exact s.same_self
  | @array items _ ih =>
      rw [same, sameItems_iff, List.forall₂_same]
      exact ih
  | object hkeys _ ih => exact same_object_of_perm hkeys (.refl _) ih

end Json
end ScimQuery
