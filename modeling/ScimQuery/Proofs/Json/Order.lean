import Mathlib.Data.List.Forall2
import ScimQuery.Proofs.Json.Sameness

/-! # Values with members left out

One value is below another if it is what remains of the other when members of its objects are left out,
anywhere in it (`Json.Below`).  An object of some of the members of another is below it
(`below_of_subset`), and two values each of which is below the other are equal, but for the order of
members (`same_of_below`). -/

namespace ScimQuery
namespace Json

/-- `v.Below w`: the value `v` is `w`; or it is an object with no other keys than `w`, whose values are
below those of `w`; or it is an array as long as `w`, whose items are below those of `w`. -/
inductive Below : Json → Json → Prop
  | self (v : Json) : Below v v
  | object {o p : Object} :
      (∀ key ∈ o.keys, key ∈ p.keys) →
      (∀ key v w, o.get? key = some v → p.get? key = some w → Below v w) →
      Below (.object o) (.object p)
  | array {vs ws : List Json} :
      vs.length = ws.length →
      (∀ (i : Nat) v w, vs[i]? = some v → ws[i]? = some w → Below v w) →
      Below (.array vs) (.array ws)

/-- An object is below another if each of its keys has a value there which its own is below. -/
theorem below_object {o p : Object}
    (h : ∀ key v, o.get? key = some v → ∃ w, p.get? key = some w ∧ Below v w) :
    Below (.object o) (.object p) := by
  refine .object (fun key hkey => ?_) fun key v w hv hw => ?_
  · obtain ⟨v, hv⟩ := Option.ne_none_iff_exists'.mp
      fun hnone => Object.get?_eq_none_iff.mp hnone hkey
    obtain ⟨w, hw, -⟩ := h key v hv
    exact List.mem_map.mpr ⟨_, Object.mem_of_get? hw, rfl⟩
  · obtain ⟨w', hw', hbelow⟩ := h key v hv
    rw [hw] at hw'
    exact Option.some.inj hw' ▸ hbelow

theorem below_of_subset {o p : Object} (hp : p.keys.Nodup) (h : o ⊆ p) :
    Below (.object o) (.object p) := by
  refine below_object fun key v hv => ⟨v, ?_, .self v⟩
  exact Object.get?_of_mem hp (h (Object.mem_of_get? hv))

/-- By induction on the one order; the other one goes down into the same members and items. -/
theorem same_of_below {v w : Json} (h : Below v w) (h' : Below w v) (hv : v.HasDistinctKeys)
    (hw : w.HasDistinctKeys) : same v w = true := by
  induction h with
  | self v => exact same_self hv
  | @object o p hkeys _ ih =>
      cases h' with
      | self => exact same_self hv
      | object hkeys' hvalues' =>
          have hperm : o.keys.Perm p.keys := by
            rw [List.perm_ext_iff_of_nodup hv.nodup_keys hw.nodup_keys]
            exact fun key => ⟨hkeys key, hkeys' key⟩
          rw [same, Bool.and_eq_true, beq_iff_eq, sameMembers_iff]
          refine ⟨by simpa [Object.keys] using hperm.length_eq, fun m hm => ?_⟩
          have hm' := Object.get?_of_mem hv.nodup_keys hm
          obtain ⟨w, hw'⟩ := Option.ne_none_iff_exists'.mp fun hnone =>
            Object.get?_eq_none_iff.mp hnone (hkeys m.1 (List.mem_map_of_mem hm))
          exact ⟨w, hw', ih _ _ _ hm' hw' (hvalues' _ _ _ hw' hm') (hv.of_get? hm') (hw.of_get? hw')⟩
  | @array vs ws hlength _ ih =>
      cases h' with
      | self => exact same_self hv
      | array _ hitems' =>
          rw [same, sameItems_iff, List.forall₂_iff_get]
          refine ⟨hlength, fun i hi hi' => ?_⟩
          have hget : vs[i]? = some vs[i] := List.getElem?_eq_getElem hi
          have hget' : ws[i]? = some ws[i] := List.getElem?_eq_getElem hi'
          exact ih i _ _ hget hget' (hitems' i _ _ hget' hget) (hv.of_mem (List.getElem_mem hi))
            (hw.of_mem (List.getElem_mem hi'))

end Json
end ScimQuery
