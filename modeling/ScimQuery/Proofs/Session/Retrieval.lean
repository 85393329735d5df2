import ScimQuery.Proofs.Session.Identifiers

/-! # Reading a resource back

A resource that an indexed store has accepted is asked for by its identifier, any number of steps
later.  The store keeps identifiers apart by their letters as they are, and finds them in any case.
So the answer is the first resource of the scope whose identifier differs at most in case
(`get_after_add`): the resource itself, unless such a one was there before it (`get_added_eq_iff`). -/

namespace ScimQuery
namespace Session

section Added

variable {before : List Step} {scope : Scope} {r : Object} {row : Row} {t : Table}
  (hadd : Store.add (after (Store.empty : Table) before) scope r = .ok (row, t))
include hadd

/-- What is added has a text as its identifier, and can be asked for by it. -/
theorem identifier_of_add : ∃ id, Path.resolve "id" (.object r) = .text id ∧
    scope.endpoint.length ≤ TooLong.maxLength ∧ (Text.lower id).length ≤ TooLong.maxLength := by
  obtain ⟨rfl, hcheck, -, -⟩ := Table.add_eq_ok_iff.mp hadd
  obtain ⟨id, hid, hindex⟩ := (Row.sound_make hcheck).identified
  have hshort := (Row.of_check hcheck).2
  have hfolded : ((Row.make scope r).index .scimId).folded = some (Text.lower id) :=
    congrArg Index.folded hindex
  exact ⟨id, hid, hshort _ _ (Row.mem_cells_endpoint _), hshort _ _ (Row.mem_cells_folded hfolded)⟩

/-- The resources of the scope after an addition and any further steps. -/
theorem resources_after_add (rest : List Step) :
    (after t rest).resources scope =
      added scope (Store.empty : Table) before ++ r :: added scope t rest := by
  rw [Table.resources_after, Table.resources_of_add hadd, Table.resources_after_empty, if_pos rfl,
    List.append_assoc, List.singleton_append]

/-- The first resource of the scope that has the identifier in any case is got: one that was there
before, or the added resource. -/
theorem get_after_add {id : String} (hid : Path.resolve "id" (.object r) = .text id)
    (rest : List Step) :
    Listing.get (after t rest) scope id .all =
      .ok (some (((added scope (Store.empty : Table) before).find?
        (·.hasText .scimId id)).getD r)) := by
  have hsound : (after t rest).Sound :=
    ((Table.sound_empty.after before).add hadd).after rest
  obtain ⟨id', hid', hendpoint, hform⟩ := identifier_of_add hadd
  obtain rfl : id' = id := by
    rw [hid] at hid'
    simpa using hid'.symm
  have hown : r.hasText .scimId id' = true := by
    have hsource : Path.resolve Column.scimId.source (.object r) = .text id' := hid
    rw [Object.hasText, hsource]
    exact beq_self_eq_true _
  rw [Listing.get_table hsound, if_neg (Nat.not_lt.mpr hendpoint), if_neg (Nat.not_lt.mpr hform),
    resources_after_add hadd, List.find?_append, List.find?_cons, hown]
  cases (added scope (Store.empty : Table) before).find? (·.hasText .scimId id') with
  | none => rfl
  | some earlier => rfl

/-- A resource that was there before in the scope is another one than the added resource. -/
theorem ne_of_mem_added {earlier : Object}
    (hmem : earlier ∈ added scope (Store.empty : Table) before) : earlier ≠ r := by
  rintro rfl
  rw [← Table.resources_after_empty, Table.resources, List.mem_map] at hmem
  obtain ⟨other, hother, rfl⟩ := hmem
  obtain ⟨hrows, hscope⟩ := List.mem_filter.mp hother
  obtain ⟨rfl, hcheck, hnew, -⟩ := Table.add_eq_ok_iff.mp hadd
  obtain ⟨id, hid, hindex⟩ := (Row.sound_make hcheck).identified
  obtain ⟨id', hid', hindex'⟩ := ((Table.sound_empty.after before).rows other hrows).identified
  have hid' : Path.resolve "id" (.object (Row.make scope other.resource).resource) = .text id' := hid'
  rw [hid] at hid'
  obtain rfl : id = id' := by simpa using hid'
  refine List.any_eq_false.mp hnew other hrows (Table.sameKey_eq_true_iff.mpr ⟨?_, ?_⟩)
  · exact (beq_iff_eq.mp hscope).symm
  · rw [hindex, hindex']

end Added

/-- After a resource was added to an indexed store, and after any further steps, the resource of the
scope with its identifier is there.  It is the added one exactly if no resource that was added to
the scope before has an identifier that differs at most in case; else it is the first of those. -/
theorem get_added_eq_iff {before : List Step} {scope : Scope} {r : Object} {row : Row} {t : Table}
    (hadd : Store.add (after (Store.empty : Table) before) scope r = .ok (row, t))
    (rest : List Step) :
    ∃ id found, Path.resolve "id" (.object r) = .text id ∧
      Listing.get (after t rest) scope id .all = .ok (some found) ∧
      (found = r ↔ ∀ earlier ∈ added scope (Store.empty : Table) before,
        earlier.hasText .scimId id = false) ∧
      (found ≠ r →
        (added scope (Store.empty : Table) before).find? (·.hasText .scimId id) = some found) := by
  obtain ⟨id, hid, -, -⟩ := identifier_of_add hadd
  refine ⟨id, _, hid, get_after_add hadd hid rest, ?_⟩
  cases hfind : (added scope (Store.empty : Table) before).find? (·.hasText .scimId id) with
  | none =>
      have hnone : ∀ earlier ∈ added scope (Store.empty : Table) before,
          earlier.hasText .scimId id = false := by simpa using List.find?_eq_none.mp hfind
      exact ⟨iff_of_true rfl hnone, fun hne => absurd rfl hne⟩
  | some earlier =>
      have hmem := List.mem_of_find?_eq_some hfind
      have hne : earlier ≠ r := ne_of_mem_added hadd hmem
      have hhas := List.find?_some hfind
      refine ⟨iff_of_false hne fun hall => ?_, fun _ => rfl⟩
      rw [hall earlier hmem] at hhas
      cases hhas

/-- A resource with nothing but an identifier. -/
def identified (id : String) : Object := [("id", .text id)]

theorem resolve_identified (id : String) :
    Path.resolve "id" (.object (identified id)) = .text id := by
  have hname : Path.IsName "id" := Column.isName_source .scimId
  rw [Path.resolve_name hname]
  rfl

theorem add_first :
    Store.add (Store.empty : Table) ⟨"e", .user⟩ (identified "A") =
      .ok (Row.make ⟨"e", .user⟩ (identified "A"), ⟨[Row.make ⟨"e", .user⟩ (identified "A")]⟩) := by
  have hcheck : (Row.make ⟨"e", .user⟩ (identified "A")).check = .ok () := by decide +kernel
  exact Table.add_eq_ok_iff.mpr ⟨rfl, hcheck, rfl, rfl⟩

/-- Behind a user `A` a user `a` is accepted, as the identifiers differ. -/
theorem add_second :
    Store.add (after (Store.empty : Table) [.add ⟨"e", .user⟩ (identified "A")]) ⟨"e", .user⟩
        (identified "a") =
      .ok (Row.make ⟨"e", .user⟩ (identified "a"),
        ⟨[Row.make ⟨"e", .user⟩ (identified "A"), Row.make ⟨"e", .user⟩ (identified "a")]⟩) := by
  have hcheck : (Row.make ⟨"e", .user⟩ (identified "a")).check = .ok () := by decide +kernel
  rw [after_add add_first]
  exact Table.add_eq_ok_iff.mpr ⟨rfl, hcheck, by decide +kernel, rfl⟩

theorem added_first :
    added ⟨"e", .user⟩ (Store.empty : Table) [.add ⟨"e", .user⟩ (identified "A")] =
      [identified "A"] := by
  simp [added, add_first]

/-- The user `A` is there under the identifier of the user `a`, so what is got is not the user `a`. -/
theorem get_added_eq_iff_other_case :
    ∃ row t found, Store.add (after (Store.empty : Table) [.add ⟨"e", .user⟩ (identified "A")])
        ⟨"e", .user⟩ (identified "a") = .ok (row, t) ∧
      Listing.get (after t []) ⟨"e", .user⟩ "a" .all = .ok (some found) ∧
      found ≠ identified "a" := by
  obtain ⟨id, found, hid, hget, hiff, -⟩ := get_added_eq_iff add_second []
  rw [resolve_identified] at hid
  obtain rfl : "a" = id := by simpa using hid
  refine ⟨_, _, found, add_second, hget, fun he => ?_⟩
  have := hiff.mp he (identified "A") (by rw [added_first]; simp)
  exact absurd this (by decide +kernel)

/-- The user `a` is added, and the user `A` is got by its identifier. -/
theorem get_other_case :
    ∃ row t, Store.add (after (Store.empty : Table) [.add ⟨"e", .user⟩ (identified "A")])
        ⟨"e", .user⟩ (identified "a") = .ok (row, t) ∧
      Listing.get (after t []) ⟨"e", .user⟩ "a" .all = .ok (some (identified "A")) ∧
      identified "A" ≠ identified "a" := by
  have hfind : (identified "A").hasText .scimId "a" = true := by decide +kernel
  refine ⟨_, _, add_second, ?_, by simp [identified]⟩
  rw [get_after_add add_second (resolve_identified "a") [], added_first, List.find?_cons, hfind]
  rfl

end Session
end ScimQuery
