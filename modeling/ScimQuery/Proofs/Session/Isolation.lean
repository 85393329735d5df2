import ScimQuery.Proofs.Store.Agreement
import ScimQuery.Session

/-! # Sessions over many scopes

A step of a session is about one scope, and no other scope has a part in it.  A store is confined
(`Store.Confined`) if a view of each scope settles what it answers there, and if an addition to one
scope leaves the views of the others.  Of a plain store the view is the resources of a scope, of an
indexed store it is the rows.

So the answer to a step depends on the view of its scope only (`answer_congr`), and this view is the
one that the accepted additions to the scope leave by themselves (`view_after`): steps of other
scopes, reads and refused additions do not count (`isolated_of_confined`). -/

namespace ScimQuery

/-- The scope that a step is about. -/
def Step.scope : Step → Scope
  | .add scope _ => scope
  | .find scope _ => scope
  | .list scope _ => scope
  | .get scope _ _ => scope

/-! ### Confined stores -/

/-- `Confined view`: what a store does in a scope depends on no more than the view of that scope,
and changes the view of no other. -/
structure Store.Confined {σ β : Type} [Store σ] (view : σ → Scope → β) : Prop where
  accepts : ∀ {s s' s₁ : σ} {scope : Scope} {r : Object} {receipt : Store.Receipt σ},
    view s scope = view s' scope → Store.add s scope r = .ok (receipt, s₁) →
      ∃ s₁', Store.add s' scope r = .ok (receipt, s₁') ∧ view s₁ scope = view s₁' scope
  refuses : ∀ {s s' : σ} {scope : Scope} {r : Object} {fault : AddFault},
    view s scope = view s' scope → Store.add s scope r = .error fault →
      Store.add s' scope r = .error fault
  leaves : ∀ {s s₁ : σ} {scope other : Scope} {r : Object} {receipt : Store.Receipt σ},
    Store.add s scope r = .ok (receipt, s₁) → scope ≠ other → view s₁ other = view s other
  fetches : ∀ {s s' : σ} {scope : Scope}, view s scope = view s' scope →
    ∀ predicate, Store.fetch s scope predicate = Store.fetch s' scope predicate
  finds : ∀ {s s' : σ} {scope : Scope}, view s scope = view s' scope →
    ∀ predicate, Store.find s scope predicate = Store.find s' scope predicate

namespace Memory

theorem resources_add (m : Memory) (scope other : Scope) (r : Object) :
    (m.add scope r).resources other = m.resources other ++ if scope = other then [r] else [] := by
  rw [resources, add, List.filter_append, List.map_append, resources]
  by_cases h : scope = other
  · simp [h]
  · simp [h]

/-- A plain store is confined to the resources of each scope. -/
theorem confined : Store.Confined resources where
  accepts := by
    intro s s' s₁ scope r receipt h hadd
    obtain ⟨rfl, rfl⟩ := Prod.mk.inj (Except.ok.inj hadd)
    refine ⟨s'.add scope r, rfl, ?_⟩
    rw [resources_add, resources_add, h]
  refuses := by
    intro s s' scope r fault _ hadd
    cases hadd
  leaves := by
    intro s s₁ scope other r receipt hadd hne
    obtain ⟨rfl, rfl⟩ := Prod.mk.inj (Except.ok.inj hadd)
    rw [resources_add, if_neg hne, List.append_nil]
  fetches := by
    intro s s' scope h predicate
    exact congrArg (fun rs => Except.ok (rs.filter (fits predicate))) h
  finds := by
    intro s s' scope h predicate
    exact congrArg (filterNamed predicate) h

end Memory

namespace Table

/-- Whether an identifier is taken is seen in its scope. -/
theorem any_sameKey (t : Table) (row : Row) :
    t.rows.any row.sameKey = (t.inScope row.scope).any row.sameKey := by
  rw [inScope, List.any_filter]
  congr 1
  funext other
  rw [Row.sameKey, Bool.beq_comm (a := other.scope)]
  cases row.scope == other.scope <;> rfl

/-- What an indexed store does with a new resource, by the rows of its scope. -/
theorem add_eq (t : Table) (scope : Scope) (r : Object) :
    t.add scope r = (Row.make scope r).check.bind fun _ =>
      if (t.inScope scope).any (Row.make scope r).sameKey then .error .duplicate
      else .ok (Row.make scope r, ⟨t.rows ++ [Row.make scope r]⟩) := by
  have hkey : t.rows.any (Row.make scope r).sameKey =
      (t.inScope scope).any (Row.make scope r).sameKey := t.any_sameKey (Row.make scope r)
  rw [add, hkey]
  rfl

theorem inScope_concat (t : Table) (row : Row) (other : Scope) :
    (⟨t.rows ++ [row]⟩ : Table).inScope other =
      t.inScope other ++ if row.scope = other then [row] else [] := by
  rw [inScope, List.filter_append, inScope]
  by_cases h : row.scope = other
  · simp [h]
  · simp [h]

theorem select_congr {t t' : Table} {scope : Scope} (h : t.inScope scope = t'.inScope scope)
    (asked : List (Column × String)) : t.select scope asked = t'.select scope asked := by
  rw [select, h, select]

/-- An indexed store is confined to the rows of each scope. -/
theorem confined : Store.Confined inScope where
  accepts := by
    intro t t' t₁ scope r row h hadd
    obtain ⟨rfl, hcheck, hnew, rfl⟩ := add_eq_ok_iff.mp hadd
    refine ⟨_, add_eq_ok_iff.mpr ⟨rfl, hcheck, ?_, rfl⟩, ?_⟩
    · rw [any_sameKey] at hnew ⊢
      exact (congrArg (List.any · _) h).symm.trans hnew
    · rw [inScope_concat, inScope_concat, h]
  refuses := by
    intro t t' scope r fault h hadd
    have hadd : t.add scope r = .error fault := hadd
    have hgoal : t'.add scope r = .error fault := by
      rw [add_eq] at hadd ⊢
      rw [← h]
      cases hcheck : (Row.make scope r).check with
      | error e =>
          rw [hcheck] at hadd
          exact hadd
      | ok u =>
          rw [hcheck] at hadd
          simp only [Except.bind] at hadd ⊢
          split at hadd
          · rename_i hkey
            rw [if_pos hkey]
            exact hadd
          · cases hadd
    exact hgoal
  leaves := by
    intro t t₁ scope other r row hadd hne
    obtain ⟨rfl, -, -, rfl⟩ := add_eq_ok_iff.mp hadd
    have hscope : (Row.make scope r).scope = scope := rfl
    rw [inScope_concat, hscope, if_neg hne, List.append_nil]
  fetches := by
    intro t t' scope h predicate
    have hfetch : t.fetch scope predicate = t'.fetch scope predicate := by
      simp only [fetch, select_congr h]
    exact hfetch
  finds := by
    intro t t' scope h predicate
    have hfind : t.find scope predicate = t'.find scope predicate := by
      simp only [find, select_congr h]
    exact hfind

end Table

/-! ### Answers -/

namespace Listing

variable {σ : Type} [Store σ] {s s' : σ} {scope : Scope}

/-- A listing depends on its store only in what is fetched. -/
theorem list_congr (h : ∀ predicate, Store.fetch s scope predicate = Store.fetch s' scope predicate)
    (request : SearchRequest) : list s scope request = list s' scope request := by
  simp only [list, fetch, h]

theorem get_congr (h : ∀ predicate, Store.fetch s scope predicate = Store.fetch s' scope predicate)
    (id : String) (projection : Projection) :
    get s scope id projection = get s' scope id projection := by
  simp only [get, fetch, h]

end Listing

namespace Session

variable {σ : Type} [Store σ]

/-- The store after the steps of a session. -/
def after (s : σ) : List Step → σ
  | [] => s
  | step :: rest => after (Session.step s step).2 rest

/-- The resources that the steps of a session add to a scope: those that are not refused. -/
def added (scope : Scope) (s : σ) : List Step → List Object
  | [] => []
  | .add place r :: rest =>
    match Store.add s place r with
    | .ok (_, s') => if place = scope then r :: added scope s' rest else added scope s' rest
    | .error _ => added scope s rest
  | _ :: rest => added scope s rest

/-- The session that adds resources to a scope, one after another. -/
def additions (scope : Scope) (rs : List Object) : List Step := rs.map (.add scope)

/-- Of the steps of a session, the first are answered apart from the rest, and the rest go on with
the store that the first leave. -/
theorem run_append (s : σ) (steps rest : List Step) :
    run s (steps ++ rest) = run s steps ++ run (after s steps) rest := by
  induction steps generalizing s with
  | nil => rfl
  | cons step steps ih =>
      rw [List.cons_append, run, ih, run, List.cons_append, after]

theorem length_run (s : σ) (steps : List Step) : (run s steps).length = steps.length := by
  induction steps generalizing s with
  | nil => rfl
  | cons step steps ih => rw [run, List.length_cons, ih, List.length_cons]

/-- The answer to a step in the middle of a session. -/
theorem getElem?_run (s : σ) (before : List Step) (step : Step) (rest : List Step) :
    (run s (before ++ step :: rest))[before.length]? =
      some (Session.step (after s before) step).1 := by
  rw [run_append, ← length_run s before, List.getElem?_append_right (Nat.le_refl _), Nat.sub_self,
    run]
  rfl

theorem after_add {s s₁ : σ} {scope : Scope} {r : Object} {receipt : Store.Receipt σ}
    (h : Store.add s scope r = .ok (receipt, s₁)) (rest : List Step) :
    after s (.add scope r :: rest) = after s₁ rest := by
  simp only [after, step, h]

theorem after_refused {s : σ} {scope : Scope} {r : Object} {fault : AddFault}
    (h : Store.add s scope r = .error fault) (rest : List Step) :
    after s (.add scope r :: rest) = after s rest := by
  simp only [after, step, h]

section Confined

variable {β : Type} {view : σ → Scope → β} (hv : Store.Confined view)
include hv

/-- A step is answered from the view of its scope. -/
theorem answer_congr {s s' : σ} {step : Step} (h : view s step.scope = view s' step.scope) :
    (Session.step s step).1 = (Session.step s' step).1 := by
  cases step with
  | add scope r =>
      dsimp only [Step.scope] at h
      cases hadd : Store.add s scope r with
      | ok result =>
          obtain ⟨receipt, s₁⟩ := result
          obtain ⟨s₁', hadd', -⟩ := hv.accepts h hadd
          simp only [Session.step, hadd, hadd']
      | error fault => simp only [Session.step, hadd, hv.refuses h hadd]
  | find scope predicate =>
      dsimp only [Step.scope] at h
      simp only [Session.step, hv.finds h predicate]
  | list scope request =>
      dsimp only [Step.scope] at h
      simp only [Session.step, Listing.list_congr (hv.fetches h) request]
  | get scope id projection =>
      dsimp only [Step.scope] at h
      simp only [Session.step, Listing.get_congr (hv.fetches h) id projection]

/-- The view of a scope after a session is the one that its accepted additions leave by themselves.
By induction on the steps. -/
theorem view_after {s s' : σ} {scope : Scope} (h : view s scope = view s' scope)
    (steps : List Step) :
    view (after s steps) scope = view (after s' (additions scope (added scope s steps))) scope := by
  induction steps generalizing s s' with
  | nil => exact h
  | cons step steps ih =>
      cases step with
      | add place r =>
          cases hadd : Store.add s place r with
          | ok result =>
              obtain ⟨receipt, s₁⟩ := result
              rw [after_add hadd]
              simp only [added, hadd]
              by_cases hplace : place = scope
              · subst hplace
                obtain ⟨s₁', hadd', h₁⟩ := hv.accepts h hadd
                rw [if_pos rfl, additions, List.map_cons, after_add hadd']
                exact ih h₁
              · rw [if_neg hplace]
                exact ih ((hv.leaves hadd hplace).trans h)
          | error fault =>
              rw [after_refused hadd]
              simp only [added, hadd]
              exact ih h
      | find place predicate => exact ih h
      | list place request => exact ih h
      | get place id projection => exact ih h

end Confined

/-- `Isolated σ`: in every session on an empty store, each step gets the answer that it gets right
after the accepted additions to its scope, in the session of these alone. -/
def Isolated (σ : Type) [Store σ] : Prop :=
  ∀ (before : List Step) (step : Step) (rest : List Step), ∃ answer,
    (run (Store.empty : σ) (before ++ step :: rest))[before.length]? = some answer ∧
    (run (Store.empty : σ)
      (additions step.scope (added step.scope (Store.empty : σ) before) ++ [step])).getLast? =
        some answer

theorem isolated_of_confined {β : Type} {view : σ → Scope → β} (hv : Store.Confined view) :
    Isolated σ := by
  intro before step rest
  refine ⟨_, getElem?_run Store.empty before step rest, ?_⟩
  rw [answer_congr hv (view_after hv rfl before), run_append, List.getLast?_append]
  rfl

/-- Scopes are isolated in either store: what other scopes are asked or given, what is read, and
what is refused changes no later answer, not even whether an addition is accepted. -/
theorem isolated_memory_and_table : Isolated Memory ∧ Isolated Table :=
  ⟨isolated_of_confined Memory.confined, isolated_of_confined Table.confined⟩

end Session
end ScimQuery
