import ScimQuery.Proofs.Listing.Agreement
import ScimQuery.Proofs.Session.Isolation

/-! # Rows of an indexed store

What is true of an indexed store after every session, whatever was added to it, refused or read.
Every row is sound (`Row.Sound`): its resource has a text as its identifier, no text in it is too
long, and beside each column it holds the lower-case form of an attribute that is a text, and of no
other.  No two rows of a scope have the same identifier (`Table.Sound`).  An addition keeps this
(`Table.Sound.add`), so a session does (`Table.Sound.after`), and the resources of a scope are those
that the session has added to it, in their order (`Table.resources_after`).

So looking a text up in a column finds the added resources whose attribute is that text, in any case
of its letters, unless the text or the endpoint is too long for the cells (`rows_and_look_ups`). -/

namespace ScimQuery

/-- Whether the attribute of a column is a text that differs from a given one at most in case. -/
def Object.hasText (r : Object) (c : Column) (v : String) : Bool :=
  match Path.resolve c.source (.object r) with
  | .scalar (.text s) => Text.sameText s v
  | _ => false

theorem Object.hasText_eq (r : Object) (c : Column) (v : String) :
    r.hasText c v = ((Row.indexOf r c).folded == some (Text.lower v)) := by
  unfold hasText Row.indexOf Index.ofJson
  cases Path.resolve c.source (.object r) with
  | array items => rfl
  | object o => rfl
  | scalar s => cases s <;> rfl

theorem Json.text?_eq_some_iff {v : Json} {s : String} : v.text? = some s ↔ v = .text s := by
  cases v with
  | scalar u => cases u <;> simp [text?]
  | array items => simp [text?]
  | object members => simp [text?]

namespace Row

/-! ### Sound rows -/

/-- What every row of an indexed store satisfies. -/
structure Sound (row : Row) : Prop where
  /-- The identifier of the resource is a text, and the row holds it and its lower-case form. -/
  identified : ∃ id, Path.resolve "id" (.object row.resource) = .text id ∧
    row.scimId = ⟨some id, some (Text.lower id)⟩
  /-- No text in a cell is too long, and no name of a type would be. -/
  short : (∀ cell s, (cell, some s) ∈ row.cells → s.length ≤ TooLong.maxLength) ∧
    row.scope.type.name.length ≤ TooLong.maxLength
  /-- A column has a lower-case form where its attribute is a text, and it is that of the text. -/
  folded : ∀ c, (row.index c).folded =
    (Path.resolve c.source (.object row.resource)).text?.map Text.lower

theorem length_name_le (type : ResourceType) : type.name.length ≤ TooLong.maxLength := by
  cases type <;> decide

/-- A row that is made of a resource and passes its checks is sound. -/
theorem sound_make {scope : Scope} {r : Object} (h : (make scope r).check = .ok ()) :
    (make scope r).Sound := by
  obtain ⟨⟨form, hform⟩, hshort⟩ := of_check h
  refine ⟨?_, ⟨hshort, length_name_le scope.type⟩, fun c => ?_⟩
  · obtain ⟨id, hid, -⟩ := Option.map_eq_some_iff.mp hform
    have hresolve : Path.resolve "id" (.object r) = .text id := Json.text?_eq_some_iff.mp hid
    have hindex : (make scope r).scimId = Index.ofJson (Path.resolve "id" (.object r)) := rfl
    refine ⟨id, hresolve, ?_⟩
    rw [hindex, hresolve]
    rfl
  · rw [Table.index_make]
    rfl

end Row

/-! ### Sound tables -/

namespace Session

/-- What an addition that is not refused keeps, a session keeps. -/
theorem after_induction {σ : Type} [Store σ] (kept : σ → Prop)
    (hadd : ∀ {s s₁ : σ} {scope : Scope} {r : Object} {receipt : Store.Receipt σ}, kept s →
      Store.add s scope r = .ok (receipt, s₁) → kept s₁)
    {s : σ} (h : kept s) (steps : List Step) : kept (after s steps) := by
  induction steps generalizing s with
  | nil => exact h
  | cons step steps ih =>
      cases step with
      | add scope r =>
          cases hstep : Store.add s scope r with
          | ok result =>
              obtain ⟨receipt, s₁⟩ := result
              rw [after_add hstep]
              exact ih (hadd h hstep)
          | error fault =>
              rw [after_refused hstep]
              exact ih h
      | find scope predicate => exact ih h
      | list scope request => exact ih h
      | get scope id projection => exact ih h

/-- Where an addition puts one resource behind those that are listed of its scope, a session puts
what it adds to the scope behind them. -/
theorem listed_after {σ : Type} [Store σ] (listed : σ → Scope → List Object)
    (hadd : ∀ {s s₁ : σ} {place : Scope} {r : Object} {receipt : Store.Receipt σ},
      Store.add s place r = .ok (receipt, s₁) →
        ∀ scope, listed s₁ scope = listed s scope ++ if place = scope then [r] else [])
    (s : σ) (scope : Scope) (steps : List Step) :
    listed (after s steps) scope = listed s scope ++ added scope s steps := by
  induction steps generalizing s with
  | nil => exact (List.append_nil _).symm
  | cons step steps ih =>
      cases step with
      | add place r =>
          cases hstep : Store.add s place r with
          | ok result =>
              obtain ⟨receipt, s₁⟩ := result
              rw [after_add hstep, ih, hadd hstep, List.append_assoc]
              simp only [added, hstep]
              by_cases h : place = scope
              · rw [if_pos h, if_pos h, List.singleton_append]
              · rw [if_neg h, if_neg h, List.nil_append]
          | error fault =>
              rw [after_refused hstep, ih]
              simp only [added, hstep]
      | find place predicate => exact ih s
      | list place request => exact ih s
      | get place id projection => exact ih s

end Session

namespace Table

/-- Every row is sound, and no two rows have the same scope and the same identifier. -/
structure Sound (t : Table) : Prop where
  rows : ∀ row ∈ t.rows, row.Sound
  distinct : t.rows.Pairwise fun a b => ¬ (a.scope = b.scope ∧ a.scimId.text = b.scimId.text)

theorem sound_empty : Sound ⟨[]⟩ := ⟨by simp, List.Pairwise.nil⟩

theorem sameKey_eq_true_iff {a b : Row} :
    a.sameKey b = true ↔ a.scope = b.scope ∧ a.scimId.text = b.scimId.text := by
  simp [Row.sameKey]

/-- An addition keeps a table sound. -/
theorem Sound.add {t t' : Table} (h : t.Sound) {scope : Scope} {r : Object} {row : Row}
    (hadd : t.add scope r = .ok (row, t')) : t'.Sound := by
  obtain ⟨rfl, hcheck, hnew, rfl⟩ := add_eq_ok_iff.mp hadd
  refine ⟨fun row hrow => ?_, ?_⟩
  · rcases List.mem_append.mp hrow with hrow | hrow
    · exact h.rows row hrow
    · rw [List.mem_singleton.mp hrow]
      exact Row.sound_make hcheck
  · refine List.pairwise_append.mpr ⟨h.distinct, List.pairwise_singleton _ _, ?_⟩
    intro a ha b hb hsame
    rw [List.mem_singleton.mp hb] at hsame
    have hkey := sameKey_eq_true_iff.mpr ⟨hsame.1.symm, hsame.2.symm⟩
    rw [List.any_eq_false] at hnew
    exact hnew a ha hkey

/-- A session keeps a table sound. -/
theorem Sound.after {t : Table} (h : t.Sound) (steps : List Step) :
    (Session.after t steps).Sound :=
  Session.after_induction Sound (fun h hadd => Sound.add h hadd) h steps

/-! ### Resources -/

/-- The resources of a scope, in the order in which they were added. -/
def resources (t : Table) (scope : Scope) : List Object := (t.inScope scope).map (·.resource)

/-- An addition puts one resource behind those of its scope. -/
theorem resources_of_add {t t' : Table} {place : Scope} {r : Object} {row : Row}
    (hadd : t.add place r = .ok (row, t')) (scope : Scope) :
    t'.resources scope = t.resources scope ++ if place = scope then [r] else [] := by
  obtain ⟨rfl, -, -, rfl⟩ := add_eq_ok_iff.mp hadd
  have hscope : (Row.make place r).scope = place := rfl
  rw [resources, inScope_concat, List.map_append, resources, hscope]
  by_cases h : place = scope
  · rw [if_pos h, if_pos h]
    rfl
  · rw [if_neg h, if_neg h]
    rfl

/-- A session puts what it adds to a scope behind the resources that are there. -/
theorem resources_after (t : Table) (scope : Scope) (steps : List Step) :
    (Session.after t steps).resources scope =
      t.resources scope ++ Session.added scope t steps :=
  Session.listed_after resources resources_of_add t scope steps

/-- After a session a scope holds what the session has added to it. -/
theorem resources_after_empty (scope : Scope) (steps : List Step) :
    (Session.after (Store.empty : Table) steps).resources scope =
      Session.added scope (Store.empty : Table) steps :=
  resources_after ⟨[]⟩ scope steps

/-! ### Look-ups -/

/-- The rows that are selected for a lower-case form are those whose resources have the text. -/
theorem Sound.select_eq {t : Table} (h : t.Sound) (scope : Scope) (c : Column) (v : String) :
    t.select scope [(c, Text.lower v)] = (t.resources scope).filter (·.hasText c v) := by
  rw [select, resources, List.filter_map]
  refine congrArg (List.map _) (List.filter_congr fun row hrow => ?_)
  have hrow : row.Sound := h.rows row (List.mem_filter.mp hrow).1
  rw [Row.fits, List.all_cons, List.all_nil, Bool.and_true, Function.comp_apply, Object.hasText_eq]
  exact congrArg (· == some (Text.lower v)) (hrow.folded c)

/-- A text is looked up in a column, unless the endpoint or its lower-case form is too long. -/
theorem fetch_text (t : Table) (scope : Scope) (c : Column) (v : String) :
    t.fetch scope [(c, .text v)] =
      if TooLong.maxLength < scope.endpoint.length then .error ⟨.endpoint, scope.endpoint⟩
      else if TooLong.maxLength < (Text.lower v).length then .error ⟨.folded c, Text.lower v⟩
      else .ok (t.select scope [(c, Text.lower v)]) := by
  have htexts : texts? [(c, Json.text v)] = some [(c, v)] := rfl
  rw [fetch, List.map_cons, List.map_nil, htexts]
  simp only [check_eq, List.mapM_cons, List.mapM_nil, form, bind, Except.bind, pure, Except.pure]
  by_cases he : TooLong.maxLength < scope.endpoint.length
  · simp only [if_pos he]
  · by_cases hv : TooLong.maxLength < (Text.lower v).length
    · simp only [if_neg he, if_pos hv]
    · simp only [if_neg he, if_neg hv]

/-- A column that is given by its name is looked up as the column is. -/
theorem find_text (t : Table) (scope : Scope) (c : Column) (v : String) :
    t.find scope [(c.name, .text v)] = (t.fetch scope [(c, .text v)]).mapError .tooLong := by
  have htexts : texts? [(c.name, Json.text v)] = some [(c.name, v)] := rfl
  rw [fetch_text, find, htexts]
  simp only [check_eq, List.mapM_cons, List.mapM_nil, formNamed, Column.ofName?_name, form, bind,
    Except.bind, pure, Except.pure]
  by_cases he : TooLong.maxLength < scope.endpoint.length
  · simp only [if_pos he, Except.mapError]
  · by_cases hv : TooLong.maxLength < (Text.lower v).length
    · simp only [if_neg he, if_pos hv, Except.mapError]
    · simp only [if_neg he, if_neg hv, Except.mapError]

end Table

namespace Session

/-- After every session, whatever it adds and whatever is refused, an indexed store is sound.  A
text that is looked up in a column is then found in the added resources whose attribute is the same
text, in any case of its letters, in the order in which they were added; only where the endpoint or
the lower-case form of the text has more than 255 characters is it refused instead. -/
theorem rows_and_look_ups (steps : List Step) :
    (after (Store.empty : Table) steps).Sound ∧
    ∀ scope c v, Store.find (after (Store.empty : Table) steps) scope [(Column.name c, .text v)] =
      if TooLong.maxLength < scope.endpoint.length then
        .error (.tooLong ⟨.endpoint, scope.endpoint⟩)
      else if TooLong.maxLength < (Text.lower v).length then
        .error (.tooLong ⟨.folded c, Text.lower v⟩)
      else .ok ((added scope (Store.empty : Table) steps).filter (·.hasText c v)) := by
  have hsound : (after (Store.empty : Table) steps).Sound := Table.sound_empty.after steps
  refine ⟨hsound, fun scope c v => ?_⟩
  have hadded : (after (Store.empty : Table) steps).resources scope =
      added scope (Store.empty : Table) steps := Table.resources_after ⟨[]⟩ scope steps
  have hfind := Table.find_text (after (Store.empty : Table) steps) scope c v
  rw [Table.fetch_text, hsound.select_eq, hadded] at hfind
  refine hfind.trans ?_
  by_cases he : TooLong.maxLength < scope.endpoint.length
  · rw [if_pos he, if_pos he]
    rfl
  · rw [if_neg he, if_neg he]
    by_cases hv : TooLong.maxLength < (Text.lower v).length
    · rw [if_pos hv, if_pos hv]
      rfl
    · rw [if_neg hv, if_neg hv]
      rfl

/-- After one addition, a text that no cell can hold is looked up: the answer is an error, where no
resource would be right. -/
theorem look_up_refuses_long_text :
    Store.find (after (Store.empty : Table)
        [.add ⟨"e", .user⟩ [("id", .text "1"), ("userName", .text "Ann")]])
        ⟨"e", .user⟩ [(Column.name .userName, .text (Listing.identifier 256))] =
      .error (.tooLong ⟨.folded .userName, Listing.identifier 256⟩) ∧
    (added ⟨"e", .user⟩ (Store.empty : Table)
        [.add ⟨"e", .user⟩ [("id", .text "1"), ("userName", .text "Ann")]]).filter
      (·.hasText .userName (Listing.identifier 256)) = [] := by
  have hlower : Text.lower (Listing.identifier 256) = Listing.identifier 256 :=
    Listing.lower_identifier 256
  have hlong : TooLong.maxLength < (Text.lower (Listing.identifier 256)).length := by
    rw [hlower, Listing.length_identifier]
    decide
  constructor
  · refine (Table.find_text _ _ .userName _).trans ?_
    rw [Table.fetch_text, if_neg (by decide), if_pos hlong, hlower]
    rfl
  · have hfolded : (Row.indexOf [("id", .text "1"), ("userName", .text "Ann")] .userName).folded =
        some "ann" := by decide +kernel
    have hdiffer : "ann" ≠ Listing.identifier 256 := by
      intro he
      have := congrArg String.length he
      rw [Listing.length_identifier] at this
      exact absurd this (by decide)
    simp only [added, Listing.add_oneUser]
    simp [Object.hasText_eq, hfolded, hlower, hdiffer]

end Session
end ScimQuery
