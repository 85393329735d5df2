import ScimQuery.Proofs.Session.Rows

/-! # Asking by identifier

A single resource is asked for by a filter that is made from its identifier.  Whatever the characters
of the identifier are, that filter is read as the one comparison with it and becomes the one look-up
in its column (`Listing.parse_idFilter`, `Listing.plan_idFilter`), so no identifier can ask for
anything else.

The answer after a session is then the first resource that the session added to the scope under the
identifier, in any case of its letters: always from a plain store, and from an indexed one unless the
endpoint or the identifier is too long for the cells (`get_by_identifier`). -/

namespace ScimQuery

namespace Memory

/-- A session puts what it adds to a scope behind the resources that are there. -/
theorem resources_after (m : Memory) (scope : Scope) (steps : List Step) :
    (Session.after m steps).resources scope =
      m.resources scope ++ Session.added scope m steps := by
  refine Session.listed_after resources ?_ m scope steps
  intro m m₁ place r receipt hadd scope
  obtain ⟨rfl, rfl⟩ := Prod.mk.inj (Except.ok.inj hadd)
  exact m.resources_add place scope r

/-- After a session a scope holds what the session has added to it. -/
theorem resources_after_empty (scope : Scope) (steps : List Step) :
    (Session.after (Store.empty : Memory) steps).resources scope =
      Session.added scope (Store.empty : Memory) steps :=
  resources_after ⟨[]⟩ scope steps

/-- A text is looked up in a column among the resources that have it there. -/
theorem fetch_text (m : Memory) (scope : Scope) (c : Column) (v : String) :
    Store.fetch m scope [(c, .text v)] = .ok ((m.resources scope).filter (·.hasText c v)) := by
  have hfits : ∀ r : Object, fits [(c, .text v)] r = r.hasText c v := by
    intro r
    rw [fits_singleton, columnEquals_text, Object.hasText_eq]
  exact congrArg Except.ok (List.filter_congr fun r _ => hfits r)

end Memory

namespace Table

/-- No resource that an indexed store keeps has a text in a column that is too long to be looked
up. -/
theorem Sound.hasText_eq_false {t : Table} (h : t.Sound) {scope : Scope} {r : Object}
    (hr : r ∈ t.resources scope) (c : Column) {v : String}
    (hv : TooLong.maxLength < (Text.lower v).length) : r.hasText c v = false := by
  obtain ⟨row, hrow, rfl⟩ := List.mem_map.mp hr
  have hrow : row.Sound := h.rows row (List.mem_filter.mp hrow).1
  rw [Object.hasText_eq, beq_eq_false_iff_ne]
  intro hform
  have hfolded : (row.index c).folded = some (Text.lower v) := (hrow.folded c).trans hform
  have hshort := hrow.short.1 _ _ (Row.mem_cells_folded hfolded)
  omega

end Table

namespace Listing

/-- The first resource of a scope that has an identifier, in any case of its letters. -/
theorem get_memory (m : Memory) (scope : Scope) (id : String) (projection : Projection) :
    get m scope id projection =
      .ok (((m.resources scope).find? (·.hasText .scimId id)).map projection.apply) := by
  rw [get_eq, Memory.fetch_text]
  dsimp only
  rw [List.head?_filter]

/-- The same of an indexed store, unless the endpoint or the identifier is too long. -/
theorem get_table {t : Table} (h : t.Sound) (scope : Scope) (id : String)
    (projection : Projection) :
    get t scope id projection =
      if TooLong.maxLength < scope.endpoint.length then
        .error (.tooLong ⟨.endpoint, scope.endpoint⟩)
      else if TooLong.maxLength < (Text.lower id).length then
        .error (.tooLong ⟨.folded .scimId, Text.lower id⟩)
      else .ok (((t.resources scope).find? (·.hasText .scimId id)).map projection.apply) := by
  have hfetch : Store.fetch t scope [(.scimId, .text id)] = t.fetch scope [(.scimId, .text id)] := rfl
  rw [get_eq, hfetch, Table.fetch_text, h.select_eq]
  by_cases he : TooLong.maxLength < scope.endpoint.length
  · rw [if_pos he, if_pos he]
  · rw [if_neg he, if_neg he]
    by_cases hid : TooLong.maxLength < (Text.lower id).length
    · rw [if_pos hid, if_pos hid]
    · rw [if_neg hid, if_neg hid]
      dsimp only
      rw [List.head?_filter]

end Listing

namespace Session

/-- Asking for one resource by its identifier.  The filter made from the identifier is accepted, and
looks it up and nothing else, for either type.  After every session the answer is the projection of
the first resource that was added to the scope and has that identifier, in any case of its letters,
and nothing when there is none; only an indexed store refuses an endpoint or an identifier whose
lower-case form has more than 255 characters. -/
theorem get_by_identifier (steps : List Step) (scope : Scope) (id : String)
    (projection : Projection) :
    Filter.parse (Listing.idFilter id) = .ok (.compare "id" .equal (.text id)) ∧
    Plan.ofText scope.type.columns (some (Listing.idFilter id)) =
      .ok (.lookUp .scimId (.text id)) ∧
    Listing.get (after (Store.empty : Memory) steps) scope id projection =
      .ok (((added scope (Store.empty : Memory) steps).find?
        (·.hasText .scimId id)).map projection.apply) ∧
    Listing.get (after (Store.empty : Table) steps) scope id projection =
      if TooLong.maxLength < scope.endpoint.length then
        .error (.tooLong ⟨.endpoint, scope.endpoint⟩)
      else if TooLong.maxLength < (Text.lower id).length then
        .error (.tooLong ⟨.folded .scimId, Text.lower id⟩)
      else .ok (((added scope (Store.empty : Table) steps).find?
        (·.hasText .scimId id)).map projection.apply) := by
  refine ⟨Listing.parse_idFilter id, ?_, ?_, ?_⟩
  · rw [Plan.ofText, if_neg (Listing.idFilter_ne_empty id), Listing.parse_idFilter]
    cases scope.type <;> rfl
  · rw [Listing.get_memory, Memory.resources_after_empty]
  · have hsound : (after (Store.empty : Table) steps).Sound := Table.sound_empty.after steps
    rw [Listing.get_table hsound, Table.resources_after_empty]

/-- An identifier that no cell can hold is asked for after one user was added: the answer of an indexed
store is an error, where no resource that was added has the identifier. -/
theorem get_refuses_long_identifier :
    let steps : List Step :=
      [.add ⟨"e", .user⟩ [("id", .text "1"), ("userName", .text "Ann")]]
    added ⟨"e", .user⟩ (Store.empty : Table) steps = [[("id", .text "1"), ("userName", .text "Ann")]] ∧
    (added ⟨"e", .user⟩ (Store.empty : Table) steps).find?
      (·.hasText .scimId (Listing.identifier 256)) = none ∧
    Listing.get (after (Store.empty : Table) steps) ⟨"e", .user⟩ (Listing.identifier 256) .all =
      .error (.tooLong ⟨.folded .scimId, Listing.identifier 256⟩) := by
  intro steps
  have hlower : Text.lower (Listing.identifier 256) = Listing.identifier 256 :=
    Listing.lower_identifier 256
  have hlong : TooLong.maxLength < (Text.lower (Listing.identifier 256)).length := by
    rw [hlower, Listing.length_identifier]
    decide
  have hsound : (after (Store.empty : Table) steps).Sound := Table.sound_empty.after steps
  refine ⟨?_, ?_, ?_⟩
  · simp [steps, added, Listing.add_oneUser]
  · rw [← Table.resources_after_empty, List.find?_eq_none]
    intro r hr
    simp [hsound.hasText_eq_false hr .scimId hlong]
  · rw [Listing.get_table hsound, if_neg (by decide), if_pos hlong, hlower]

end Session
end ScimQuery
