import ScimQuery.Proofs.Filter.Rendering
import ScimQuery.Proofs.Listing.Page
import ScimQuery.Proofs.Store.Agreement

/-! # Two stores, one listing

The answers that an indexed store and a plain one give after the same resources were added to them.
A plan asks for no `null` (`Plan.ne_null_of_mem_predicate`), so both stores fetch the same for it,
and from there on the answers are made alike.  The exception is a look-up of what is too long for
the indexed store: that is an error there, and an empty page or no resource from the plain one
(`answers_agree`). -/

namespace ScimQuery

namespace Plan

/-- No plan for a filter asks for `null`. -/
theorem ne_null_of_mem_predicate {κ : Type} {columns : List (String × κ)} {f : Filter}
    {entry : κ × Scalar} (h : entry ∈ (ofFilter columns f).predicate) : entry.2 ≠ .null := by
  unfold ofFilter at h
  cases hl : lookUp? columns f with
  | none => simp [hl, predicate] at h
  | some found =>
      obtain ⟨c, v⟩ := found
      obtain ⟨_, _, hv, _⟩ := eq_compare_of_lookUp? hl
      simp only [hl, predicate, List.mem_singleton] at h
      rw [h]
      exact hv

end Plan

namespace Listing

/-! ### Plans -/

theorem ne_null_of_plan {type : ResourceType} {filter : Option String} {p : Plan Column}
    (h : plan type filter = .ok p) : ∀ entry ∈ p.predicate, entry.2 ≠ .null := by
  rw [plan_eq] at h
  split at h
  · cases h
  · obtain rfl := Except.ok.inj h
    simp [Plan.predicate]
  · obtain rfl := Except.ok.inj h
    exact fun entry => Plan.ne_null_of_mem_predicate

/-- The filter for an identifier is written as a comparison with it. -/
theorem idFilter_eq (id : String) :
    idFilter id = Filter.render (.compare "id" .equal (.text id)) := by
  rw [idFilter, Filter.render, ← String.toList_inj]
  simp [Filter.written, Scalar.written, Operator.name]

theorem idFilter_ne_empty (id : String) : idFilter id ≠ "" := by
  rw [← String.toList_inj.ne]
  simp [idFilter]

/-- The filter for an identifier is read back as a comparison with it, whatever its characters. -/
theorem parse_idFilter (id : String) :
    Filter.parse (idFilter id) = .ok (.compare "id" .equal (.text id)) := by
  have hrender : (Filter.compare "id" .equal (.text id)).isRenderable = true := by
    have hid : Filter.isIdentifier "id" = true := by decide
    simp only [Filter.isRenderable, hid, Bool.true_and]
    rfl
  have hshort : ∀ v ∈ (Filter.compare "id" .equal (.text id)).values, ¬ v.IsOverlong := by
    simp [Filter.values, Scalar.IsOverlong]
  rw [idFilter_eq]
  exact Filter.parse_render_of_short hrender hshort

/-- The resource with an identifier is looked up in its column. -/
theorem plan_idFilter (type : ResourceType) (id : String) :
    plan type (some (idFilter id)) = .ok (.lookUp .scimId (.text id)) := by
  rw [plan_eq, filterOf_some (idFilter_ne_empty id) (parse_idFilter id)]
  cases type <;> rfl

/-! ### Answers -/

section Answers

variable {σ : Type} [Store σ] {s : σ} {scope : Scope} {request : SearchRequest} {p : Plan Column}

/-- A listing depends on its store only in what is fetched for its plan. -/
theorem list_of_plan (hp : plan scope.type request.filter = .ok p) :
    list s scope request = match Store.fetch s scope p.predicate with
      | .error long => .error (.tooLong long)
      | .ok rs => .ok (page request (sorted request (matched p rs))) := by
  rw [list, hp]
  simp only [fetch, bind, Except.bind]
  cases Store.fetch s scope p.predicate with
  | error long => rfl
  | ok rs => rfl

theorem list_of_plan_error {fault : Fault} (hp : plan scope.type request.filter = .error fault) :
    list s scope request = .error fault := by
  rw [list, hp]
  rfl

/-- A single resource is the first one that is fetched for its identifier. -/
theorem get_eq (id : String) (projection : Projection) :
    get s scope id projection = match Store.fetch s scope [(.scimId, .text id)] with
      | .error long => .error (.tooLong long)
      | .ok rs => .ok (rs.head?.map projection.apply) := by
  rw [get, plan_idFilter]
  simp only [fetch, bind, Except.bind, Plan.predicate]
  cases Store.fetch s scope [(.scimId, .text id)] with
  | error long => rfl
  | ok rs => rfl

end Answers

theorem sorted_nil (request : SearchRequest) : sorted request [] = [] := by
  rw [sorted]
  split
  · rfl
  · split
    · rfl
    · simp [sortByKey]

theorem matched_nil (p : Plan Column) : matched p [] = [] := by
  rw [matched]
  split <;> rfl

/-- The page of no resource. -/
theorem page_nil (request : SearchRequest) : page request [] = ⟨0, [], request.startIndex⟩ := by
  simp [page]

/-- What a listing asks of an indexed store that is too long for it. -/
def tooLong? (scope : Scope) (request : SearchRequest) : Option TooLong :=
  match plan scope.type request.filter with
  | .error _ => none
  | .ok p => Table.tooLong? scope p.predicate

/-- The same resources, added to an indexed store that refuses none of them and to a plain store,
give the same answers, where no column's attribute is a number or a truth value.  Every listing and
every look-up of one resource is the same page or resource or the same error on both, with one
exception: where the endpoint, or the lower-case form of a text that is looked up, has more than 255
characters, the indexed store answers with an error that names it, and the plain store with an empty
page or no resource. -/
theorem answers_agree {added : List (Scope × Object)} {t : Table}
    (ht : Store.addAll (Store.empty : Table) added = .ok t)
    (huntyped : ∀ entry ∈ added, entry.2.ColumnsUntyped) :
    ∃ m : Memory, Store.addAll (Store.empty : Memory) added = .ok m ∧
      (∀ scope request,
        (tooLong? scope request = none → list t scope request = list m scope request) ∧
        (∀ long, tooLong? scope request = some long →
          list t scope request = .error (.tooLong long) ∧
          list m scope request = .ok ⟨0, [], request.startIndex⟩)) ∧
      ∀ scope id projection,
        (Table.tooLong? scope [(.scimId, .text id)] = none →
          get t scope id projection = get m scope id projection) ∧
        (∀ long, Table.tooLong? scope [(.scimId, .text id)] = some long →
          get t scope id projection = .error (.tooLong long) ∧
          get m scope id projection = .ok none) := by
  have h : t.Mirrors ⟨added⟩ := Table.Mirrors.empty.addAll ht
  have hr : ∀ scope, ∀ r ∈ (⟨added⟩ : Memory).resources scope, r.ColumnsUntyped := by
    intro scope r hr
    obtain ⟨entry, hmem, rfl⟩ := List.mem_map.mp hr
    exact huntyped entry (List.mem_filter.mp hmem).1
  refine ⟨⟨added⟩, Memory.addAll_eq ⟨[]⟩ added, fun scope request => ?_,
    fun scope id projection => ?_⟩
  · unfold tooLong?
    cases hp : plan scope.type request.filter with
    | error fault =>
        refine ⟨fun _ => ?_, by simp⟩
        rw [list_of_plan_error hp, list_of_plan_error hp]
    | ok p =>
        dsimp only
        rw [list_of_plan hp, list_of_plan hp]
        refine ⟨fun hlong => ?_, fun long hlong => ?_⟩
        · rw [h.fetch_eq (hr scope) (ne_null_of_plan hp) hlong]
        · obtain ⟨herror, hnil⟩ := h.fetch_tooLong hlong
          rw [herror, hnil]
          dsimp only
          rw [matched_nil, sorted_nil, page_nil]
          exact ⟨rfl, rfl⟩
  · rw [get_eq, get_eq]
    refine ⟨fun hlong => ?_, fun long hlong => ?_⟩
    · rw [h.fetch_eq (hr scope) (by simp) hlong]
    · obtain ⟨herror, hnil⟩ := h.fetch_tooLong hlong
      rw [herror, hnil]
      exact ⟨rfl, rfl⟩

/-- One user. -/
def oneUser : List (Scope × Object) :=
  [(⟨"e", .user⟩, [("id", .text "1"), ("userName", .text "Ann")])]

/-- The row of the one user. -/
def oneRow : Table := ⟨oneUser.map fun (scope, r) => Row.make scope r⟩

theorem add_oneUser :
    Store.add (Store.empty : Table) ⟨"e", .user⟩ [("id", .text "1"), ("userName", .text "Ann")] =
      .ok (Row.make ⟨"e", .user⟩ [("id", .text "1"), ("userName", .text "Ann")], oneRow) := by
  have hcheck : (Row.make ⟨"e", .user⟩ [("id", .text "1"), ("userName", .text "Ann")]).check =
      .ok () := by decide +kernel
  exact Table.add_eq_ok_iff.mpr ⟨rfl, hcheck, rfl, rfl⟩

theorem addAll_oneUser : Store.addAll (Store.empty : Table) oneUser = .ok oneRow :=
  Store.addAll_cons add_oneUser []

theorem columnsUntyped_oneUser : ∀ entry ∈ oneUser, entry.2.ColumnsUntyped := by
  intro entry hmem c
  rw [List.mem_singleton.mp hmem]
  cases c <;> decide +kernel

/-- The one user is found by either store, under its name in other letters and by its identifier. -/
theorem answers_agree_one_user :
    Store.addAll (Store.empty : Table) oneUser = .ok oneRow ∧
    (∀ entry ∈ oneUser, entry.2.ColumnsUntyped) ∧
    ∃ m : Memory, Store.addAll (Store.empty : Memory) oneUser = .ok m ∧
      (∀ request : SearchRequest, request.filter = some "userName eq \"ANN\"" →
        list oneRow ⟨"e", .user⟩ request = list m ⟨"e", .user⟩ request) ∧
      get oneRow ⟨"e", .user⟩ "1" .all = get m ⟨"e", .user⟩ "1" .all := by
  obtain ⟨m, hm, hlist, hget⟩ := answers_agree addAll_oneUser columnsUntyped_oneUser
  refine ⟨addAll_oneUser, columnsUntyped_oneUser, m, hm, fun request hrequest => ?_,
    (hget ⟨"e", .user⟩ "1" .all).1 (by decide +kernel)⟩
  have hshort : tooLong? ⟨"e", .user⟩ request = none := by
    rw [tooLong?, hrequest]
    decide +kernel
  exact (hlist ⟨"e", .user⟩ request).1 hshort

/-- An identifier of `n` characters. -/
def identifier (n : Nat) : String := String.ofList (List.replicate n 'x')

theorem lower_identifier (n : Nat) : Text.lower (identifier n) = identifier n := by
  refine Text.lower_eq_self fun c hc => ?_
  rw [identifier, String.toList_ofList] at hc
  rw [List.eq_of_mem_replicate hc]
  exact Text.isPlain_of_ascii (by decide) (by decide)

theorem length_identifier (n : Nat) : (identifier n).length = n := by
  rw [identifier, String.length_ofList, List.length_replicate]

theorem tooLong?_identifier {n : Nat} (hn : TooLong.maxLength < n) :
    Table.tooLong? ⟨"e", .user⟩ [(.scimId, .text (identifier n))] =
      some ⟨.folded .scimId, identifier n⟩ := by
  have htexts : Table.texts? [((.scimId : Column), Json.text (identifier n))] =
      some [(.scimId, identifier n)] := rfl
  have hscope : ¬ TooLong.maxLength < "e".length := by decide
  rw [Table.tooLong?, List.map_cons, List.map_nil, htexts]
  simp [Table.askedTexts, lower_identifier, length_identifier, hscope, hn]

/-- An identifier that is too long, which no resource has, is an error in one store only. -/
theorem answers_differ_on_long_identifier :
    ∃ (t : Table) (m : Memory), Store.addAll (Store.empty : Table) oneUser = .ok t ∧
      (∀ entry ∈ oneUser, entry.2.ColumnsUntyped) ∧
      Store.addAll (Store.empty : Memory) oneUser = .ok m ∧
      get m ⟨"e", .user⟩ (identifier 256) .all = .ok none ∧
      get t ⟨"e", .user⟩ (identifier 256) .all =
        .error (.tooLong ⟨.folded .scimId, identifier 256⟩) := by
  have h : oneRow.Mirrors ⟨oneUser⟩ := Table.Mirrors.empty.addAll addAll_oneUser
  obtain ⟨herror, hnil⟩ := h.fetch_tooLong (tooLong?_identifier (n := 256) (by decide))
  refine ⟨oneRow, ⟨oneUser⟩, addAll_oneUser, columnsUntyped_oneUser,
    Memory.addAll_eq ⟨[]⟩ oneUser, ?_, ?_⟩
  · rw [get_eq, hnil]
    rfl
  · rw [get_eq, herror]

end Listing
end ScimQuery
