import Mathlib.Control.Monad.Basic
import ScimQuery.Plan
import ScimQuery.Proofs.Attribute.Resolution
import ScimQuery.Store.Memory

/-! # Looking up against filtering

A plan that looks a scalar up in a column against the filter that it was made for.  The filter's
path and the column's source are names with the same lower-case form, so both lead to the same
value (`Plan.holds_of_lookUp?`).  The filter then compares each item of an array, and the plain
store compares the value as a whole (`Memory.columnEquals_eq`).  So the store finds the resources
that satisfy the filter, except those that hold the scalar in an array (`find_lookUp_iff`). -/

namespace ScimQuery

/-! ### Columns and their sources -/

namespace Column

theorem isName_lower_source (c : Column) : Path.IsName (Text.lower c.source) := by
  cases c <;> exact ⟨by decide, by decide⟩

theorem isName_source (c : Column) : Path.IsName c.source := by
  cases c <;> exact ⟨by decide, by decide⟩

theorem ofName?_name (c : Column) : ofName? c.name = some c := by
  cases c <;> decide

end Column

/-- The attribute of a column is given by the lower-case form of the column's source. -/
theorem ResourceType.lower_source_of_lookup {type : ResourceType} {s : String} {c : Column}
    (h : type.columns.lookup s = some c) : Text.lower c.source = s := by
  obtain ⟨before, after, hsplit, _⟩ := List.lookup_eq_some_iff.mp h
  have hmem : (s, c) ∈ type.columns := by rw [hsplit]; simp
  have hall : ∀ entry ∈ type.columns, Text.lower entry.2.source = entry.1 := by
    cases type <;> decide
  exact hall (s, c) hmem

/-! ### Plans that look a scalar up -/

namespace Plan

/-- A filter that is looked up tests one path for equality with a scalar that is not `null`. -/
theorem eq_compare_of_lookUp? {κ : Type} {columns : List (String × κ)} {f : Filter} {column : κ}
    {value : Scalar} (h : lookUp? columns f = some (column, value)) :
    ∃ path, f = .compare path .equal value ∧ value ≠ .null ∧
      columns.lookup (Text.lower path) = some column := by
  unfold lookUp? at h
  split at h
  · rename_i path scalar
    split at h
    · cases h
    · rename_i hne
      obtain ⟨c, hc, he⟩ := Option.map_eq_some_iff.mp h
      simp only [Prod.mk.injEq] at he
      obtain ⟨rfl, rfl⟩ := he
      exact ⟨path, rfl, hne, hc⟩
  · cases h

/-- A filter that is looked up holds when the value at the column's source, or an item of it,
equals the scalar. -/
theorem holds_of_lookUp? {type : ResourceType} {f : Filter} {column : Column} {value : Scalar}
    (h : lookUp? type.columns f = some (column, value)) (r : Object) :
    f.holds (.object r) = Operator.equal.testAny (Path.resolve column.source (.object r)) value := by
  obtain ⟨path, rfl, _, hc⟩ := eq_compare_of_lookUp? h
  have hlower := ResourceType.lower_source_of_lookup hc
  have hpath : Path.IsName path := .of_lower_eq hlower.symm column.isName_lower_source
  rw [Filter.holds, Path.resolve_congr hpath column.isName_source hlower.symm]

/-- The plan for a text that is not empty is the plan for the filter that it writes. -/
theorem ofText_eq_ok {κ : Type} {columns : List (String × κ)} {text : String} (ht : text ≠ "")
    {plan : Plan κ} (h : ofText columns (some text) = .ok plan) :
    ∃ f, Filter.parse text = .ok f ∧ plan = ofFilter columns f := by
  simp only [ofText, if_neg ht] at h
  cases hf : Filter.parse text with
  | error refusal => rw [hf] at h; cases h
  | ok f =>
      rw [hf] at h
      exact ⟨f, rfl, (Except.ok.inj h).symm⟩

/-- A text that is looked up writes a filter that is. -/
theorem lookUp?_of_ofText {κ : Type} {columns : List (String × κ)} {text : String} {column : κ}
    {value : Scalar} (h : ofText columns (some text) = .ok (.lookUp column value)) :
    ∃ f, Filter.parse text = .ok f ∧ lookUp? columns f = some (column, value) := by
  by_cases ht : text = ""
  · simp [ofText, ht] at h
  · obtain ⟨f, hf, hplan⟩ := ofText_eq_ok ht h
    refine ⟨f, hf, ?_⟩
    unfold ofFilter at hplan
    split at hplan
    · rename_i hl
      simp only [Plan.lookUp.injEq] at hplan
      rw [hl, hplan.1, hplan.2]
    · cases hplan

end Plan

/-! ### The plain store -/

namespace Memory

/-- Whether the attribute of a column is an array with an item that equals a scalar. -/
def holdsInArray (r : Object) (column : Column) (value : Scalar) : Bool :=
  match Path.resolve column.source (.object r) with
  | .array items => items.any (Operator.equal.test · value)
  | _ => false

/-- The store compares as a filter does, but finds nothing in arrays. -/
theorem columnEquals_eq (r : Object) (column : Column) (value : Scalar) :
    columnEquals r column value =
      (Operator.equal.testAny (Path.resolve column.source (.object r)) value &&
        !holdsInArray r column value) := by
  unfold columnEquals holdsInArray
  cases Path.resolve column.source (.object r) with
  | scalar s => simp [Operator.testAny]
  | object members => simp [Operator.testAny]
  | array items => simp [Operator.testAny, Operator.test, Json.equals]

/-- What is held in an array satisfies the filter all the same. -/
theorem testAny_of_holdsInArray {r : Object} {column : Column} {value : Scalar}
    (h : holdsInArray r column value = true) :
    Operator.equal.testAny (Path.resolve column.source (.object r)) value = true := by
  unfold holdsInArray at h
  split at h
  · rename_i items hr
    rw [hr]
    exact h
  · cases h

theorem fits_singleton (r : Object) (column : Column) (value : Scalar) :
    fits [(column, value)] r = columnEquals r column value := by
  rw [fits, List.all_cons, List.all_nil, Bool.and_true]

/-- The equalities asked of columns, by the names of the columns. -/
def named (predicate : List (Column × Scalar)) : List (String × Json) :=
  predicate.map fun (column, value) => (column.name, .scalar value)

theorem fitsNamed_named (predicate : List (Column × Scalar)) (r : Object) :
    fitsNamed (named predicate) r = .ok (fits predicate r) := by
  induction predicate with
  | nil => rfl
  | cons entry predicate ih =>
      have hcons : named (entry :: predicate) =
          (entry.1.name, .scalar entry.2) :: named predicate := rfl
      rw [hcons]
      simp only [fitsNamed, Column.ofName?_name, columnSame, ih]
      by_cases he : columnEquals r entry.1 entry.2 = true
      · rw [if_pos he]
        simp only [fits, List.all_cons, he, Bool.true_and]
      · rw [if_neg he]
        simp only [fits, List.all_cons, eq_false_of_ne_true he, Bool.false_and]

/-- Columns asked for by name are found as columns are. -/
theorem filterNamed_named (predicate : List (Column × Scalar)) (rs : List Object) :
    filterNamed (named predicate) rs = .ok (rs.filter (fits predicate)) := by
  induction rs with
  | nil => rfl
  | cons r rs ih =>
      simp only [filterNamed, fitsNamed_named, ih, List.filter_cons]
      rfl

/-- A plain store finds, among the resources of a scope, exactly those that satisfy a filter that
is looked up and do not hold the scalar in an array; what it holds in an array satisfies the
filter. -/
theorem find_lookUp_iff (m : Memory) (scope : Scope) {text : String} {column : Column}
    {value : Scalar}
    (h : Plan.ofText scope.type.columns (some text) = .ok (.lookUp column value)) :
    ∃ f found, Filter.parse text = .ok f ∧
      Store.find m scope [(column.name, .scalar value)] = .ok found ∧
      ∀ r ∈ m.resources scope,
        (r ∈ found ↔ f.holds (.object r) = true ∧ holdsInArray r column value = false) ∧
        (holdsInArray r column value = true → f.holds (.object r) = true) := by
  obtain ⟨f, hf, hl⟩ := Plan.lookUp?_of_ofText h
  refine ⟨f, _, hf, filterNamed_named [(column, value)] (m.resources scope), fun r hr => ?_⟩
  rw [Plan.holds_of_lookUp? hl r]
  refine ⟨?_, testAny_of_holdsInArray⟩
  rw [List.mem_filter, fits_singleton, columnEquals_eq, Bool.and_eq_true, Bool.not_eq_true']
  exact and_iff_right hr

/-- A store with one user name as a text, in other letters, and one in an array. -/
theorem find_lookUp_iff_two_users :
    Plan.ofText ResourceType.user.columns (some "userName eq \"bob\"") =
        .ok (.lookUp .userName (.text "bob")) ∧
      ∃ f found, Filter.parse "userName eq \"bob\"" = .ok f ∧
        Store.find (⟨[(⟨"e", .user⟩, [("userName", .text "BOB")]),
          (⟨"e", .user⟩, [("userName", .array [.text "bob"])])]⟩ : Memory) ⟨"e", .user⟩
          [("user_name", .text "bob")] = .ok found ∧
        ([("userName", .text "BOB")] ∈ found ↔
          f.holds (.object [("userName", .text "BOB")]) = true ∧
          holdsInArray [("userName", .text "BOB")] .userName (.text "bob") = false) := by
  have hparse : Filter.parse "userName eq \"bob\"" =
      .ok (.compare "userName" .equal (.text "bob")) := by decide +kernel
  have hplan : Plan.ofText ResourceType.user.columns (some "userName eq \"bob\"") =
      .ok (.lookUp .userName (.text "bob")) := by
    simp only [Plan.ofText, hparse]
    rfl
  obtain ⟨f, found, hf, hfound, hall⟩ := find_lookUp_iff
    ⟨[(⟨"e", .user⟩, [("userName", .text "BOB")]),
      (⟨"e", .user⟩, [("userName", .array [.text "bob"])])]⟩ ⟨"e", .user⟩ hplan
  exact ⟨hplan, f, found, hf, hfound, (hall _ (by simp [resources])).1⟩

/-- A user name in an array satisfies the filter, and the store does not find it. -/
theorem find_misses_array :
    ∃ f found, Plan.ofText ResourceType.user.columns (some "userName eq \"bob\"") =
        .ok (.lookUp .userName (.text "bob")) ∧
      Filter.parse "userName eq \"bob\"" = .ok f ∧
      Store.find (⟨[(⟨"e", .user⟩, [("userName", .array [.text "bob"])])]⟩ : Memory)
        ⟨"e", .user⟩ [("user_name", .text "bob")] = .ok found ∧
      ¬ ([("userName", .array [.text "bob"])] ∈ found ↔
        f.holds (.object [("userName", .array [.text "bob"])]) = true) := by
  have hparse : Filter.parse "userName eq \"bob\"" =
      .ok (.compare "userName" .equal (.text "bob")) := by decide +kernel
  refine ⟨.compare "userName" .equal (.text "bob"), [], ?_, hparse, rfl, ?_⟩
  · simp only [Plan.ofText, hparse]
    rfl
  · have hholds : Filter.holds (.compare "userName" .equal (.text "bob"))
        (.object [("userName", .array [.text "bob"])]) = true := by decide +kernel
    simp [hholds]

end Memory
end ScimQuery
