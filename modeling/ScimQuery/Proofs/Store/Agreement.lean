import Mathlib.Control.Monad.Basic
import ScimQuery.Proofs.Store.LookUp
import ScimQuery.Store.Table

/-! # Two stores with the same resources

An indexed store and a plain one to which the same resources are added.  Each row is made of one
resource and has passed its checks (`Table.Mirrors`); one more resource keeps it so
(`Table.Mirrors.add`), and so do many (`Table.Mirrors.addAll`).

A look-up then compares a lower-case form that was kept when the resource was added, or the
attribute itself; these agree on texts (`Memory.columnEquals_text`).  So both stores fetch the same
resources, unless something that is asked for is longer than the cells of the indexed store are:
it refuses that, and the plain store finds nothing (`Table.Mirrors.fetch_eq`,
`Table.Mirrors.fetch_tooLong`). -/

namespace ScimQuery

/-! ### Additions -/

/-- The store after resources are added, one after another, unless it refuses one. -/
def Store.addAll {σ : Type} [Store σ] (s : σ) : List (Scope × Object) → Except AddFault σ
  | [] => .ok s
  | (scope, r) :: rest =>
    match Store.add s scope r with
    | .ok (_, s') => addAll s' rest
    | .error fault => .error fault

theorem Store.addAll_cons {σ : Type} [Store σ] {s s' : σ} {scope : Scope} {r : Object}
    {receipt : Store.Receipt σ} (h : Store.add s scope r = .ok (receipt, s'))
    (rest : List (Scope × Object)) : Store.addAll s ((scope, r) :: rest) = Store.addAll s' rest := by
  rw [Store.addAll, h]

/-- A plain store takes every resource. -/
theorem Memory.addAll_eq (m : Memory) (added : List (Scope × Object)) :
    Store.addAll m added = .ok ⟨m.entries ++ added⟩ := by
  induction added generalizing m with
  | nil => rw [Store.addAll, List.append_nil]
  | cons entry added ih =>
      obtain ⟨scope, r⟩ := entry
      have hadd : Store.add m scope r = .ok (r, m.add scope r) := rfl
      rw [Store.addAll_cons hadd, ih, Memory.add, List.append_assoc]
      rfl

/-! ### Checked rows -/

namespace Row

/-- Whether no text of a row that is looked for is too long. -/
structure IsShort (row : Row) : Prop where
  endpoint : row.scope.endpoint.length ≤ TooLong.maxLength
  folded : ∀ (c : Column) (s : String), (row.index c).folded = some s →
    s.length ≤ TooLong.maxLength

theorem forM_eq_ok {ε α : Type} {check : α → Except ε Unit} {as : List α}
    (h : as.forM check = .ok ()) : ∀ a ∈ as, check a = .ok () := by
  induction as with
  | nil => simp
  | cons a as ih =>
      rw [List.forM_eq_forM, List.forM_cons] at h
      cases ha : check a with
      | error e => rw [ha] at h; cases h
      | ok u =>
          rw [ha] at h
          exact List.forall_mem_cons.mpr ⟨ha, ih h⟩

theorem length_of_checkLength (cell : Cell) {s : String}
    (h : checkLength (cell, some s) = .ok ()) : s.length ≤ TooLong.maxLength := by
  by_contra hlong
  rw [checkLength, TooLong.check, if_neg hlong] at h
  cases h

/-- A row that passes its checks has an identifier, which is a text, and holds no text that is too
long. -/
theorem of_check {row : Row} (h : row.check = .ok ()) :
    (∃ form, row.scimId.folded = some form) ∧
      ∀ cell s, (cell, some s) ∈ row.cells → s.length ≤ TooLong.maxLength := by
  unfold check at h
  cases hp : checkPresent (.column .scimId) row.scimId.text with
  | error e => rw [hp] at h; cases h
  | ok u =>
      rw [hp] at h
      cases hf : row.scimId.folded with
      | none => rw [hf] at h; cases h
      | some form =>
          rw [hf] at h
          have hcells : row.cells.forM checkLength = .ok () := h
          exact ⟨⟨form, rfl⟩, fun cell s hs => length_of_checkLength cell (forM_eq_ok hcells _ hs)⟩

theorem mem_cells_folded {row : Row} {c : Column} {s : String}
    (h : (row.index c).folded = some s) : (.folded c, some s) ∈ row.cells := by
  have hc : c ∈ Column.all := by cases c <;> decide
  rw [← h, cells]
  exact List.mem_append_right _ (List.mem_map.mpr ⟨c, hc, rfl⟩)

theorem mem_cells_endpoint (row : Row) : (.endpoint, some row.scope.endpoint) ∈ row.cells := by
  simp [cells]

theorem isShort_of_check {row : Row} (h : row.check = .ok ()) : row.IsShort :=
  ⟨(of_check h).2 _ _ row.mem_cells_endpoint, fun _ _ hs => (of_check h).2 _ _ (mem_cells_folded hs)⟩

end Row

/-! ### Rows of a plain store's resources -/

namespace Table

/-- `t.Mirrors m`: an indexed store has one row for each resource of a plain store, in their order,
and every row has passed its checks. -/
structure Mirrors (t : Table) (m : Memory) : Prop where
  rows : t.rows = m.entries.map fun (scope, r) => Row.make scope r
  short : ∀ row ∈ t.rows, row.IsShort

/-- What an indexed store adds is a row that has passed its checks, with a new identifier. -/
theorem add_eq_ok_iff {t t' : Table} {scope : Scope} {r : Object} {row : Row} :
    t.add scope r = .ok (row, t') ↔
      row = Row.make scope r ∧ row.check = .ok () ∧ t.rows.any row.sameKey = false ∧
        t' = ⟨t.rows ++ [row]⟩ := by
  unfold add
  cases hc : (Row.make scope r).check with
  | error fault =>
      simp only [hc, bind, Except.bind]
      constructor
      · intro h
        cases h
      · rintro ⟨rfl, hcheck, -, -⟩
        rw [hc] at hcheck
        cases hcheck
  | ok u =>
      simp only [hc, bind, Except.bind]
      cases hk : t.rows.any (Row.make scope r).sameKey with
      | true =>
          constructor
          · intro h
            cases h
          · rintro ⟨rfl, -, hnew, -⟩
            rw [hk] at hnew
            cases hnew
      | false =>
          constructor
          · intro h
            obtain ⟨rfl, rfl⟩ := Prod.mk.inj (Except.ok.inj h)
            exact ⟨rfl, hc, hk, rfl⟩
          · rintro ⟨rfl, -, -, rfl⟩
            rfl

theorem Mirrors.empty : Mirrors ⟨[]⟩ ⟨[]⟩ := ⟨rfl, by simp⟩

/-- One more resource keeps two stores alike. -/
theorem Mirrors.add {t t' : Table} {m : Memory} (h : t.Mirrors m) {scope : Scope} {r : Object}
    {row : Row} (ha : t.add scope r = .ok (row, t')) : t'.Mirrors (m.add scope r) := by
  obtain ⟨rfl, hcheck, -, rfl⟩ := add_eq_ok_iff.mp ha
  refine ⟨?_, fun row hrow => ?_⟩
  · rw [Memory.add, List.map_append, ← h.rows]
    rfl
  · rcases List.mem_append.mp hrow with hrow | hrow
    · exact h.short row hrow
    · rw [List.mem_singleton.mp hrow]
      exact Row.isShort_of_check hcheck

/-- Many resources keep two stores alike.  By induction on the resources. -/
theorem Mirrors.addAll {t t' : Table} {m : Memory} (h : t.Mirrors m)
    {added : List (Scope × Object)} (ha : Store.addAll t added = .ok t') :
    t'.Mirrors ⟨m.entries ++ added⟩ := by
  induction added generalizing t m with
  | nil =>
      rw [Store.addAll, Except.ok.injEq] at ha
      rw [List.append_nil, ← ha]
      exact h
  | cons entry added ih =>
      obtain ⟨scope, r⟩ := entry
      rw [Store.addAll] at ha
      cases hstep : Store.add t scope r with
      | error fault => rw [hstep] at ha; cases ha
      | ok result =>
          rw [hstep] at ha
          have := ih (h.add hstep) ha
          rwa [Memory.add, List.append_assoc] at this

end Table

/-! ### Texts in columns -/

/-- Whether a value is a number or a truth value. -/
def Json.isTyped : Json → Bool
  | .scalar (.number _) => true
  | .scalar (.bool _) => true
  | _ => false

/-- Whether no column's attribute of a resource is a number or a truth value. -/
def Object.ColumnsUntyped (r : Object) : Prop :=
  ∀ c : Column, (Path.resolve c.source (.object r)).isTyped = false

namespace Memory

theorem columnEquals_of_fits {predicate : List (Column × Scalar)} {r : Object}
    (h : fits predicate r = true) {c : Column} {v : Scalar} (hmem : (c, v) ∈ predicate) :
    columnEquals r c v = true := List.all_eq_true.mp h (c, v) hmem

/-- An attribute equals a text when the lower-case form that a row holds for it does. -/
theorem columnEquals_text (r : Object) (c : Column) (s : String) :
    columnEquals r c (.text s) = ((Row.indexOf r c).folded == some (Text.lower s)) := by
  unfold columnEquals Row.indexOf Index.ofJson
  cases Path.resolve c.source (.object r) with
  | array items => rfl
  | object o => rfl
  | scalar v =>
      cases v with
      | text u =>
          simp only [Operator.test, Json.equals, Json.text?, Option.map_some, Text.sameText]
          rw [Bool.eq_iff_iff, beq_iff_eq, beq_iff_eq, Option.some.injEq]
      | _ => rfl

/-- No other scalar than a text or `null` equals an attribute that is no number or truth value. -/
theorem columnEquals_of_untyped {r : Object} (hr : r.ColumnsUntyped) (c : Column) {v : Scalar}
    (hnull : v ≠ .null) (htext : ∀ s, v ≠ .text s) : columnEquals r c v = false := by
  have hc := hr c
  unfold columnEquals
  cases hv : Path.resolve c.source (.object r) with
  | array items => cases v <;> rfl
  | object o => cases v <;> rfl
  | scalar u =>
      rw [hv] at hc
      cases u with
      | number n => cases hc
      | bool b => cases hc
      | null => cases v with
        | null => exact absurd rfl hnull
        | _ => rfl
      | text u => cases v with
        | text s => exact absurd rfl (htext s)
        | _ => rfl

end Memory

namespace Table

theorem texts?_cons {κ : Type} (key : κ) (v : Json) (rest : List (κ × Json)) :
    texts? ((key, v) :: rest) =
      v.text?.bind fun s => (texts? rest).map fun texts => (key, s) :: texts := by
  rw [texts?, List.mapM_cons, ← texts?]
  dsimp only
  cases v.text? with
  | none => rfl
  | some s =>
      cases texts? rest with
      | none => rfl
      | some texts => rfl

/-- Equalities are read as texts, unless one is with a scalar that is no text. -/
theorem texts?_scalars (predicate : List (Column × Scalar)) :
    (∃ texts, predicate = texts.map (fun (c, s) => (c, .text s)) ∧
      texts? (predicate.map fun (c, v) => (c, .scalar v)) = some texts) ∨
    (∃ entry ∈ predicate, ∀ s, entry.2 ≠ .text s) ∧
      texts? (predicate.map fun (c, v) => (c, .scalar v)) = none := by
  induction predicate with
  | nil => exact .inl ⟨[], rfl, rfl⟩
  | cons entry predicate ih =>
      obtain ⟨c, v⟩ := entry
      rw [List.map_cons, texts?_cons]
      by_cases hv : ∃ s, v = .text s
      · obtain ⟨s, rfl⟩ := hv
        rcases ih with ⟨texts, hp, ht⟩ | ⟨⟨entry, hmem, hentry⟩, ht⟩
        · refine .inl ⟨(c, s) :: texts, ?_, ?_⟩
          · rw [List.map_cons, ← hp]
          · rw [ht]
            rfl
        · refine .inr ⟨⟨entry, List.mem_cons_of_mem _ hmem, hentry⟩, ?_⟩
          rw [ht]
          rfl
      · have hnone : (Json.scalar v).text? = none := by
          cases v with
          | text s => exact absurd ⟨s, rfl⟩ hv
          | _ => rfl
        refine .inr ⟨⟨(c, v), by simp, fun s hs => hv ⟨s, hs⟩⟩, ?_⟩
        rw [hnone]
        rfl

/-! ### What is asked of an indexed store -/

/-- The texts that an indexed store is asked for, cell by cell: the endpoint, and a lower-case form
for each column. -/
def askedTexts (scope : Scope) (texts : List (Column × String)) : List (Cell × String) :=
  (.endpoint, scope.endpoint) :: texts.map fun (c, s) => (.folded c, Text.lower s)

/-- The first text that is too long of those that an indexed store is asked for, if it is asked for
texts only. -/
def tooLong? (scope : Scope) (predicate : List (Column × Scalar)) : Option TooLong :=
  match texts? (predicate.map fun (c, v) => (c, .scalar v)) with
  | none => none
  | some texts =>
    ((askedTexts scope texts).find? fun entry => TooLong.maxLength < entry.2.length).map
      fun (cell, s) => ⟨cell, s⟩

theorem check_eq (cell : Cell) (s : String) :
    TooLong.check cell s =
      if TooLong.maxLength < s.length then .error ⟨cell, s⟩ else .ok () := by
  rw [TooLong.check]
  by_cases h : s.length ≤ TooLong.maxLength
  · rw [if_pos h, if_neg (by omega)]
  · rw [if_neg h, if_pos (by omega)]

/-- The lower-case forms that columns are asked for, or the first that is too long. -/
theorem mapM_form (texts : List (Column × String)) :
    (texts.mapM fun (c, s) => form c s) =
      match (texts.map fun (c, s) => ((.folded c, Text.lower s) : Cell × String)).find?
        fun entry => TooLong.maxLength < entry.2.length with
      | some (cell, s) => .error ⟨cell, s⟩
      | none => .ok (texts.map fun (c, s) => (c, Text.lower s)) := by
  induction texts with
  | nil => rfl
  | cons entry texts ih =>
      obtain ⟨c, s⟩ := entry
      rw [List.mapM_cons, ih, List.map_cons, List.find?_cons]
      simp only [form, check_eq]
      by_cases h : TooLong.maxLength < (Text.lower s).length
      · simp [h, bind, Except.bind]
      · simp only [h, if_false, decide_false, bind, Except.bind, pure, Except.pure]
        cases (texts.map fun (c, s) => ((.folded c, Text.lower s) : Cell × String)).find?
          fun entry => TooLong.maxLength < entry.2.length with
        | none => rfl
        | some entry => rfl

/-- What an indexed store answers when it is asked for texts. -/
theorem fetch_texts (t : Table) (scope : Scope) {predicate : List (Column × Scalar)}
    {texts : List (Column × String)}
    (h : texts? (predicate.map fun (c, v) => (c, .scalar v)) = some texts) :
    t.fetch scope predicate = match tooLong? scope predicate with
      | some long => .error long
      | none => .ok (t.select scope (texts.map fun (c, s) => (c, Text.lower s))) := by
  rw [fetch, h, tooLong?, h]
  dsimp only
  rw [mapM_form, check_eq, askedTexts, List.find?_cons]
  by_cases he : TooLong.maxLength < scope.endpoint.length
  · simp [he, bind, Except.bind]
  · simp only [he, if_false, decide_false, bind, Except.bind]
    cases (texts.map fun (c, s) => ((.folded c, Text.lower s) : Cell × String)).find?
      fun entry => TooLong.maxLength < entry.2.length with
    | none => rfl
    | some entry => rfl

/-! ### What two stores fetch -/

section Mirrors

variable {t : Table} {m : Memory} (h : t.Mirrors m)
include h

theorem Mirrors.mem_rows {scope : Scope} {r : Object} (hr : r ∈ m.resources scope) :
    Row.make scope r ∈ t.rows := by
  rw [Memory.resources, List.mem_map] at hr
  obtain ⟨⟨scope', r'⟩, hmem, rfl⟩ := hr
  rw [List.mem_filter, beq_iff_eq] at hmem
  obtain ⟨hmem, rfl⟩ := hmem
  rw [h.rows]
  exact List.mem_map.mpr ⟨_, hmem, rfl⟩

omit h in
theorem index_make (scope : Scope) (r : Object) (c : Column) :
    (Row.make scope r).index c = Row.indexOf r c := by
  cases c <;> rfl

omit h in
/-- A row fits lower-case forms when its resource fits the texts. -/
theorem fits_make (scope : Scope) (r : Object) (texts : List (Column × String)) :
    Row.fits (texts.map fun (c, s) => (c, Text.lower s)) (Row.make scope r) =
      Memory.fits (texts.map fun (c, s) => (c, .text s)) r := by
  rw [Row.fits, Memory.fits, List.all_map, List.all_map]
  congr 1
  funext entry
  simp only [Function.comp_apply, index_make, Memory.columnEquals_text]

/-- The rows that an indexed store selects are those of the resources that a plain one finds. -/
theorem Mirrors.select_eq (scope : Scope) (texts : List (Column × String)) :
    t.select scope (texts.map fun (c, s) => (c, Text.lower s)) =
      (m.resources scope).filter (Memory.fits (texts.map fun (c, s) => (c, .text s))) := by
  rw [select, inScope, h.rows, List.filter_map, List.filter_map, List.map_map, Memory.resources,
    List.filter_map]
  refine congrArg (List.map _) (List.filter_congr fun entry _ => ?_)
  exact fits_make entry.1 entry.2 texts

/-- A plain store finds nothing for a text that is too long for an indexed one. -/
theorem Mirrors.filter_tooLong {scope : Scope} {predicate : List (Column × Scalar)}
    {long : TooLong} (hlong : tooLong? scope predicate = some long) :
    (m.resources scope).filter (Memory.fits predicate) = [] := by
  rw [List.filter_eq_nil_iff]
  intro r hr hfits
  have hshort := h.short _ (h.mem_rows hr)
  rcases texts?_scalars predicate with ⟨texts, rfl, ht⟩ | ⟨-, ht⟩
  · rw [tooLong?, ht] at hlong
    obtain ⟨⟨cell, s⟩, hfind, -⟩ := Option.map_eq_some_iff.mp hlong
    have hs : TooLong.maxLength < s.length := by simpa using List.find?_some hfind
    rcases List.mem_cons.mp (List.mem_of_find?_eq_some hfind) with he | hmem
    · obtain ⟨-, rfl⟩ := Prod.mk.inj he
      exact absurd hshort.endpoint (Nat.not_le.mpr hs)
    · obtain ⟨⟨c, u⟩, hu, he⟩ := List.mem_map.mp hmem
      obtain ⟨-, rfl⟩ := Prod.mk.inj he
      have hequals := Memory.columnEquals_of_fits hfits (List.mem_map_of_mem hu)
      rw [Memory.columnEquals_text, beq_iff_eq, ← index_make scope] at hequals
      exact absurd (hshort.folded c _ hequals) (Nat.not_le.mpr hs)
  · rw [tooLong?, ht] at hlong
    cases hlong

/-- Two stores with the same resources fetch the same for equalities with scalars that are not
`null`, unless a text that is asked for is too long. -/
theorem Mirrors.fetch_eq {scope : Scope} {predicate : List (Column × Scalar)}
    (huntyped : ∀ r ∈ m.resources scope, r.ColumnsUntyped)
    (hnull : ∀ entry ∈ predicate, entry.2 ≠ .null) (hlong : tooLong? scope predicate = none) :
    Store.fetch t scope predicate = Store.fetch m scope predicate := by
  have hm : Store.fetch m scope predicate =
      .ok ((m.resources scope).filter (Memory.fits predicate)) := rfl
  have ht : Store.fetch t scope predicate = t.fetch scope predicate := rfl
  rw [hm, ht]
  rcases texts?_scalars predicate with ⟨texts, rfl, htexts⟩ | ⟨⟨entry, hmem, hentry⟩, htexts⟩
  · rw [fetch_texts t scope htexts, hlong, ← h.select_eq]
  · have hnil : (m.resources scope).filter (Memory.fits predicate) = [] := by
      rw [List.filter_eq_nil_iff]
      intro r hr hfits
      have hequals := Memory.columnEquals_of_fits hfits hmem
      rw [Memory.columnEquals_of_untyped (huntyped r hr) _ (hnull entry hmem) hentry] at hequals
      cases hequals
    rw [hnil, fetch, htexts]
    rfl

/-- What is too long is refused by an indexed store, and not found in a plain one. -/
theorem Mirrors.fetch_tooLong {scope : Scope} {predicate : List (Column × Scalar)}
    {long : TooLong} (hlong : tooLong? scope predicate = some long) :
    Store.fetch t scope predicate = .error long ∧ Store.fetch m scope predicate = .ok [] := by
  constructor
  · rcases texts?_scalars predicate with ⟨texts, -, htexts⟩ | ⟨-, htexts⟩
    · have ht : Store.fetch t scope predicate = t.fetch scope predicate := rfl
      rw [ht, fetch_texts t scope htexts, hlong]
    · rw [tooLong?, htexts] at hlong
      cases hlong
  · exact congrArg Except.ok (h.filter_tooLong hlong)

end Mirrors

end Table
end ScimQuery
