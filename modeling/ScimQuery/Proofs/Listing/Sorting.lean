import ScimQuery.Proofs.Filter.Comparison
import ScimQuery.Sorting

/-! # Sorted resources

A resource is sorted by the scalar at a path, or by the first item of an array there, and its rank is
the rank of that scalar.  `IsSorting` says what a sorting of resources is, by ranks alone: the same
resources, in the order of their ranks, those of one rank as they stood, and those that have nothing
to sort by behind all others, as they stood.

A double that is no number has no rank, and the keys of two numbers one of which is such a double are in
no order.  Where there are none of these, the keys that resources are sorted with are in the order of the
ranks (`SortKey.le_iff`), so sorting by them gives such a list (`isSorting_sortByKey`).  There is no other
(`IsSorting.unique`), as two lists in the order of their ranks are equal when the resources of each rank
are (`eq_of_filter_eq`).  A sorted list is its own sorting, and ascending order is the order of the tests
that compare (`sorting_unique`). -/

namespace ScimQuery

/-! ### Lists in the order of ranks -/

section Lists

variable {α κ : Type} [DecidableEq κ]

/-- Two lists in order are equal if they have the same elements of each rank, in the same sequence.
By induction on both: the first elements have one rank, as each stands in the other list too. -/
theorem eq_of_filter_eq {rank : α → κ} {le : κ → κ → Prop}
    (antisymm : ∀ {k l}, le k l → le l k → k = l) {xs ys : List α}
    (hxs : xs.Pairwise fun x y => le (rank x) (rank y))
    (hys : ys.Pairwise fun x y => le (rank x) (rank y))
    (h : ∀ k, xs.filter (rank · = k) = ys.filter (rank · = k)) : xs = ys := by
  induction xs generalizing ys with
  | nil =>
      cases ys with
      | nil => rfl
      | cons y ys => simpa using h (rank y)
  | cons x xs ih =>
      cases ys with
      | nil => simpa using h (rank x)
      | cons y ys =>
          have hmem : ∀ {z : α}, z ∈ x :: xs ↔ z ∈ y :: ys := by
            intro z
            have := congrArg (z ∈ ·) (h (rank z))
            simpa using this
          have hrank : rank x = rank y := by
            rcases List.mem_cons.mp (hmem.mp List.mem_cons_self) with rfl | hx
            · rfl
            · rcases List.mem_cons.mp (hmem.mpr List.mem_cons_self) with rfl | hy
              · rfl
              · exact antisymm (List.rel_of_pairwise_cons hxs hy) (List.rel_of_pairwise_cons hys hx)
          have hfirst := h (rank x)
          rw [List.filter_cons_of_pos (by simp), List.filter_cons_of_pos (by simp [hrank])] at hfirst
          obtain rfl : x = y := (List.cons.inj hfirst).1
          refine congrArg _ (ih hxs.of_cons hys.of_cons fun k => ?_)
          have hk := h k
          by_cases hx : rank x = k
          · rw [List.filter_cons_of_pos (by simpa using hx),
              List.filter_cons_of_pos (by simpa using hx)] at hk
            exact (List.cons.inj hk).2
          · rwa [List.filter_cons_of_neg (by simpa using hx),
              List.filter_cons_of_neg (by simpa using hx)] at hk

omit [DecidableEq κ] in
/-- Sorting compares the elements of the list only. -/
theorem mergeSort_congr {le le' : α → α → Bool} {xs : List α}
    (h : ∀ a ∈ xs, ∀ b ∈ xs, le a b = le' a b) : xs.mergeSort le = xs.mergeSort le' := by
  have hmap := List.map_mergeSort (f := id) h
  rwa [List.map_id, List.map_id] at hmap

omit [DecidableEq κ] in
/-- Sorting leaves elements that may stand in any order as they stood. -/
theorem filter_mergeSort {le : α → α → Bool} (trans : ∀ a b c, le a b → le b c → le a c)
    (total : ∀ a b, (le a b || le b a) = true) {p : α → Bool}
    (hp : ∀ a b, p a = true → p b = true → le a b = true) (xs : List α) :
    (xs.mergeSort le).filter p = xs.filter p := by
  have halike : (xs.filter p).Pairwise fun a b => le a b = true := by
    refine List.pairwise_of_forall_mem_list fun a ha b hb => ?_
    exact hp a b (List.mem_filter.mp ha).2 (List.mem_filter.mp hb).2
  have hsublist : (xs.filter p).Sublist (xs.mergeSort le) :=
    List.sublist_mergeSort trans total halike List.filter_sublist
  have hfilter := hsublist.filter p
  simp only [List.filter_filter, Bool.and_self] at hfilter
  have hlength := ((List.mergeSort_perm xs le).filter p).length_eq
  exact (hfilter.eq_of_length hlength.symm).symm

end Lists

/-! ### Ranks of resources -/

namespace Json

/-- What of a value is sorted by: of an array its first item, if it has one. -/
def leading : Json → Json
  | .array [] => .null
  | .array (item :: _) => item
  | v => v

/-- Whether there is nothing in a value to sort by. -/
def isMissing : Json → Bool
  | .scalar .null => true
  | .scalar _ => false
  | _ => true

/-- Whether a value is a double that is no number. -/
def isNaN : Json → Bool
  | .scalar (.number n) => n.isNaN
  | _ => false

/-- The rank of a value that is a scalar. -/
def rank? : Json → Option Rank
  | .scalar s => s.rank?
  | _ => none

theorem isNone_rank? {v : Json} (h : v.isNaN = false) : v.rank?.isNone = v.isMissing := by
  cases v with
  | array items => rfl
  | object members => rfl
  | scalar s =>
      cases s with
      | number n =>
          have hvalue : n.value? ≠ none := mt n.value?_eq_none_iff.mp (by simpa [isNaN] using h)
          obtain ⟨x, hx⟩ := Option.ne_none_iff_exists'.mp hvalue
          rw [rank?, Scalar.rank?, hx]
          rfl
      | _ => rfl

end Json

namespace Object

/-- What a resource is sorted by. -/
def sortValue (path : String) (r : Object) : Json := (Path.resolve path (.object r)).leading

/-- The rank of what a resource is sorted by. -/
def rank? (path : String) (r : Object) : Option Rank := (r.sortValue path).rank?

/-- The key that a resource is sorted with. -/
def sortKey (path : String) (r : Object) : SortKey := SortKey.ofResource path (.object r)

end Object

namespace SortOrder

/-- Whether a resource of one rank may stand before a resource of another.  What has no rank stands
behind all others, in either direction. -/
def mayPrecede (order : SortOrder) : Option Rank → Option Rank → Prop
  | _, none => True
  | none, some _ => False
  | some a, some b =>
    match order with
    | .ascending => a ≤ b
    | .descending => b ≤ a

instance (order : SortOrder) : (k l : Option Rank) → Decidable (order.mayPrecede k l)
  | _, none => isTrue trivial
  | none, some _ => isFalse id
  | some a, some b =>
    match order with
    | .ascending => inferInstanceAs (Decidable (a ≤ b))
    | .descending => inferInstanceAs (Decidable (b ≤ a))

theorem mayPrecede_antisymm {order : SortOrder} {k l : Option Rank} (h : order.mayPrecede k l)
    (h' : order.mayPrecede l k) : k = l := by
  cases k with
  | none =>
      cases l with
      | none => rfl
      | some b => exact h.elim
  | some a =>
      cases l with
      | none => exact h'.elim
      | some b =>
          cases order with
          | ascending => exact congrArg some (le_antisymm h h')
          | descending => exact congrArg some (le_antisymm h' h)

theorem mayPrecede_trans {order : SortOrder} {k l m : Option Rank} (h : order.mayPrecede k l)
    (h' : order.mayPrecede l m) : order.mayPrecede k m := by
  cases m with
  | none => trivial
  | some c =>
      cases l with
      | none => exact h'.elim
      | some b =>
          cases k with
          | none => exact h.elim
          | some a =>
              cases order with
              | ascending => exact le_trans (α := Rank) h h'
              | descending => exact le_trans (α := Rank) h' h

theorem mayPrecede_total (order : SortOrder) (k l : Option Rank) :
    order.mayPrecede k l ∨ order.mayPrecede l k := by
  cases k with
  | none => exact .inr trivial
  | some a =>
      cases l with
      | none => exact .inl trivial
      | some b =>
          cases order with
          | ascending => exact le_total a b
          | descending => exact le_total b a

end SortOrder

/-- `IsSorting path order rs xs`: the list `xs` is the resources `rs` sorted by what is at a path. -/
structure IsSorting (path : String) (order : SortOrder) (rs xs : List Object) : Prop where
  perm : xs.Perm rs
  ordered : xs.Pairwise fun r s => order.mayPrecede (r.rank? path) (s.rank? path)
  /-- The resources of each rank, and those without one, stand as they stood. -/
  stable : ∀ k, xs.filter (·.rank? path = k) = rs.filter (·.rank? path = k)

/-- There is one sorting at most. -/
theorem IsSorting.unique {path : String} {order : SortOrder} {rs xs ys : List Object}
    (hxs : IsSorting path order rs xs) (hys : IsSorting path order rs ys) : xs = ys :=
  eq_of_filter_eq SortOrder.mayPrecede_antisymm hxs.ordered hys.ordered
    fun k => (hxs.stable k).trans (hys.stable k).symm

/-- What is sorted is its own sorting. -/
theorem IsSorting.self {path : String} {order : SortOrder} {rs xs : List Object}
    (h : IsSorting path order rs xs) : IsSorting path order xs xs :=
  ⟨List.Perm.refl xs, h.ordered, fun _ => rfl⟩

/-! ### Keys -/

namespace SortKey

/-- The rank that a key stands for. -/
def rank? : SortKey → Option Rank
  | .number place => place.map fun p => .number p.value
  | .text lowered => some (.lowered lowered)
  | .missing => none

theorem rank?_ofScalar (s : Scalar) : (ofScalar s).rank? = s.rank? := by
  cases s with
  | null => rfl
  | text s => rfl
  | number n =>
      rw [ofScalar, Scalar.rank?, Number.value?_eq, rank?, Option.map_map]
      rfl
  | bool b =>
      -- a truth value lies at the place of the integer zero or one
      have hinteger : ∀ n : ℤ,
          (Place.units (n * (Double.unitsInOne : ℤ))).value = (((n : ℚ) : WithTop ℚ) : Extended) :=
        fun n => (Option.some.inj (Number.value?_eq (.integer n))).symm
      cases b with
      | true =>
          have hone := hinteger 1
          rw [one_mul, Int.cast_one] at hone
          exact congrArg (some ∘ Rank.number) hone
      | false =>
          have hzero := hinteger 0
          rw [zero_mul, Int.cast_zero] at hzero
          exact congrArg (some ∘ Rank.number) hzero

theorem rank?_ofValue (v : Json) : (ofValue v).rank? = v.leading.rank? := by
  cases v with
  | scalar s => exact rank?_ofScalar s
  | object members => rfl
  | array items =>
      cases items with
      | nil => rfl
      | cons item items =>
          cases item with
          | scalar s => exact rank?_ofScalar s
          | _ => rfl

theorem rank?_sortKey (path : String) (r : Object) : (r.sortKey path).rank? = r.rank? path :=
  rank?_ofValue _

theorem ofScalar_eq_missing_iff {s : Scalar} : ofScalar s = .missing ↔ s = .null := by
  cases s <;> simp [ofScalar]

/-- There is no key where there is nothing to sort by. -/
theorem ofValue_eq_missing_iff {v : Json} : ofValue v = .missing ↔ v.leading.isMissing = true := by
  have hscalar (s : Scalar) : ofScalar s = .missing ↔ (Json.scalar s).isMissing = true := by
    rw [ofScalar_eq_missing_iff]
    cases s <;> simp [Json.isMissing]
  cases v with
  | scalar s => exact hscalar s
  | object members => exact iff_of_true rfl rfl
  | array items =>
      cases items with
      | nil => exact iff_of_true rfl rfl
      | cons item items =>
          cases item with
          | scalar s => exact hscalar s
          | _ => exact iff_of_true rfl rfl

/-- Keys that stand for ranks are in their order. -/
theorem le_iff {x y : SortKey} {a b : Rank} (hx : x.rank? = some a) (hy : y.rank? = some b) :
    x.le y = true ↔ a ≤ b := by
  cases x with
  | missing => cases hx
  | number p? =>
      obtain ⟨p, rfl, rfl⟩ := Option.map_eq_some_iff.mp hx
      cases y with
      | missing => cases hy
      | text t =>
          obtain rfl := Option.some.inj hy
          exact iff_of_true rfl (Rank.number_lt_lowered _ t).le
      | number q? =>
          obtain ⟨q, rfl, rfl⟩ := Option.map_eq_some_iff.mp hy
          rw [le, Rank.number_le_iff, bne_iff_ne, Place.order_eq]
          exact compare_le_iff_le
  | text s =>
      obtain rfl := Option.some.inj hx
      cases y with
      | missing => cases hy
      | text t =>
          obtain rfl := Option.some.inj hy
          rw [Rank.lowered_le_iff]
          simp [le]
      | number q? =>
          obtain ⟨q, rfl, rfl⟩ := Option.map_eq_some_iff.mp hy
          exact iff_of_false (by simp [le]) (Rank.number_lt_lowered _ s).not_ge

end SortKey

/-- Keys that stand for ranks are in their order, in either direction. -/
theorem SortOrder.le_iff (order : SortOrder) {x y : SortKey} (hx : x.rank? ≠ none)
    (hy : y.rank? ≠ none) : order.le x y = true ↔ order.mayPrecede x.rank? y.rank? := by
  obtain ⟨a, ha⟩ := Option.ne_none_iff_exists'.mp hx
  obtain ⟨b, hb⟩ := Option.ne_none_iff_exists'.mp hy
  rw [ha, hb]
  cases order with
  | ascending => exact SortKey.le_iff ha hb
  | descending => exact SortKey.le_iff hb ha

/-! ### Sorting by keys -/

section Sorting

variable (path : String) (order : SortOrder) (rs : List Object)

/-- The resources that have something to be sorted by, sorted. -/
def present : List Object :=
  (rs.filter (·.sortKey path != .missing)).mergeSort fun r s =>
    order.le (r.sortKey path) (s.sortKey path)

variable {path order rs}

theorem sortKey_eq_missing_iff {r : Object} :
    r.sortKey path = .missing ↔ (r.sortValue path).isMissing = true :=
  SortKey.ofValue_eq_missing_iff

theorem isMissing_of_mem_present {r : Object} (h : r ∈ present path order rs) :
    (r.sortValue path).isMissing = false := by
  have hkey := (List.mem_filter.mp (List.mem_mergeSort.mp h)).2
  exact eq_false_of_ne_true (mt sortKey_eq_missing_iff.mpr (by simpa using hkey))

variable (path order rs)

/-- Those that have nothing to be sorted by are the end, as they stood. -/
theorem sortByKey_eq : sortByKey (Object.sortKey path) order rs =
    present path order rs ++ rs.filter fun r => (r.sortValue path).isMissing := by
  refine congrArg _ (List.filter_congr fun r _ => ?_)
  rw [Bool.eq_iff_iff, beq_iff_eq, sortKey_eq_missing_iff]

theorem sortByKey_perm : (sortByKey (Object.sortKey path) order rs).Perm rs := by
  refine ((List.mergeSort_perm _ _).append_right _).trans ?_
  simpa [bne] using List.filter_append_perm (·.sortKey path != .missing) rs

/-! ### Sorting by keys that stand for ranks -/

/-- Whether a resource may stand before another. -/
def rankLe (r s : Object) : Bool := order.mayPrecede (r.rank? path) (s.rank? path)

theorem rankLe_trans (r s t : Object) : rankLe path order r s = true → rankLe path order s t = true →
    rankLe path order r t = true := by
  simp only [rankLe, decide_eq_true_eq]
  exact SortOrder.mayPrecede_trans

theorem rankLe_total (r s : Object) : (rankLe path order r s || rankLe path order s r) = true := by
  simpa [rankLe] using order.mayPrecede_total (r.rank? path) (s.rank? path)

variable {path order rs} (h : ∀ r ∈ rs, (r.sortValue path).isNaN = false)
include h

/-- The resources without a rank are those that have nothing to sort by. -/
theorem rank?_eq_none_iff {r : Object} (hr : r ∈ rs) :
    r.rank? path = none ↔ (r.sortValue path).isMissing = true := by
  rw [← Json.isNone_rank? (h r hr), Option.isNone_iff_eq_none]
  rfl

/-- Those that have something to be sorted by are sorted by their ranks. -/
theorem present_eq : present path order rs =
    (rs.filter (·.sortKey path != .missing)).mergeSort (rankLe path order) := by
  have hranked {r : Object} (hr : r ∈ rs.filter (·.sortKey path != .missing)) :
      (r.sortKey path).rank? ≠ none := by
    obtain ⟨hmem, hkey⟩ := List.mem_filter.mp hr
    rw [SortKey.rank?_sortKey]
    exact mt (fun hnone => sortKey_eq_missing_iff.mpr ((rank?_eq_none_iff h hmem).mp hnone))
      (by simpa using hkey)
  refine mergeSort_congr fun r hr s hs => ?_
  rw [rankLe, Bool.eq_iff_iff, decide_eq_true_eq, order.le_iff (hranked hr) (hranked hs),
    SortKey.rank?_sortKey, SortKey.rank?_sortKey]

theorem present_ordered :
    (present path order rs).Pairwise fun r s => order.mayPrecede (r.rank? path) (s.rank? path) := by
  rw [present_eq h]
  exact (List.pairwise_mergeSort (rankLe_trans path order) (rankLe_total path order) _).imp
    of_decide_eq_true

/-- Those of one rank stand as they stood. -/
theorem present_stable (a : Rank) :
    (present path order rs).filter (·.rank? path = some a) = rs.filter (·.rank? path = some a) := by
  rw [present_eq h, filter_mergeSort (rankLe_trans path order) (rankLe_total path order),
    List.filter_filter]
  · refine List.filter_congr fun r hr => ?_
    have hkey : r.rank? path = some a → r.sortKey path ≠ .missing := by
      intro hrank hmissing
      rw [(rank?_eq_none_iff h hr).mpr (sortKey_eq_missing_iff.mp hmissing)] at hrank
      cases hrank
    rw [Bool.eq_iff_iff]
    simpa using hkey
  · intro r s hr hs
    rw [decide_eq_true_eq] at hr hs
    rw [rankLe, decide_eq_true_eq, hr, hs]
    exact (order.mayPrecede_total _ _).elim id id

/-- Sorting by keys sorts. -/
theorem isSorting_sortByKey :
    IsSorting path order rs (sortByKey (Object.sortKey path) order rs) := by
  refine ⟨sortByKey_perm path order rs, ?_, fun k => ?_⟩
  · -- whatever stands before a resource without a rank may do so
    have hlast (r : Object) {s : Object}
        (hs : s ∈ rs.filter fun r => (r.sortValue path).isMissing) :
        order.mayPrecede (r.rank? path) (s.rank? path) := by
      obtain ⟨hmem, hmissing⟩ := List.mem_filter.mp hs
      rw [(rank?_eq_none_iff h hmem).mpr hmissing]
      trivial
    rw [sortByKey_eq]
    exact List.pairwise_append.mpr ⟨present_ordered h,
      List.pairwise_of_forall_mem_list fun r _ s hs => hlast r hs, fun r _ s hs => hlast r hs⟩
  · rw [sortByKey_eq, List.filter_append]
    cases k with
    | none =>
        have hpresent : (present path order rs).filter (·.rank? path = none) = [] := by
          refine List.filter_eq_nil_iff.mpr fun r hr => ?_
          have hmem : r ∈ rs := List.mem_of_mem_filter (List.mem_mergeSort.mp hr)
          simp [rank?_eq_none_iff h hmem, isMissing_of_mem_present hr]
        rw [hpresent, List.nil_append, List.filter_filter]
        refine List.filter_congr fun r hr => ?_
        rw [Bool.eq_iff_iff]
        simp [rank?_eq_none_iff h hr]
    | some a =>
        have habsent : (rs.filter fun r => (r.sortValue path).isMissing).filter
            (·.rank? path = some a) = [] := by
          refine List.filter_eq_nil_iff.mpr fun r hr => ?_
          obtain ⟨hmem, hmissing⟩ := List.mem_filter.mp hr
          simp [(rank?_eq_none_iff h hmem).mpr hmissing]
        rw [habsent, List.append_nil, present_stable h]

/-- What is sorted stays what it is. -/
theorem sortByKey_idempotent :
    sortByKey (Object.sortKey path) order (sortByKey (Object.sortKey path) order rs) =
      sortByKey (Object.sortKey path) order rs := by
  have hsorted : ∀ r ∈ sortByKey (Object.sortKey path) order rs, (r.sortValue path).isNaN = false :=
    fun r hr => h r ((sortByKey_perm path order rs).mem_iff.mp hr)
  exact (isSorting_sortByKey hsorted).unique (isSorting_sortByKey h).self

end Sorting

/-! ### The sorting of a list of resources -/

section

variable {path : String} {order : SortOrder} {rs : List Object}

/-- Of two texts, or of two numbers, one is less than another exactly if its resource stands before
the resource of the other. -/
theorem less_iff_precedes {r s : Object} {v w : Scalar} (hr : r.sortValue path = .scalar v)
    (hs : s.sortValue path = .scalar w) (h : Scalar.AreOrdered [v, w]) :
    Operator.less.test (.scalar v) w = true ↔
      ¬ SortOrder.ascending.mayPrecede (s.rank? path) (r.rank? path) := by
  obtain ⟨a, ha⟩ := h.exists_rank (v := v) (by simp)
  obtain ⟨b, hb⟩ := h.exists_rank (v := w) (by simp)
  have hra : r.rank? path = some a := by rw [Object.rank?, hr, Json.rank?, ha]
  have hsb : s.rank? path = some b := by rw [Object.rank?, hs, Json.rank?, hb]
  rw [Scalar.less_iff h ha hb, hra, hsb]
  exact not_le.symm

/-- Sorting by keys gives the one sorting of the resources there is.  Those that have nothing to sort
by are its end, as they stood; sorted again it stays what it is.  Ranks put numbers before texts,
numbers in the order of their values and texts in that of their lower-case forms; and where two
resources are sorted by two texts or by two numbers, their ascending order is that of the tests. -/
theorem sorting_unique (h : ∀ r ∈ rs, (r.sortValue path).isNaN = false) :
    (∀ xs, IsSorting path order rs xs ↔ xs = sortByKey (Object.sortKey path) order rs) ∧
    (∃ present, sortByKey (Object.sortKey path) order rs =
        present ++ rs.filter (fun r => (r.sortValue path).isMissing) ∧
      ∀ r ∈ present, (r.sortValue path).isMissing = false) ∧
    sortByKey (Object.sortKey path) order (sortByKey (Object.sortKey path) order rs) =
      sortByKey (Object.sortKey path) order rs ∧
    (∀ (x y : Extended) (s t : String), Rank.number x < Rank.text s ∧
      (Rank.number x ≤ Rank.number y ↔ x ≤ y) ∧
      (Rank.text s ≤ Rank.text t ↔ (Text.lower s).toList ≤ (Text.lower t).toList)) ∧
    ∀ {r s : Object} {v w : Scalar}, r.sortValue path = .scalar v → s.sortValue path = .scalar w →
      Scalar.AreOrdered [v, w] →
      (Operator.less.test (.scalar v) w = true ↔
        ¬ SortOrder.ascending.mayPrecede (s.rank? path) (r.rank? path)) ∧
      (Operator.greater.test (.scalar v) w = true ↔
        ¬ SortOrder.ascending.mayPrecede (r.rank? path) (s.rank? path)) := by
  have hsorting : IsSorting path order rs (sortByKey (Object.sortKey path) order rs) :=
    isSorting_sortByKey h
  refine ⟨fun xs => ⟨fun hxs => hxs.unique hsorting, ?_⟩,
    ⟨present path order rs, sortByKey_eq path order rs, fun r hr => isMissing_of_mem_present hr⟩,
    sortByKey_idempotent h,
    fun x y s t => ⟨Rank.number_lt_lowered x _, Rank.number_le_iff, Rank.lowered_le_iff⟩, ?_⟩
  · rintro rfl
    exact hsorting
  · intro r s v w hr hs hvw
    have hwv : Scalar.AreOrdered [w, v] := hvw.of_subset (by simp)
    have hswap : Operator.greater.test (.scalar v) w = Operator.less.test (.scalar w) v :=
      (Operator.coherent_of_areOrdered (z := w) (hvw.of_subset (by simp))).greater_eq
    rw [hswap]
    exact ⟨less_iff_precedes hr hs hvw, less_iff_precedes hs hr hwv⟩

/-- Resources that hold a text, nothing, a number, an array of a number, and a truth value. -/
def mixedResources : List Object :=
  [[("n", .text "B")], [], [("n", .integer 2)], [("n", .array [.number (.double ⟨0x4000000000000000⟩)])],
    [("n", .bool true)]]

/-- The truth value is one, and the two numbers are equal and stay as they stood. -/
theorem sorting_unique_mixed :
    (∀ r ∈ mixedResources, (r.sortValue "n").isNaN = false) ∧
    IsSorting "n" .ascending mixedResources
      [[("n", .bool true)], [("n", .integer 2)],
        [("n", .array [.number (.double ⟨0x4000000000000000⟩)])], [("n", .text "B")], []] := by
  have h : ∀ r ∈ mixedResources, (r.sortValue "n").isNaN = false := by decide +kernel
  refine ⟨h, ((sorting_unique h).1 _).mpr ?_⟩
  have hkeys : mixedResources.map (Object.sortKey "n") =
      [.text "b", .missing, .number (some (.units (2 * Double.unitsInOne))),
        .number (some (.units (2 * Double.unitsInOne))), .number (some (.units Double.unitsInOne))] := by
    decide +kernel
  simp only [mixedResources, List.map_cons, List.map_nil, List.cons.injEq] at hkeys
  obtain ⟨htext, hnothing, hinteger, harray, htruth, -⟩ := hkeys
  have htwo : (Place.units (2 * Double.unitsInOne)).order (.units Double.unitsInOne) = .gt := by
    decide +kernel
  simp [sortByKey, mixedResources, htext, hnothing, hinteger, harray, htruth, List.mergeSort,
    SortOrder.le, SortKey.le, Place.order_self, htwo]

end
end ScimQuery
