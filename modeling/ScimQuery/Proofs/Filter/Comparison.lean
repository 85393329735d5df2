import Mathlib.Data.String.Basic
import Mathlib.Data.Sum.Order
import Mathlib.Order.Compare
import ScimQuery.Proofs.Filter.LetterCase
import ScimQuery.Proofs.Number.Value

/-! # Comparisons

Texts, and numbers of either kind, stand in one linear order: a number has its value as its rank, a
text its lower-case form (`Scalar.rank?`).  On two texts, and on two numbers that have a value, every
test that compares says how the ranks compare (`Scalar.less_iff` and those beside it).  So the tests
have the laws of an order between them, and equal scalars cannot be told apart by any test at all
(`Operator.comparisons_coherent`). -/

namespace ScimQuery

/-- Where a scalar stands among all scalars that have a rank: a number at its value, and a text,
behind all numbers, at the characters of its lower-case form. -/
abbrev Rank : Type := Lex (Extended ⊕ List Char)

namespace Rank

/-- The rank of a value of a number. -/
def number (x : Extended) : Rank := toLex (.inl x)

/-- The rank of a lower-case form. -/
def lowered (s : String) : Rank := toLex (.inr s.toList)

/-- The rank of a text. -/
def text (s : String) : Rank := lowered (Text.lower s)

theorem number_lt_lowered (x : Extended) (s : String) : number x < lowered s :=
  Sum.Lex.inl_lt_inr _ _

theorem number_le_iff {x y : Extended} : number x ≤ number y ↔ x ≤ y := Sum.Lex.inl_le_inl_iff

theorem lowered_le_iff {s t : String} : lowered s ≤ lowered t ↔ s.toList ≤ t.toList :=
  Sum.Lex.inr_le_inr_iff

theorem compare_number (x y : Extended) : compare (number x) (number y) = compare x y := by
  rw [← cmp_eq_compare, ← cmp_eq_compare]
  exact Sum.Lex.inl_strictMono.cmp_map_eq x y

theorem text_lt_iff {s t : String} :
    text s < text t ↔ (Text.lower s).toList < (Text.lower t).toList := Sum.Lex.inr_lt_inr_iff

theorem text_inj {s t : String} : text s = text t ↔ Text.lower s = Text.lower t := by
  simp [text, lowered, String.toList_inj]

theorem compare_text (s t : String) : compare (text s) (text t) = Text.order s t := by
  unfold Text.order
  dsimp only
  have heq : text s = text t ↔ (Text.lower s).toList = (Text.lower t).toList := by
    rw [text_inj, String.toList_inj]
  rcases lt_trichotomy (text s) (text t) with h | h | h
  · rw [compare_lt_iff_lt.mpr h, if_pos (text_lt_iff.mp h)]
  · rw [compare_eq_iff_eq.mpr h, if_neg (mt text_lt_iff.mpr h.not_lt), if_pos (heq.mp h)]
  · rw [compare_gt_iff_gt.mpr h, if_neg (mt text_lt_iff.mpr h.asymm), if_neg (mt heq.mpr h.ne')]

theorem number_injective : Function.Injective number := by
  intro x y h
  simpa [number] using h

end Rank

namespace Scalar

/-- The rank of a scalar, with the truth values as zero and one.  `null` has none, and neither has a
double that is no number. -/
def rank? : Scalar → Option Rank
  | .null => none
  | .bool b => some (.number (if b then 1 else 0))
  | .number n => n.value?.map Rank.number
  | .text s => some (.text s)

/-- Whether scalars are all texts, or all numbers, none of which is a double that is no number. -/
def AreOrdered (vs : List Scalar) : Prop :=
  (∀ v ∈ vs, ∃ s, v = .text s) ∨ ∀ v ∈ vs, ∃ n, v = .number n ∧ n.isNaN = false

theorem AreOrdered.of_subset {vs ws : List Scalar} (h : AreOrdered ws) (hs : vs ⊆ ws) :
    AreOrdered vs :=
  h.imp (fun h v hv => h v (hs hv)) fun h v hv => h v (hs hv)

/-- Ordered scalars have a rank. -/
theorem AreOrdered.exists_rank {vs : List Scalar} (h : AreOrdered vs) {v : Scalar} (hv : v ∈ vs) :
    ∃ a, v.rank? = some a := by
  rcases h with h | h
  · obtain ⟨s, rfl⟩ := h v hv
    exact ⟨_, rfl⟩
  · obtain ⟨n, rfl, hn⟩ := h v hv
    obtain ⟨x, hx⟩ := Option.ne_none_iff_exists'.mp (mt n.value?_eq_none_iff.mp (by simp [hn]))
    exact ⟨.number x, by rw [rank?, hx, Option.map_some]⟩

/-- Two ordered scalars are two texts or two numbers. -/
theorem AreOrdered.of_two {v w : Scalar} (h : AreOrdered [v, w]) :
    (∃ s t, v = .text s ∧ w = .text t) ∨ ∃ m n, v = .number m ∧ w = .number n := by
  rcases h with h | h
  · obtain ⟨s, hs⟩ := h v (by simp)
    obtain ⟨t, ht⟩ := h w (by simp)
    exact .inl ⟨s, t, hs, ht⟩
  · obtain ⟨m, hm, -⟩ := h v (by simp)
    obtain ⟨n, hn, -⟩ := h w (by simp)
    exact .inr ⟨m, n, hm, hn⟩

/-! ### Two scalars -/

section Two

variable {v w : Scalar} {a b : Rank} (h : AreOrdered [v, w]) (hv : v.rank? = some a)
  (hw : w.rank? = some b)
include h hv hw

/-- Two ordered scalars stand to each other as their ranks do. -/
theorem order?_eq : (Json.scalar v).order? w = some (compare a b) := by
  rcases h.of_two with ⟨s, t, rfl, rfl⟩ | ⟨m, n, rfl, rfl⟩
  · obtain rfl := Option.some.inj hv
    obtain rfl := Option.some.inj hw
    rw [Rank.compare_text]
    rfl
  · obtain ⟨x, hx, rfl⟩ := Option.map_eq_some_iff.mp hv
    obtain ⟨y, hy, rfl⟩ := Option.map_eq_some_iff.mp hw
    rw [Rank.compare_number]
    exact Number.order?_eq hx hy

theorem equal_iff : Operator.equal.test (.scalar v) w = true ↔ a = b := by
  have horder := order?_eq h hv hw
  rcases h.of_two with ⟨s, t, rfl, rfl⟩ | ⟨m, n, rfl, rfl⟩
  · obtain rfl := Option.some.inj hv
    obtain rfl := Option.some.inj hw
    rw [Rank.text_inj]
    exact beq_iff_eq
  · have horder : m.order? n = some (compare a b) := horder
    rw [Operator.test, Json.equals, beq_iff_eq, horder, Option.some.injEq, compare_eq_iff_eq]

theorem less_iff : Operator.less.test (.scalar v) w = true ↔ a < b := by
  rw [Operator.test, order?_eq h hv hw, beq_iff_eq, Option.some.injEq, compare_lt_iff_lt]

theorem greater_iff : Operator.greater.test (.scalar v) w = true ↔ b < a := by
  rw [Operator.test, order?_eq h hv hw, beq_iff_eq, Option.some.injEq, compare_gt_iff_gt]

theorem lessOrEqual_iff : Operator.lessOrEqual.test (.scalar v) w = true ↔ a ≤ b := by
  rw [Operator.test, order?_eq h hv hw, Bool.or_eq_true, beq_iff_eq, beq_iff_eq, Option.some.injEq,
    Option.some.injEq, compare_lt_iff_lt, compare_eq_iff_eq, le_iff_lt_or_eq]

theorem greaterOrEqual_iff : Operator.greaterOrEqual.test (.scalar v) w = true ↔ b ≤ a := by
  rw [Operator.test, order?_eq h hv hw, Bool.or_eq_true, beq_iff_eq, beq_iff_eq, Option.some.injEq,
    Option.some.injEq, compare_gt_iff_gt, compare_eq_iff_eq, le_iff_lt_or_eq, eq_comm]

omit hw in
/-- Ordered scalars of one rank differ at most in case, or in how they write one number. -/
theorem alike_of_rank (hw : w.rank? = some a) : v.Alike w := by
  rcases h.of_two with ⟨s, t, rfl, rfl⟩ | ⟨m, n, rfl, rfl⟩
  · exact .text (Rank.text_inj.mp (Option.some.inj (hv.trans hw.symm)))
  · have hvalue : m.value? = n.value? :=
      Option.map_injective Rank.number_injective (hv.trans hw.symm)
    rw [Number.value?_eq, Number.value?_eq] at hvalue
    exact .number (Option.map_injective Place.value_injective hvalue)

end Two

end Scalar

/-! ### Values that no comparison orders -/

/-- Whether a value and a scalar are two texts or two numbers. -/
def Json.AreComparable (v : Json) (w : Scalar) : Prop :=
  (∃ s t, v = .text s ∧ w = .text t) ∨ ∃ m n, v = .number m ∧ w = .number n

theorem Json.order?_eq_none {v : Json} {w : Scalar} (h : ¬ v.AreComparable w) :
    v.order? w = none := by
  unfold order?
  split
  · exact absurd (.inr ⟨_, _, rfl, rfl⟩) h
  · exact absurd (.inl ⟨_, _, rfl, rfl⟩) h
  · rfl

namespace Operator

/-- The laws of an order that the tests have on three scalars. -/
structure Coherent (x y z : Scalar) : Prop where
  one_of_three : [less, equal, greater].countP (·.test (.scalar x) y) = 1
  greaterOrEqual_eq : greaterOrEqual.test (.scalar x) y =
    (greater.test (.scalar x) y || equal.test (.scalar x) y)
  lessOrEqual_eq : lessOrEqual.test (.scalar x) y =
    (less.test (.scalar x) y || equal.test (.scalar x) y)
  greater_eq : greater.test (.scalar x) y = less.test (.scalar y) x
  less_trans : less.test (.scalar x) y = true → less.test (.scalar y) z = true →
    less.test (.scalar x) z = true
  equal_refl : equal.test (.scalar x) x = true
  equal_symm : equal.test (.scalar x) y = true → equal.test (.scalar y) x = true
  equal_trans : equal.test (.scalar x) y = true → equal.test (.scalar y) z = true →
    equal.test (.scalar x) z = true
  /-- No test tells equal scalars apart, on either side. -/
  equal_congr : equal.test (.scalar x) y = true → ∀ op : Operator,
    op.test (.scalar x) z = op.test (.scalar y) z ∧ op.test (.scalar z) x = op.test (.scalar z) y

/-- The tests have the laws of an order on texts, and on numbers. -/
theorem coherent_of_areOrdered {x y z : Scalar} (h : Scalar.AreOrdered [x, y, z]) :
    Coherent x y z := by
  have hxx : Scalar.AreOrdered [x, x] := h.of_subset (by simp)
  have hxy : Scalar.AreOrdered [x, y] := h.of_subset (by simp)
  have hyx : Scalar.AreOrdered [y, x] := h.of_subset (by simp)
  have hyz : Scalar.AreOrdered [y, z] := h.of_subset (by simp)
  have hxz : Scalar.AreOrdered [x, z] := h.of_subset (by simp)
  obtain ⟨a, ha⟩ := h.exists_rank (v := x) (by simp)
  obtain ⟨b, hb⟩ := h.exists_rank (v := y) (by simp)
  obtain ⟨c, hc⟩ := h.exists_rank (v := z) (by simp)
  have hless := Scalar.less_iff hxy ha hb
  have hequal := Scalar.equal_iff hxy ha hb
  have hgreater := Scalar.greater_iff hxy ha hb
  refine ⟨?_, ?_, ?_, ?_, ?_, ?_, ?_, ?_, ?_⟩
  · simp only [List.countP_cons, List.countP_nil, hless, hequal, hgreater]
    rcases lt_trichotomy a b with hab | hab | hab
    · simp [hab, hab.ne, hab.not_gt]
    · simp [hab]
    · simp [hab, hab.ne', hab.not_gt]
  · rw [Bool.eq_iff_iff, Bool.or_eq_true, hgreater, hequal, Scalar.greaterOrEqual_iff hxy ha hb,
      le_iff_lt_or_eq, eq_comm (a := b)]
  · rw [Bool.eq_iff_iff, Bool.or_eq_true, hless, hequal, Scalar.lessOrEqual_iff hxy ha hb,
      le_iff_lt_or_eq]
  · rw [Bool.eq_iff_iff, hgreater, Scalar.less_iff hyx hb ha]
  · rw [hless, Scalar.less_iff hyz hb hc, Scalar.less_iff hxz ha hc]
    exact lt_trans
  · exact (Scalar.equal_iff hxx ha ha).mpr rfl
  · rw [hequal, Scalar.equal_iff hyx hb ha]
    exact Eq.symm
  · rw [hequal, Scalar.equal_iff hyz hb hc, Scalar.equal_iff hxz ha hc]
    exact Eq.trans
  · rw [hequal]
    rintro rfl op
    have hz : z.Alike z := Scalar.alike_of_rank (h.of_subset (by simp)) hc hc
    have hxy : x.Alike y := Scalar.alike_of_rank hxy ha hb
    exact ⟨op.test_eq_of_alike (.scalar hxy) hz, op.test_eq_of_alike (.scalar hz) hxy⟩

/-- Texts, and numbers of either kind that are numbers at all, are put into one order by the tests
that compare.  Of every value and every scalar, a test for difference holds exactly if the test for
equality fails; and unless they are two texts or two numbers, neither comes before the other. -/
theorem comparisons_coherent :
    (∀ {x y z : Scalar}, Scalar.AreOrdered [x, y, z] → Coherent x y z) ∧
    ∀ (v : Json) (w : Scalar), notEqual.test v w = !equal.test v w ∧
      (¬ v.AreComparable w → ∀ op ∈ [greater, greaterOrEqual, less, lessOrEqual],
        op.test v w = false) := by
  refine ⟨coherent_of_areOrdered, fun v w => ⟨v.differs_eq w, fun h op hop => ?_⟩⟩
  have hnone := Json.order?_eq_none h
  simp only [List.mem_cons, List.not_mem_nil, or_false] at hop
  rcases hop with rfl | rfl | rfl | rfl
  all_goals
    rw [test, hnone]
    rfl

/-- The least integer that is no double, the double below it, and an infinity. -/
theorem comparisons_coherent_past_doubles :
    Scalar.AreOrdered [.number (.integer 9007199254740993),
      .number (.double ⟨0x4340000000000000⟩), .number (.double (.infinity false))] ∧
    Coherent (.number (.integer 9007199254740993)) (.number (.double ⟨0x4340000000000000⟩))
      (.number (.double (.infinity false))) ∧
    equal.test (.number (.integer 9007199254740993)) (.number (.double ⟨0x4340000000000000⟩)) =
      false ∧
    notEqual.test .null (.text "") = !equal.test .null (.text "") := by
  have h : Scalar.AreOrdered [.number (.integer 9007199254740993),
      .number (.double ⟨0x4340000000000000⟩), .number (.double (.infinity false))] := by
    refine .inr fun v hv => ?_
    simp only [List.mem_cons, List.not_mem_nil, or_false] at hv
    rcases hv with rfl | rfl | rfl
    · exact ⟨_, rfl, rfl⟩
    · exact ⟨_, rfl, by decide⟩
    · exact ⟨_, rfl, by decide⟩
  exact ⟨h, comparisons_coherent.1 h, by decide +kernel, (comparisons_coherent.2 .null _).1⟩

end Operator
end ScimQuery
