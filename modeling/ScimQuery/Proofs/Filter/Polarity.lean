import Mathlib.Algebra.Ring.Parity
import ScimQuery.Filter.Meaning

/-! # Damage under negations

A place in a filter counts by the number of negations around it.  What holds of fewer values than the
filter at that place makes the whole hold of fewer values if the number is even, and of more if it is odd
(`Narrower.fill`).  A filter of an unknown form holds of nothing, and so does a comparison by a name that
no test has: such damage is safe at an even place, where it can only lose resources, and admits others at
an odd one (`holds_damaged`). -/

namespace ScimQuery
namespace Filter

/-! ### Places in filters -/

/-- A filter in which one place is open. -/
inductive Context where
  | hole
  | logicalLeft (op : Connective) (context : Context) (right : Filter)
  | logicalRight (op : Connective) (left : Filter) (context : Context)
  | not (context : Context)
  | valuePath (path : String) (context : Context)
  deriving DecidableEq, Repr

namespace Context

/-- The filter with another at the open place. -/
def fill : Context → Filter → Filter
  | hole, f => f
  | logicalLeft op context right, f => .logical op (context.fill f) right
  | logicalRight op left context, f => .logical op left (context.fill f)
  | not context, f => .not (context.fill f)
  | valuePath path context, f => .valuePath path (context.fill f)

/-- The number of negations around the open place. -/
def negations : Context → ℕ
  | hole => 0
  | logicalLeft _ context _ => context.negations
  | logicalRight _ _ context => context.negations
  | not context => context.negations + 1
  | valuePath _ context => context.negations

end Context

/-! ### Filters that hold of fewer values -/

/-- `f.Narrower g`: whatever satisfies `f` satisfies `g`. -/
def Narrower (f g : Filter) : Prop := ∀ v : Json, f.holds v = true → g.holds v = true

theorem Narrower.refl (f : Filter) : f.Narrower f := fun _ h => h

theorem Narrower.logical {f f' g g' : Filter} (op : Connective) (hf : f.Narrower f')
    (hg : g.Narrower g') : (logical op f g).Narrower (logical op f' g') := by
  intro v h
  cases op with
  | and =>
      rw [holds, Bool.and_eq_true] at h ⊢
      exact ⟨hf v h.1, hg v h.2⟩
  | or =>
      rw [holds, Bool.or_eq_true] at h ⊢
      exact h.imp (hf v) (hg v)

/-- A negation turns the order of filters round. -/
theorem Narrower.not {f g : Filter} (h : f.Narrower g) : (not g).Narrower (not f) := by
  intro v hnot
  rw [holds, Bool.not_eq_true'] at hnot ⊢
  exact Bool.eq_false_iff.mpr fun hf => Bool.eq_false_iff.mp hnot (h v hf)

/-- The item that satisfies a filter need not be the value that the whole is tested on. -/
theorem Narrower.valuePath {f g : Filter} (path : String) (h : f.Narrower g) :
    (valuePath path f).Narrower (valuePath path g) := by
  intro v hf
  rw [holds] at hf ⊢
  cases hv : Path.resolve path v with
  | scalar s => simp only [hv] at hf; cases hf
  | object o => simp only [hv] at hf; cases hf
  | array items =>
      simp only [hv, List.any_eq_true, Bool.and_eq_true] at hf ⊢
      obtain ⟨item, hitem, hobject, hholds⟩ := hf
      exact ⟨item, hitem, hobject, h item hholds⟩

/-- A narrower filter at an open place makes the whole narrower or wider, as the number of negations
around the place is even or odd. -/
theorem Narrower.fill {f g : Filter} (h : f.Narrower g) (context : Context) :
    (Even context.negations → (context.fill f).Narrower (context.fill g)) ∧
    (Odd context.negations → (context.fill g).Narrower (context.fill f)) := by
  induction context with
  | hole => exact ⟨fun _ => h, fun hodd => absurd hodd (by decide)⟩
  | logicalLeft op context right ih =>
      exact ⟨fun heven => (ih.1 heven).logical op (.refl right),
        fun hodd => (ih.2 hodd).logical op (.refl right)⟩
  | logicalRight op left context ih =>
      exact ⟨fun heven => (Narrower.refl left).logical op (ih.1 heven),
        fun hodd => (Narrower.refl left).logical op (ih.2 hodd)⟩
  | valuePath path context ih =>
      exact ⟨fun heven => (ih.1 heven).valuePath path, fun hodd => (ih.2 hodd).valuePath path⟩
  | not context ih =>
      -- One more negation exchanges the two halves of the hypothesis.
      constructor
      · intro heven
        rw [Context.negations, Nat.even_add_one, Nat.not_even_iff_odd] at heven
        exact (ih.2 heven).not
      · intro hodd
        rw [Context.negations, Nat.odd_add_one, Nat.not_odd_iff_even] at hodd
        exact (ih.1 hodd).not

/-! ### Damage -/

/-- A filter that cannot be told: one of an unknown form, or a comparison by a name that no test has. -/
inductive Damaged : Filter → Prop where
  | unrecognized : Damaged .unrecognized
  | compare (path name : String) (value : Scalar) : Damaged (.compare path (.other name) value)

/-- What cannot be told holds of nothing. -/
theorem Damaged.holds_eq {f : Filter} (h : Damaged f) (v : Json) : f.holds v = false := by
  cases h with
  | unrecognized => rfl
  | compare path name value =>
      rw [holds]
      cases Path.resolve path v with
      | scalar s => rfl
      | object o => rfl
      | array items =>
          rw [Operator.testAny, List.any_eq_false]
          intro item _
          simp [Operator.test]

theorem Damaged.narrower {f : Filter} (h : Damaged f) (g : Filter) : f.Narrower g := by
  intro v hf
  rw [h.holds_eq v] at hf
  cases hf

/-- Damage to a part of a filter: where the negations around the part are even in number, only values
that satisfied the filter satisfy the damaged one; where they are odd, all that satisfied it still do. -/
theorem holds_damaged (context : Context) (f damaged : Filter) (h : Damaged damaged) (r : Json) :
    (Even context.negations →
      (context.fill damaged).holds r = true → (context.fill f).holds r = true) ∧
    (Odd context.negations →
      (context.fill f).holds r = true → (context.fill damaged).holds r = true) := by
  obtain ⟨heven, hodd⟩ := (h.narrower f).fill context
  exact ⟨fun hn => heven hn r, fun hn => hodd hn r⟩

/-- A user with an address at work. -/
def atWork : Json :=
  .object [("active", .bool true), ("emails", .array [.object [("type", .text "work")]])]

/-- A place under two negations, in a filter that every active user satisfies. -/
def evenPlace : Context := .logicalRight .or (.compare "active" .equal (.bool true)) (.not (.not .hole))

/-- A place for what no address may satisfy. -/
def oddPlace : Context := .not (.valuePath "emails" .hole)

/-- Under one negation damage admits the user that a sound filter on work addresses keeps out. -/
theorem holds_damaged_at_work :
    Damaged .unrecognized ∧ Damaged (.compare "type" (.other "is") (.text "home")) ∧
    (Even evenPlace.negations ∧ (evenPlace.fill .unrecognized).holds atWork = true ∧
      (evenPlace.fill (.compare "emails" .present .null)).holds atWork = true) ∧
    (Odd oddPlace.negations ∧
      (oddPlace.fill (.compare "type" .equal (.text "home"))).holds atWork = true ∧
      (oddPlace.fill (.compare "type" (.other "is") (.text "home"))).holds atWork = true) ∧
    (oddPlace.fill (.compare "type" .equal (.text "work"))).holds atWork = false ∧
      (oddPlace.fill .unrecognized).holds atWork = true := by
  have heven : Even evenPlace.negations := by decide
  have hodd : Odd oddPlace.negations := by decide
  have hactive : (evenPlace.fill .unrecognized).holds atWork = true := by decide +kernel
  have hhome : (oddPlace.fill (.compare "type" .equal (.text "home"))).holds atWork = true := by
    decide +kernel
  have hname : Damaged (.compare "type" (.other "is") (.text "home")) := .compare _ _ _
  refine ⟨.unrecognized, hname, ⟨heven, hactive, ?_⟩, ⟨hodd, hhome, ?_⟩, by decide +kernel,
    by decide +kernel⟩
  · exact (holds_damaged evenPlace _ _ .unrecognized atWork).1 heven hactive
  · exact (holds_damaged oddPlace _ _ hname atWork).2 hodd hhome

end Filter
end ScimQuery
