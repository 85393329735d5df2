import ScimQuery.Filter.Meaning
import ScimQuery.Proofs.Attribute.LetterCase

/-! # Filters in other letters

Filters of one shape whose paths and texts differ at most in case (`Filter.Alike`) hold of the same
values, and of values that themselves differ at most in case (`Filter.holds_eq_of_alike`).  Every
operator looks at lower-case forms, at places of numbers or at shapes only
(`Operator.test_eq_of_alike`), and a path leads to the same place in either value. -/

namespace ScimQuery

/-! ### Operators -/

theorem Number.order?_eq_of_place? {x x' y y' : Number} (hx : x.place? = x'.place?)
    (hy : y.place? = y'.place?) : x.order? y = x'.order? y' := by
  unfold order?
  rw [hx, hy]

namespace Json

/-- A value differs from a scalar exactly if it does not equal it, `null` like any other. -/
theorem differs_eq (v : Json) (a : Scalar) : v.differs a = !v.equals a := by
  unfold differs
  split
  · cases a <;> rfl
  · rfl

theorem isPresent_eq_of_alike {v w : Json} (h : v.Alike w) : v.isPresent = w.isPresent := by
  cases h with
  | scalar h =>
      cases h with
      | null => rfl
      | bool b => rfl
      | number _ => rfl
      | @text s t h =>
          have hempty : s = "" ↔ t = "" := by
            rw [← Text.lower_eq_empty_iff, h, Text.lower_eq_empty_iff]
          rw [Bool.eq_iff_iff]
          simp only [isPresent, bne_iff_ne, ne_eq, hempty]
  | array h =>
      cases h with
      | nil => rfl
      | cons _ _ => rfl
  | object _ _ => rfl

variable {v w : Json} {a b : Scalar} (h : v.Alike w) (hab : a.Alike b)
include h hab

theorem equals_eq_of_alike : v.equals a = w.equals b := by
  cases h with
  | scalar h =>
      cases h with
      | null => cases hab <;> rfl
      | bool b => cases hab <;> rfl
      | number h =>
          cases hab with
          | number h' => simp only [equals, Number.order?_eq_of_place? h h']
          | _ => rfl
      | text h =>
          cases hab with
          | text h' => simp only [equals, Text.sameText, h, h']
          | _ => rfl
  | array _ => rfl
  | object _ _ => rfl

theorem order?_eq_of_alike : v.order? a = w.order? b := by
  cases h with
  | scalar h =>
      cases h with
      | null => rfl
      | bool b => rfl
      | number h =>
          cases hab with
          | number h' => simp only [order?, Number.order?_eq_of_place? h h']
          | _ => rfl
      | text h =>
          cases hab with
          | text h' => simp only [order?, Text.order, h, h']
          | _ => rfl
  | array _ => rfl
  | object _ _ => rfl

theorem testText_eq_of_alike (test : List Char → List Char → Bool) :
    testText test v a = testText test w b := by
  cases h with
  | scalar h =>
      cases h with
      | text h =>
          cases hab with
          | text h' => simp only [testText, h, h']
          | _ => rfl
      | _ => rfl
  | array _ => rfl
  | object _ _ => rfl

end Json

namespace Operator

variable {v w : Json} {a b : Scalar}

/-- A test does not tell apart what differs at most in case. -/
theorem test_eq_of_alike (op : Operator) (h : v.Alike w) (hab : a.Alike b) :
    op.test v a = op.test w b := by
  cases op with
  | present => exact Json.isPresent_eq_of_alike h
  | equal => exact Json.equals_eq_of_alike h hab
  | notEqual => simp only [test, Json.differs_eq, Json.equals_eq_of_alike h hab]
  | contains => simp only [test, Json.testText_eq_of_alike h hab]
  | startsWith => simp only [test, Json.testText_eq_of_alike h hab]
  | endsWith => simp only [test, Json.testText_eq_of_alike h hab]
  | greater => simp only [test, Json.order?_eq_of_alike h hab]
  | greaterOrEqual => simp only [test, Json.order?_eq_of_alike h hab]
  | less => simp only [test, Json.order?_eq_of_alike h hab]
  | lessOrEqual => simp only [test, Json.order?_eq_of_alike h hab]
  | other name => rfl

theorem any_eq_of_forall₂ {r : Json → Json → Prop} {p q : Json → Bool}
    (hpq : ∀ {v w}, r v w → p v = q w) {vs ws : List Json} (h : List.Forall₂ r vs ws) :
    vs.any p = ws.any q := by
  induction h with
  | nil => rfl
  | cons h _ ih => rw [List.any_cons, List.any_cons, hpq h, ih]

theorem testAny_eq_of_alike (op : Operator) (h : v.Alike w) (hab : a.Alike b) :
    op.testAny v a = op.testAny w b := by
  cases h with
  | scalar h => exact op.test_eq_of_alike (.scalar h) hab
  | array h => exact any_eq_of_forall₂ (fun h => op.test_eq_of_alike h hab) h
  | object hk hv => exact op.test_eq_of_alike (.object hk hv) hab

end Operator

/-! ### Filters -/

/-- ASCII paths that differ at most in case. -/
structure Path.Alike (p q : String) : Prop where
  left : Text.IsAscii p.toList
  right : Text.IsAscii q.toList
  lower : Text.lower p = Text.lower q

namespace Filter

/-- Filters of one shape, with the same operators, that differ at most in the case of their paths
and of the texts that they compare with. -/
inductive Alike : Filter → Filter → Prop
  | compare {p q : String} (op : Operator) {a b : Scalar} :
      Path.Alike p q → a.Alike b → Alike (.compare p op a) (.compare q op b)
  | logical (op : Connective) {f g f' g' : Filter} :
      Alike f f' → Alike g g' → Alike (.logical op f g) (.logical op f' g')
  | not {f g : Filter} : Alike f g → Alike (.not f) (.not g)
  | valuePath {p q : String} {f g : Filter} :
      Path.Alike p q → Alike f g → Alike (.valuePath p f) (.valuePath q g)
  | unrecognized : Alike .unrecognized .unrecognized

theorem isObject_eq_of_alike {v w : Json} (h : v.Alike w) :
    v.members?.isSome = w.members?.isSome := by
  cases h with
  | scalar _ => rfl
  | array _ => rfl
  | object _ _ => rfl

/-- Whether a filter holds does not depend on case: neither on that of its paths and texts, nor on
that of the keys and texts of the value, at any depth. -/
theorem holds_eq_of_alike {f g : Filter} (hf : f.Alike g) {v w : Json} (h : v.Alike w) :
    f.holds v = g.holds w := by
  induction hf generalizing v w with
  | compare op hp hab =>
      exact op.testAny_eq_of_alike (Path.resolve_alike hp.left hp.right hp.lower h) hab
  | logical op _ _ ih ih' =>
      cases op with
      | and => simp only [holds, ih h, ih' h]
      | or => simp only [holds, ih h, ih' h]
  | not _ ih => simp only [holds, ih h]
  | @valuePath p q f g hp _ ih =>
      simp only [holds]
      have hr := Path.resolve_alike hp.left hp.right hp.lower h
      revert hr
      generalize Path.resolve p v = x
      generalize Path.resolve q w = y
      intro hr
      cases hr with
      | scalar _ => rfl
      | object _ _ => rfl
      | array hi =>
          refine Operator.any_eq_of_forall₂ (fun hvw => ?_) hi
          rw [isObject_eq_of_alike hvw, ih hvw]
  | unrecognized => rfl

/-- A filter on the items of an attribute, and a user, each in two spellings. -/
theorem holds_eq_of_alike_two_spellings :
    let f : Filter := .valuePath "Emails" (.logical .and (.compare "type" .equal (.text "ΟΔΟΣ"))
      (.compare "URN:x:n" .greater (.number (.integer 1))))
    let g : Filter := .valuePath "EMAILS" (.logical .and (.compare "Type" .equal (.text "οδοΣ"))
      (.compare "urn:X:N" .greater (.number (.integer 1))))
    let v : Json := .object [("eMAILS", .array [.object [("TYPE", .text "Οδος"),
      ("urn:X", .object [("N", .integer 2)])]])]
    let w : Json := .object [("emails", .array [.object [("type", .text "οδος"),
      ("Urn:x", .object [("n", .integer 2)])]])]
    f.Alike g ∧ v.Alike w ∧ f.holds v = g.holds w := by
  intro f g v w
  have hemails : Path.Alike "Emails" "EMAILS" :=
    ⟨by decide +kernel, by decide +kernel, by decide +kernel⟩
  have htype : Path.Alike "type" "Type" :=
    ⟨by decide +kernel, by decide +kernel, by decide +kernel⟩
  have hschema : Path.Alike "URN:x:n" "urn:X:N" :=
    ⟨by decide +kernel, by decide +kernel, by decide +kernel⟩
  have hf : f.Alike g := by
    refine .valuePath hemails (.logical .and ?_ ?_)
    · exact .compare .equal htype (.text (by decide +kernel))
    · exact .compare .greater hschema (.number rfl)
  have hv : v.Alike w := by
    have hextension : Json.Alike (.object [("N", .integer 2)]) (.object [("n", .integer 2)]) :=
      .object (by decide) (.cons (.scalar (.number rfl)) .nil)
    have hmail : Json.Alike (.object [("TYPE", .text "Οδος"), ("urn:X", .object [("N", .integer 2)])])
        (.object [("type", .text "οδος"), ("Urn:x", .object [("n", .integer 2)])]) :=
      .object (by decide) (.cons (.scalar (.text (by decide +kernel))) (.cons hextension .nil))
    exact .object (by decide) (.cons (.array (.cons hmail .nil)) .nil)
  exact ⟨hf, hv, holds_eq_of_alike hf hv⟩

end Filter
end ScimQuery
