import ScimQuery.Filter.Parser
import ScimQuery.Proofs.Number.Literal

/-! # The grammar of filters

Which lists of tokens write which filters, as rules (`Filter.Derives`):

    filter := conj | filter "or" conj
    conj := operand | conj "and" operand
    operand := "not" "(" filter ")" | "(" filter ")" | comparison
    comparison := path "[" filter "]" | path "pr" | path operator value

Both connectives are rules that are recursive on the left, so they associate to the left, and a
conjunction is a part of a disjunction, so it binds tighter.  What a value is is a parameter of the
rules.  By the grammar it is a text, a truth value, `null` or a literal (`Token.Denotes`), with as many
digits as it may have.  What is read is less by the integers of too many digits (`Token.IsReadAs`), so
the lists that are read are those of the grammar that hold no such integer
(`Filter.derives_isReadAs_iff`). -/

namespace ScimQuery

/-! ### Values -/

namespace Token

/-- `t.Denotes v`: the token `t` is the value `v`. -/
inductive Denotes (t : Token) : Scalar → Prop
  | text : t.kind = .text → t.Denotes (.text t.value)
  | number {n : Number} : t.kind = .number → Number.IsLiteral t.value.toList n → t.Denotes (.number n)
  | truth : t.kind = .truth → t.Denotes (.bool (t.value == "true"))
  | null : t.kind = .null → t.Denotes .null

/-- The number of digits in a token. -/
def digitCount (t : Token) : Nat := t.value.toList.countP Number.isDigit

/-- Whether a token is an integer of too many digits. -/
def IsOverlong (t : Token) : Prop :=
  t.kind = .number ∧ Number.IsOverlong Number.digitLimit t.value.toList

instance (t : Token) : Decidable t.IsOverlong := inferInstanceAs (Decidable (_ ∧ _))

/-- `t.IsReadAs v`: the token `t` is the value `v`, and no integer of too many digits. -/
def IsReadAs (t : Token) (v : Scalar) : Prop := t.Denotes v ∧ ¬ t.IsOverlong

end Token

namespace Filter

/-! ### Rules -/

/-- The kinds of phrases that filters are made of. -/
inductive Phrase where
  | filter
  | conjunction
  | operand
  | comparison
  deriving DecidableEq, Repr

/-- `Derives Value p ts f`: the tokens `ts` are a phrase of kind `p`, and `f` is the filter that they
write, where `Value t v` says that the token `t` is the value `v`. -/
inductive Derives (Value : Token → Scalar → Prop) : Phrase → List Token → Filter → Prop
  | conjunction {ts : List Token} {f : Filter} :
      Derives Value .conjunction ts f → Derives Value .filter ts f
  | or {ts us : List Token} {t : Token} {left right : Filter} :
      Derives Value .filter ts left → t.kind = .or → Derives Value .conjunction us right →
      Derives Value .filter (ts ++ t :: us) (.logical .or left right)
  | operand {ts : List Token} {f : Filter} :
      Derives Value .operand ts f → Derives Value .conjunction ts f
  | and {ts us : List Token} {t : Token} {left right : Filter} :
      Derives Value .conjunction ts left → t.kind = .and → Derives Value .operand us right →
      Derives Value .conjunction (ts ++ t :: us) (.logical .and left right)
  | comparison {ts : List Token} {f : Filter} :
      Derives Value .comparison ts f → Derives Value .operand ts f
  | not {n o c : Token} {ts : List Token} {f : Filter} :
      n.kind = .not → o.kind = .openParen → Derives Value .filter ts f → c.kind = .closeParen →
      Derives Value .operand (n :: o :: (ts ++ [c])) (.not f)
  | group {o c : Token} {ts : List Token} {f : Filter} :
      o.kind = .openParen → Derives Value .filter ts f → c.kind = .closeParen →
      Derives Value .operand (o :: (ts ++ [c])) f
  | items {a o c : Token} {ts : List Token} {f : Filter} :
      a.kind = .attribute → o.kind = .openBracket → Derives Value .filter ts f →
      c.kind = .closeBracket →
      Derives Value .comparison (a :: o :: (ts ++ [c])) (.valuePath a.value f)
  | present {a p : Token} :
      a.kind = .attribute → p.kind = .present →
      Derives Value .comparison [a, p] (.compare a.value .present .null)
  | value {a o v : Token} {value : Scalar} :
      a.kind = .attribute → o.kind = .operator → Value v value →
      Derives Value .comparison [a, o, v] (.compare a.value (Operator.ofName o.value) value)

/-! ### Values of phrases -/

/-- Whether every number token holds a literal. -/
def HoldLiterals (tokens : List Token) : Prop :=
  ∀ t ∈ tokens, t.kind = .number → ∃ n, Number.IsLiteral t.value.toList n

/-- The values that a filter compares with.  A test for presence has none. -/
def values : Filter → List Scalar
  | .compare _ op value => if op = .present then [] else [value]
  | .logical _ left right => left.values ++ right.values
  | .not inner => inner.values
  | .valuePath _ inner => inner.values
  | .unrecognized => []

section

variable {Value : Token → Scalar → Prop} {p : Phrase} {ts : List Token} {f : Filter}

/-- A phrase is one by other values, if its tokens are these values too. -/
theorem Derives.imp {Value' : Token → Scalar → Prop} (h : Derives Value p ts f)
    (himp : ∀ t ∈ ts, ∀ v, Value t v → Value' t v) : Derives Value' p ts f := by
  induction h with
  | conjunction _ ih => exact .conjunction (ih himp)
  | or _ ht _ ihl ihr =>
      exact .or (ihl fun t h => himp t (List.mem_append_left _ h)) ht
        (ihr fun t h => himp t (List.mem_append_right _ (List.mem_cons_of_mem _ h)))
  | operand _ ih => exact .operand (ih himp)
  | and _ ht _ ihl ihr =>
      exact .and (ihl fun t h => himp t (List.mem_append_left _ h)) ht
        (ihr fun t h => himp t (List.mem_append_right _ (List.mem_cons_of_mem _ h)))
  | comparison _ ih => exact .comparison (ih himp)
  | not hn ho _ hc ih => exact .not hn ho (ih fun t h => himp t (by simp [h])) hc
  | group ho _ hc ih => exact .group ho (ih fun t h => himp t (by simp [h])) hc
  | items ha ho _ hc ih => exact .items ha ho (ih fun t h => himp t (by simp [h])) hc
  | present ha hp => exact .present ha hp
  | value ha ho hv => exact .value ha ho (himp _ (by simp) _ hv)

/-- What holds of all values and of all tokens that are no numbers holds of the tokens of a phrase: its
numbers are values. -/
theorem Derives.forall_mem {P : Token → Prop} (h : Derives Value p ts f)
    (hother : ∀ t, t.kind ≠ .number → P t) (hvalue : ∀ t v, Value t v → P t) : ∀ t ∈ ts, P t := by
  have hkind {t : Token} {kind : TokenKind} (h : t.kind = kind) (hkind : kind ≠ .number := by simp) :
      P t := hother t (h ▸ hkind)
  have hnil : ∀ t ∈ ([] : List Token), P t := fun _ ht => nomatch ht
  induction h with
  | conjunction _ ih => exact ih
  | or _ ht _ ihl ihr =>
      simp only [List.forall_mem_append, List.forall_mem_cons]
      exact ⟨ihl, hkind ht, ihr⟩
  | operand _ ih => exact ih
  | and _ ht _ ihl ihr =>
      simp only [List.forall_mem_append, List.forall_mem_cons]
      exact ⟨ihl, hkind ht, ihr⟩
  | comparison _ ih => exact ih
  | not hn ho _ hc ih =>
      simp only [List.forall_mem_append, List.forall_mem_cons]
      exact ⟨hkind hn, hkind ho, ih, hkind hc, hnil⟩
  | group ho _ hc ih =>
      simp only [List.forall_mem_append, List.forall_mem_cons]
      exact ⟨hkind ho, ih, hkind hc, hnil⟩
  | items ha ho _ hc ih =>
      simp only [List.forall_mem_append, List.forall_mem_cons]
      exact ⟨hkind ha, hkind ho, ih, hkind hc, hnil⟩
  | present ha hp =>
      simp only [List.forall_mem_cons]
      exact ⟨hkind ha, hkind hp, hnil⟩
  | value ha ho hv =>
      simp only [List.forall_mem_cons]
      exact ⟨hkind ha, hkind ho, hvalue _ _ hv, hnil⟩

/-- The numbers of a phrase of the grammar are literals. -/
theorem Derives.holdLiterals (h : Derives Token.Denotes p ts f) : HoldLiterals ts := by
  refine h.forall_mem (fun t hk hnumber => absurd hnumber hk) fun t v hv hk => ?_
  cases hv with
  | number _ hl => exact ⟨_, hl⟩
  | text hk' => exact nomatch hk'.symm.trans hk
  | truth hk' => exact nomatch hk'.symm.trans hk
  | null hk' => exact nomatch hk'.symm.trans hk

/-- Each value of a filter is that of a token. -/
theorem Derives.exists_value (h : Derives Value p ts f) {v : Scalar} (hv : v ∈ f.values) :
    ∃ t ∈ ts, Value t v := by
  induction h with
  | conjunction _ ih => exact ih hv
  | or _ _ _ ihl ihr =>
      rcases List.mem_append.mp hv with hv | hv
      · obtain ⟨t, ht, hvalue⟩ := ihl hv
        exact ⟨t, List.mem_append_left _ ht, hvalue⟩
      · obtain ⟨t, ht, hvalue⟩ := ihr hv
        exact ⟨t, List.mem_append_right _ (List.mem_cons_of_mem _ ht), hvalue⟩
  | operand _ ih => exact ih hv
  | and _ _ _ ihl ihr =>
      rcases List.mem_append.mp hv with hv | hv
      · obtain ⟨t, ht, hvalue⟩ := ihl hv
        exact ⟨t, List.mem_append_left _ ht, hvalue⟩
      · obtain ⟨t, ht, hvalue⟩ := ihr hv
        exact ⟨t, List.mem_append_right _ (List.mem_cons_of_mem _ ht), hvalue⟩
  | comparison _ ih => exact ih hv
  | not _ _ _ _ ih =>
      obtain ⟨t, ht, hvalue⟩ := ih hv
      exact ⟨t, by simp [ht], hvalue⟩
  | group _ _ _ ih =>
      obtain ⟨t, ht, hvalue⟩ := ih hv
      exact ⟨t, by simp [ht], hvalue⟩
  | items _ _ _ _ ih =>
      obtain ⟨t, ht, hvalue⟩ := ih hv
      exact ⟨t, by simp [ht], hvalue⟩
  | present _ _ => cases hv
  | @value a o t value _ _ hvalue =>
      rw [values] at hv
      split at hv
      · cases hv
      · obtain rfl := List.mem_singleton.mp hv
        exact ⟨t, by simp, hvalue⟩

/-- What is read is what the grammar derives without integers of too many digits. -/
theorem derives_isReadAs_iff :
    Derives Token.IsReadAs p ts f ↔ Derives Token.Denotes p ts f ∧ ∀ t ∈ ts, ¬ t.IsOverlong :=
  ⟨fun h => ⟨h.imp fun _ _ _ hv => hv.1,
      h.forall_mem (fun _ hk ho => hk ho.1) fun _ _ hv => hv.2⟩,
    fun h => h.1.imp fun t ht _ hv => ⟨hv, h.2 t ht⟩⟩

end

end Filter
end ScimQuery
