import ScimQuery.Proofs.Filter.Grammar

/-! # The parsing machine reads the grammar

The machine of `Filter.Parser` against the rules of `Filter.Derives`.

* Completeness: over the tokens of a phrase the machine advances from a state that needs an operand
  to one that holds the filter of the phrase (`reads_of_derives`), so it completes every filter that
  the rules derive (`run_of_derives`).  This holds of whatever reads the values of the rules, also of a
  reader of integers of any length, so a list derives one filter (`Derives.unique`).  Such a reader and
  the machine part at the first integer of too many digits, where the machine stops
  (`refuses_isOverlong`).
* Soundness: `State.Spells s ts` says that the tokens `ts` are what a state has read, level by
  level.  A step keeps it (`State.Spells.step`), so a run that completes a filter has derived it
  (`State.Spells.run`).
* A run that is refused is refused at a token of the list, the first stop at the latest
  (`run_error`).

Hence `ofTokens` decides the grammar, but for integers of too many digits
(`ofTokens_decides_grammar`). -/

namespace ScimQuery
namespace Filter

/-! ### Lists of tokens -/

/-- The tokens before the first stop. -/
def beforeStop (tokens : List Token) : List Token := tokens.takeWhile (·.kind != .stop)

/-- Whether the last token is a stop. -/
def EndsInStop (tokens : List Token) : Prop := ∃ t, tokens.getLast? = some t ∧ t.kind = .stop

/-- The token that a fault finds where it cannot stand. -/
def Fault.misplaced? : Fault → Option Token
  | .unexpectedToken t => some t
  | .expected _ t => some t
  | .expectedValue t => some t
  | _ => none

/-- A misplaced token is a fault of syntax. -/
theorem isSyntax_of_misplaced? {fault : Fault} {t : Token} (h : fault.misplaced? = some t) :
    fault.isSyntax = true := by
  cases fault with
  | malformedNumber found => cases h
  | tooManyDigits count found => cases h
  | _ => rfl

theorem beforeStop_cons_stop {t : Token} (h : t.kind = .stop) (rest : List Token) :
    beforeStop (t :: rest) = [] := by
  simp [beforeStop, h]

theorem beforeStop_cons {t : Token} (h : t.kind ≠ .stop) (rest : List Token) :
    beforeStop (t :: rest) = t :: beforeStop rest := by
  simp [beforeStop, h]

/-- A list that ends in a stop is the tokens before its first stop, that stop, and more tokens. -/
theorem EndsInStop.split {tokens : List Token} (h : EndsInStop tokens) :
    ∃ t rest, t.kind = .stop ∧ tokens = beforeStop tokens ++ t :: rest := by
  obtain ⟨last, hlast, hkind⟩ := h
  induction tokens with
  | nil => simp at hlast
  | cons u us ih =>
      by_cases hu : u.kind = .stop
      · exact ⟨u, us, hu, by rw [beforeStop_cons_stop hu]; rfl⟩
      · cases us with
        | nil =>
            simp only [List.getLast?_singleton, Option.some.injEq] at hlast
            exact absurd (hlast ▸ hkind) hu
        | cons v vs =>
            rw [List.getLast?_cons_cons] at hlast
            obtain ⟨t, rest, ht, hsplit⟩ := ih hlast
            refine ⟨t, rest, ht, ?_⟩
            rw [beforeStop_cons hu, List.cons_append, ← hsplit]

namespace Parser

namespace State

/-! ### Values -/

/-- A token that is a value is read as that value, unless it is an integer of too many digits. -/
theorem scalar_of_denotes (limit : Nat) {t : Token} {v : Scalar} (h : t.Denotes v) :
    scalar limit t =
      if t.kind = .number ∧ Number.IsOverlong limit t.value.toList then
        .error (.tooManyDigits t.digitCount t)
      else .ok v := by
  cases h with
  | text hk => simp [scalar, hk]
  | truth hk => simp [scalar, hk]
  | null hk => simp [scalar, hk]
  | number hk hl =>
      simp only [scalar, hk, Number.ofNumeral_of_isLiteral limit hl, true_and]
      by_cases ho : Number.IsOverlong limit t.value.toList
      · simp only [if_pos ho]
        rfl
      · simp only [if_neg ho]

theorem read_of_isReadAs {t : Token} {v : Scalar} (h : t.IsReadAs v) : read t = .ok v := by
  rw [read, scalar_of_denotes _ h.1]
  exact if_neg h.2

theorem read_of_isOverlong {t : Token} {v : Scalar} (h : t.Denotes v) (ho : t.IsOverlong) :
    read t = .error (.tooManyDigits t.digitCount t) := by
  rw [read, scalar_of_denotes _ h]
  exact if_pos ho

/-- A token is a value, or none is read of it. -/
theorem denotes_or_scalar_eq {t : Token}
    (hl : t.kind = .number → ∃ n, Number.IsLiteral t.value.toList n) :
    (∃ v, t.Denotes v) ∨ ∀ limit, scalar limit t = .error (.expectedValue t) := by
  cases hk : t.kind with
  | text => exact .inl ⟨_, .text hk⟩
  | number =>
      obtain ⟨n, hn⟩ := hl hk
      exact .inl ⟨_, .number hk hn⟩
  | truth => exact .inl ⟨_, .truth hk⟩
  | null => exact .inl ⟨_, .null hk⟩
  | _ => exact .inr fun limit => by simp [scalar, hk]

/-- A token is read as a value only if it is that value. -/
theorem isReadAs_of_read {t : Token} {v : Scalar}
    (hl : t.kind = .number → ∃ n, Number.IsLiteral t.value.toList n) (h : read t = .ok v) :
    t.IsReadAs v := by
  rcases denotes_or_scalar_eq hl with ⟨w, hw⟩ | hnone
  · by_cases ho : t.IsOverlong
    · rw [read_of_isOverlong hw ho] at h
      cases h
    · rw [read_of_isReadAs ⟨hw, ho⟩, Except.ok.injEq] at h
      exact ⟨h ▸ hw, ho⟩
  · rw [read, hnone] at h
    cases h

/-- What is read of a token where integers may be as long as they are. -/
def readAnyLength (t : Token) : Except Fault Scalar := scalar t.value.toList.length t

theorem readAnyLength_of_denotes {t : Token} {v : Scalar} (h : t.Denotes v) :
    readAnyLength t = .ok v := by
  rw [readAnyLength, scalar_of_denotes _ h]
  exact if_neg fun ho => Nat.not_lt.mpr List.countP_le_length ho.2.2

/-- The limit matters to integers of too many digits only. -/
theorem readAnyLength_eq_read {t : Token}
    (hl : t.kind = .number → ∃ n, Number.IsLiteral t.value.toList n) (h : ¬ t.IsOverlong) :
    readAnyLength t = read t := by
  rcases denotes_or_scalar_eq hl with ⟨v, hv⟩ | hnone
  · rw [readAnyLength_of_denotes hv, read_of_isReadAs ⟨hv, h⟩]
  · rw [readAnyLength, read, hnone, hnone]

/-! ### Steps -/

/-- A bracket that closes a level is no stop. -/
theorem closer_ne_stop (opener : Opener) : opener.closer ≠ .stop := by
  cases opener <;> simp [Opener.closer]

/-- No step reads a stop. -/
theorem step?_stop (s : State) {t : Token} (h : t.kind = .stop) : s.step? t = none := by
  obtain ⟨need, level, outer⟩ := s
  cases need with
  | operand => simp [step?, next?, h]
  | paren => simp [step?, next?, h]
  | relation path => simp [step?, next?, h]
  | value path op => simp [step?, next?, read, scalar, h, Except.toOption]
  | connective f =>
      cases outer with
      | nil => simp [step?, next?, leave?, h]
      | cons frame outer =>
          have hne := (closer_ne_stop frame.1).symm
          simp [step?, next?, leave?, h, hne]

/-- Where a number may stand a value is needed. -/
theorem need_of_next?_number {s s' : State} {t : Token} {value : Except Fault Scalar}
    (hk : t.kind = .number) (h : s.next? t value = some s') :
    ∃ path op, s.need = .value path op := by
  obtain ⟨need, level, outer⟩ := s
  cases need with
  | operand => simp [next?, hk] at h
  | paren => simp [next?, hk] at h
  | relation path => simp [next?, hk] at h
  | value path op => exact ⟨path, op, rfl⟩
  | connective f =>
      cases outer with
      | nil => simp [next?, leave?, hk] at h
      | cons frame outer => cases hc : frame.1 <;> simp [next?, leave?, hk, hc, Opener.closer] at h

theorem ne_stop_of_step? {s s' : State} {t : Token} (h : s.step? t = some s') :
    t.kind ≠ .stop := by
  intro hk
  rw [step?_stop s hk] at h
  cases h

/-- The state after tokens that may all stand where they do, given what they are read as. -/
def advanceWith? (read : Token → Except Fault Scalar) (s : State) : List Token → Option State
  | [] => some s
  | t :: ts => (s.next? t (read t)).bind fun s' => s'.advanceWith? read ts

/-- The state after tokens that may all stand where they do. -/
def advance? (s : State) (ts : List Token) : Option State := s.advanceWith? read ts

theorem advance?_cons (s : State) (t : Token) (ts : List Token) :
    s.advance? (t :: ts) = (s.step? t).bind fun s' => s'.advance? ts := rfl

theorem advanceWith?_append (read : Token → Except Fault Scalar) (s : State) (ts us : List Token) :
    s.advanceWith? read (ts ++ us) =
      (s.advanceWith? read ts).bind fun s' => s'.advanceWith? read us := by
  induction ts generalizing s with
  | nil => rfl
  | cons t ts ih =>
      simp only [List.cons_append, advanceWith?]
      cases s.next? t (read t) with
      | none => rfl
      | some s' => exact ih s'

theorem advance?_append (s : State) (ts us : List Token) :
    s.advance? (ts ++ us) = (s.advance? ts).bind fun s' => s'.advance? us :=
  advanceWith?_append read s ts us

theorem advanceWith?_congr {read read' : Token → Except Fault Scalar} {ts : List Token}
    (h : ∀ t ∈ ts, read t = read' t) (s : State) :
    s.advanceWith? read ts = s.advanceWith? read' ts := by
  induction ts generalizing s with
  | nil => rfl
  | cons t ts ih =>
      simp only [advanceWith?, h t List.mem_cons_self]
      cases s.next? t (read' t) with
      | none => rfl
      | some s' => exact ih (fun u hu => h u (List.mem_cons_of_mem t hu)) s'

theorem ne_stop_of_advance? {s s' : State} {ts : List Token} (h : s.advance? ts = some s') :
    ∀ t ∈ ts, t.kind ≠ .stop := by
  induction ts generalizing s with
  | nil => simp
  | cons t ts ih =>
      obtain ⟨s₁, hs, hrest⟩ := Option.bind_eq_some_iff.mp h
      intro u hu
      rcases List.mem_cons.mp hu with rfl | hu
      · exact ne_stop_of_step? hs
      · exact ih hrest u hu

/-- A run goes on where the tokens that it has read leave off. -/
theorem run_append {s s' : State} {ts : List Token} (h : s.advance? ts = some s')
    (rest : List Token) : run s (ts ++ rest) = run s' rest := by
  induction ts generalizing s with
  | nil =>
      obtain rfl := Option.some.inj h
      rfl
  | cons t ts ih =>
      rw [advance?_cons] at h
      cases hs : s.step? t with
      | none => simp [hs] at h
      | some s₁ =>
          rw [hs] at h
          rw [List.cons_append, run, if_neg (ne_stop_of_step? hs), hs]
          exact ih h

end State

/-! ### Completeness -/

section Completeness

variable {Value : Token → Scalar → Prop} {read : Token → Except Fault Scalar}

/-- The machine reads a phrase: over its tokens it advances from needing an operand to holding the
filter.  A conjunction starts where no conjunct waits and may leave one waiting; a filter starts on
a level of its own. -/
def Reads (read : Token → Except Fault Scalar) : Phrase → List Token → Filter → Prop
  | .filter, ts, f => ∃ (g : Filter) (level : Level), level.whole g = f ∧ ∀ outer,
      State.advanceWith? read ⟨.operand, .start, outer⟩ ts = some ⟨.connective g, level, outer⟩
  | .conjunction, ts, f => ∃ (g : Filter) (left : Option Filter),
      Level.conjunction ⟨none, left⟩ g = f ∧ ∀ disjunct outer,
        State.advanceWith? read ⟨.operand, ⟨disjunct, none⟩, outer⟩ ts =
          some ⟨.connective g, ⟨disjunct, left⟩, outer⟩
  | _, ts, f => ∀ level outer,
      State.advanceWith? read ⟨.operand, level, outer⟩ ts = some ⟨.connective f, level, outer⟩

/-- Between brackets the machine reads a filter, and goes on with what it means in them. -/
theorem advanceWith?_brackets {ts : List Token} {f : Filter} (h : Reads read .filter ts f) {c : Token}
    (opener : Opener) (hc : c.kind = opener.closer) (level : Level)
    (outer : List (Opener × Level)) :
    State.advanceWith? read ⟨.operand, .start, (opener, level) :: outer⟩ (ts ++ [c]) =
      some ⟨.connective (opener.wrap f), level, outer⟩ := by
  obtain ⟨g, inner, rfl, hg⟩ := h
  rw [State.advanceWith?_append, hg]
  have hstep : State.next? ⟨.connective g, inner, (opener, level) :: outer⟩ c (read c) =
      some ⟨.connective (opener.wrap (inner.whole g)), level, outer⟩ := by
    cases opener <;> simp only [Opener.closer] at hc <;>
      simp [State.next?, State.leave?, Opener.closer, hc]
  simp only [Option.bind_some, State.advanceWith?, hstep]

/-- The machine reads every phrase of the grammar, if the values of the rules are read as such. -/
theorem reads_of_derives (hread : ∀ t v, Value t v → read t = .ok v) {p : Phrase} {ts : List Token}
    {f : Filter} (h : Derives Value p ts f) : Reads read p ts f := by
  induction h with
  | conjunction _ ih =>
      obtain ⟨g, left, hf, hg⟩ := ih
      exact ⟨g, ⟨none, left⟩, hf, fun outer => hg none outer⟩
  | @or ts us t l r _ ht _ ihl ihr =>
      obtain ⟨g, level, rfl, hg⟩ := ihl
      obtain ⟨g', left, rfl, hg'⟩ := ihr
      refine ⟨g', ⟨some (level.whole g), left⟩, rfl, fun outer => ?_⟩
      rw [State.advanceWith?_append, hg outer, Option.bind_some]
      simp only [State.advanceWith?, State.next?, ht, State.join, Level.join, Option.bind_some]
      exact hg' _ outer
  | operand _ ih => exact ⟨_, none, rfl, fun disjunct outer => ih ⟨disjunct, none⟩ outer⟩
  | @and ts us t l r _ ht _ ihl ihr =>
      obtain ⟨g, left, rfl, hg⟩ := ihl
      refine ⟨r, some (Level.conjunction ⟨none, left⟩ g), rfl, fun disjunct outer => ?_⟩
      rw [State.advanceWith?_append, hg disjunct outer, Option.bind_some]
      simp only [State.advanceWith?, State.next?, ht, State.join, Level.join, Option.bind_some]
      exact ihr _ outer
  | comparison _ ih => exact ih
  | not hn ho _ hc ih =>
      intro level outer
      simp only [State.advanceWith?, State.next?, hn, ho, State.enter, Option.bind_some]
      exact advanceWith?_brackets ih .negation hc level outer
  | group ho _ hc ih =>
      intro level outer
      simp only [State.advanceWith?, State.next?, ho, State.enter, Option.bind_some]
      exact advanceWith?_brackets ih .group hc level outer
  | items ha ho _ hc ih =>
      intro level outer
      simp only [State.advanceWith?, State.next?, ha, ho, State.enter, Option.bind_some]
      exact advanceWith?_brackets ih (.items _) hc level outer
  | present ha hp =>
      intro level outer
      simp only [State.advanceWith?, State.next?, ha, hp, State.operand, Option.bind_some]
  | value ha ho hv =>
      intro level outer
      simp only [State.advanceWith?, State.next?, ha, ho, hread _ _ hv, Except.toOption,
        State.operand, Option.bind_some, Option.map_some]

/-- Tokens are read as one filter. -/
theorem Reads.unique {ts : List Token} {f g : Filter} (hf : Reads read .filter ts f)
    (hg : Reads read .filter ts g) : f = g := by
  obtain ⟨a, level, rfl, ha⟩ := hf
  obtain ⟨b, level', rfl, hb⟩ := hg
  have h := (ha []).symm.trans (hb [])
  simp only [Option.some.injEq, State.mk.injEq, Need.connective.injEq, and_true] at h
  rw [h.1, h.2]

end Completeness

/-- The machine completes every filter that the rules derive without integers of too many digits,
whatever follows the stop. -/
theorem run_of_derives {ts : List Token} {f : Filter} (h : Derives Token.IsReadAs .filter ts f)
    {t : Token} (ht : t.kind = .stop) (rest : List Token) :
    run .start (ts ++ t :: rest) = .ok f := by
  obtain ⟨g, level, rfl, hg⟩ := reads_of_derives (fun _ _ hv => State.read_of_isReadAs hv) h
  rw [State.start, State.run_append (hg [])]
  simp [run, ht, State.result?]

/-! ### Soundness -/

/-- The tokens of a left side that waits after a connective for its right side, where one does. -/
def Waits (p : Phrase) (connective : TokenKind) : Option Filter → List Token → Prop
  | none, ts => ts = []
  | some f, ts => ∃ us t, ts = us ++ [t] ∧ Derives Token.IsReadAs p us f ∧ t.kind = connective

/-- The tokens of what waits on a level. -/
def Level.Spells (level : Level) (ts : List Token) : Prop :=
  ∃ us vs, ts = us ++ vs ∧ Waits .filter .or level.disjunct us ∧
    Waits .conjunction .and level.conjunct vs

/-- The tokens that open a level. -/
def Opener.Spells : Opener → List Token → Prop
  | .group, ts => ∃ o, ts = [o] ∧ o.kind = .openParen
  | .negation, ts => ∃ n o, ts = [n, o] ∧ n.kind = .not ∧ o.kind = .openParen
  | .items path, ts =>
    ∃ a o, ts = [a, o] ∧ a.kind = .attribute ∧ a.value = path ∧ o.kind = .openBracket

/-- The tokens of the levels around the one being read, with what opened the levels inside. -/
def OuterSpells : List (Opener × Level) → List Token → Prop
  | [], ts => ts = []
  | (opener, level) :: outer, ts =>
    ∃ us vs ws, ts = us ++ (vs ++ ws) ∧ OuterSpells outer us ∧ level.Spells vs ∧ opener.Spells ws

/-- The tokens of the operand being read. -/
def Need.Spells : Need → List Token → Prop
  | .operand, ts => ts = []
  | .paren, ts => ∃ n, ts = [n] ∧ n.kind = .not
  | .relation path, ts => ∃ a, ts = [a] ∧ a.kind = .attribute ∧ a.value = path
  | .value path op, ts =>
    ∃ a o, ts = [a, o] ∧ a.kind = .attribute ∧ a.value = path ∧ o.kind = .operator ∧
      Operator.ofName o.value = op
  | .connective f, ts => Derives Token.IsReadAs .operand ts f

/-- The tokens that a state has read: those of the levels around, of what waits on this level, and
of the operand being read. -/
def State.Spells (s : State) (ts : List Token) : Prop :=
  ∃ us vs ws, ts = us ++ (vs ++ ws) ∧ OuterSpells s.outer us ∧ s.level.Spells vs ∧
    s.need.Spells ws

theorem Level.spells_start : Level.start.Spells [] := ⟨[], [], rfl, rfl, rfl⟩

theorem State.spells_start : State.start.Spells [] :=
  ⟨[], [], [], rfl, rfl, Level.spells_start, rfl⟩

/-- An operand after what waits for it in a conjunction is a conjunction. -/
theorem Waits.conjunction {level : Level} {vs ws : List Token} {f : Filter}
    (hv : Waits .conjunction .and level.conjunct vs) (hw : Derives Token.IsReadAs .operand ws f) :
    Derives Token.IsReadAs .conjunction (vs ++ ws) (level.conjunction f) := by
  obtain ⟨disjunct, conjunct⟩ := level
  cases conjunct with
  | none =>
      obtain rfl : vs = [] := hv
      exact .operand hw
  | some left =>
      obtain ⟨us, t, rfl, hl, ht⟩ := hv
      rw [List.append_assoc]
      exact .and hl ht hw

/-- An operand after what waits for it on a level is a filter. -/
theorem Level.Spells.whole {level : Level} {vs ws : List Token} {f : Filter}
    (hv : level.Spells vs) (hw : Derives Token.IsReadAs .operand ws f) :
    Derives Token.IsReadAs .filter (vs ++ ws) (level.whole f) := by
  obtain ⟨us, vs, rfl, hu, hv⟩ := hv
  have hc := hv.conjunction hw
  obtain ⟨disjunct, conjunct⟩ := level
  rw [List.append_assoc]
  cases disjunct with
  | none =>
      obtain rfl : us = [] := hu
      exact .conjunction hc
  | some left =>
      obtain ⟨us, t, rfl, hl, ht⟩ := hu
      rw [List.append_assoc]
      exact .or hl ht hc

/-- After an operand and a connective, what waits on the level is spelled by all of it. -/
theorem Level.Spells.join {level : Level} {vs ws : List Token} {f : Filter} {t : Token}
    (hv : level.Spells vs) (hw : Derives Token.IsReadAs .operand ws f) (op : Connective)
    (ht : t.kind = match op with | .and => .and | .or => .or) :
    (level.join f op).Spells (vs ++ (ws ++ [t])) := by
  cases op with
  | and =>
      obtain ⟨us, vs, rfl, hu, hv⟩ := hv
      refine ⟨us, vs ++ (ws ++ [t]), by rw [List.append_assoc], hu, vs ++ ws, t, ?_, ?_, ht⟩
      · rw [List.append_assoc]
      · exact hv.conjunction hw
  | or =>
      refine ⟨vs ++ (ws ++ [t]), [], by rw [List.append_nil], ⟨vs ++ ws, t, ?_, ?_, ht⟩, rfl⟩
      · rw [List.append_assoc]
      · exact hv.whole hw

/-- A filter between the tokens that open a level and the one that closes it is an operand. -/
theorem Opener.Spells.wrap {opener : Opener} {ws ts : List Token} {f : Filter} {c : Token}
    (hw : opener.Spells ws) (hf : Derives Token.IsReadAs .filter ts f) (hc : c.kind = opener.closer) :
    Derives Token.IsReadAs .operand (ws ++ (ts ++ [c])) (opener.wrap f) := by
  cases opener with
  | group =>
      obtain ⟨o, rfl, ho⟩ := hw
      exact .group ho hf hc
  | negation =>
      obtain ⟨n, o, rfl, hn, ho⟩ := hw
      exact .not hn ho hf hc
  | items path =>
      obtain ⟨a, o, rfl, ha, rfl, ho⟩ := hw
      exact .comparison (.items ha ho hf hc)

/-- A bracket that opens a level starts an operand with nothing read yet. -/
theorem State.Spells.enter {s : State} {us vs ws : List Token} {opener : Opener}
    (hu : OuterSpells s.outer us) (hv : s.level.Spells vs) (hw : opener.Spells ws) :
    (s.enter opener).Spells (us ++ (vs ++ ws)) := by
  refine ⟨us ++ (vs ++ ws), [], [], by simp, ⟨us, vs, ws, rfl, hu, hv, hw⟩, ?_, rfl⟩
  exact Level.spells_start

/-- The state after a bracket that closes a level has read the level as an operand. -/
theorem State.Spells.leave {s s' : State} {us vs ws : List Token} {f : Filter} {c : Token}
    (hu : OuterSpells s.outer us) (hv : s.level.Spells vs) (hw : Derives Token.IsReadAs .operand ws f)
    (h : s.leave? f c.kind = some s') : s'.Spells (us ++ (vs ++ (ws ++ [c]))) := by
  obtain ⟨need, level, outer⟩ := s
  cases outer with
  | nil => cases h
  | cons frame outer =>
      obtain ⟨opener, around⟩ := frame
      simp only [State.leave?] at h
      split at h
      · rename_i hc
        obtain rfl := Option.some.inj h
        obtain ⟨us, vs', ws', rfl, hu, hv', hw'⟩ := hu
        refine ⟨us, vs', ws' ++ ((vs ++ ws) ++ [c]), by simp, hu, hv', ?_⟩
        exact hw'.wrap (hv.whole hw) hc
      · cases h

/-- A step goes on with what the state has read. -/
theorem State.Spells.step {s s' : State} {ts : List Token} {t : Token} (h : s.Spells ts)
    (hl : t.kind = .number → ∃ n, Number.IsLiteral t.value.toList n) (hs : s.step? t = some s') :
    s'.Spells (ts ++ [t]) := by
  obtain ⟨need, level, outer⟩ := s
  obtain ⟨us, vs, ws, rfl, hu, hv, hw⟩ := h
  simp only [List.append_assoc]
  cases need with
  | operand =>
      obtain rfl : ws = [] := hw
      simp only [State.step?, State.next?] at hs
      split at hs <;> rename_i hk
      · obtain rfl := Option.some.inj hs
        exact ⟨us, vs, [t], rfl, hu, hv, t, rfl, hk⟩
      · obtain rfl := Option.some.inj hs
        exact State.Spells.enter hu hv ⟨t, rfl, hk⟩
      · obtain rfl := Option.some.inj hs
        exact ⟨us, vs, [t], rfl, hu, hv, t, rfl, hk, rfl⟩
      · cases hs
  | paren =>
      obtain ⟨n, rfl, hn⟩ := hw
      simp only [State.step?, State.next?] at hs
      split at hs <;> rename_i hk
      · obtain rfl := Option.some.inj hs
        exact State.Spells.enter hu hv ⟨n, t, rfl, hn, hk⟩
      · cases hs
  | relation path =>
      obtain ⟨a, rfl, ha, rfl⟩ := hw
      simp only [State.step?, State.next?] at hs
      split at hs <;> rename_i hk
      · obtain rfl := Option.some.inj hs
        exact State.Spells.enter hu hv ⟨a, t, rfl, ha, rfl, hk⟩
      · obtain rfl := Option.some.inj hs
        exact ⟨us, vs, [a, t], rfl, hu, hv, .comparison (.present ha hk)⟩
      · obtain rfl := Option.some.inj hs
        exact ⟨us, vs, [a, t], rfl, hu, hv, a, t, rfl, ha, rfl, hk, rfl⟩
      · cases hs
  | value path op =>
      obtain ⟨a, o, rfl, ha, rfl, ho, rfl⟩ := hw
      cases hread : State.read t with
      | error fault => simp [State.step?, State.next?, hread, Except.toOption] at hs
      | ok v =>
          simp only [State.step?, State.next?, hread, Except.toOption, Option.map_some,
            Option.some.injEq] at hs
          subst hs
          have hd := State.isReadAs_of_read hl hread
          exact ⟨us, vs, [a, o, t], rfl, hu, hv, .comparison (.value ha ho hd)⟩
  | connective f =>
      simp only [State.step?, State.next?] at hs
      split at hs
      · rename_i hk
        obtain rfl := Option.some.inj hs
        exact ⟨us, vs ++ (ws ++ [t]), [], by simp, hu, hv.join hw .and hk, rfl⟩
      · rename_i hk
        obtain rfl := Option.some.inj hs
        exact ⟨us, vs ++ (ws ++ [t]), [], by simp, hu, hv.join hw .or hk, rfl⟩
      · exact State.Spells.leave hu hv hw hs

/-- A state that holds a complete filter has read that filter. -/
theorem State.Spells.result {s : State} {ts : List Token} {f : Filter} (h : s.Spells ts)
    (hr : s.result? = some f) : Derives Token.IsReadAs .filter ts f := by
  obtain ⟨need, level, outer⟩ := s
  obtain ⟨us, vs, ws, rfl, hu, hv, hw⟩ := h
  unfold State.result? at hr
  split at hr
  · rename_i hneed houter
    obtain rfl : need = _ := hneed
    obtain rfl : outer = [] := houter
    obtain rfl := Option.some.inj hr
    obtain rfl : us = [] := hu
    exact hv.whole hw
  · cases hr

/-- A run that completes a filter has read it, up to the first stop. -/
theorem State.Spells.run {s : State} {ts us : List Token} {f : Filter} (h : s.Spells ts)
    (hl : HoldLiterals us) (hr : Parser.run s us = .ok f) :
    Derives Token.IsReadAs .filter (ts ++ beforeStop us) f := by
  induction us generalizing s ts with
  | nil => cases hr
  | cons u us ih =>
      by_cases hu : u.kind = .stop
      · rw [Parser.run, if_pos hu] at hr
        rw [beforeStop_cons_stop hu, List.append_nil]
        cases hres : s.result? with
        | none => simp [hres] at hr
        | some g =>
            simp only [hres, Except.ok.injEq] at hr
            exact h.result (hr ▸ hres)
      · rw [Parser.run, if_neg hu] at hr
        cases hs : s.step? u with
        | none => simp [hs] at hr
        | some s' =>
            simp only [hs] at hr
            have hread := ih (h.step (hl u (by simp)) hs) (fun v hv => hl v (by simp [hv])) hr
            rw [beforeStop_cons hu]
            simpa using hread

/-! ### Refusals -/

/-- A token that a state does not read is the one that its fault finds misplaced, or an integer of too
many digits. -/
theorem State.fault_cases {s : State} {t : Token}
    (hl : t.kind = .number → ∃ n, Number.IsLiteral t.value.toList n) (hs : s.step? t = none) :
    (s.fault t).misplaced? = some t ∨
      t.IsOverlong ∧ s.fault t = .tooManyDigits t.digitCount t := by
  obtain ⟨need, level, outer⟩ := s
  cases need with
  | operand => exact .inl rfl
  | paren => exact .inl rfl
  | relation path => exact .inl rfl
  | value path op =>
      rcases State.denotes_or_scalar_eq hl with ⟨v, hv⟩ | hnone
      · by_cases ho : t.IsOverlong
        · refine .inr ⟨ho, ?_⟩
          simp only [State.fault, State.read_of_isOverlong hv ho]
        · simp [State.step?, State.next?, State.read_of_isReadAs ⟨hv, ho⟩, Except.toOption] at hs
      · have hread : State.read t = .error (.expectedValue t) := hnone _
        left
        simp only [State.fault, hread, Fault.misplaced?]
  | connective f =>
      cases outer with
      | nil => exact .inl rfl
      | cons frame outer => exact .inl rfl

/-- `s.Refuses t`: a run from `s` is refused at the token `t`. -/
def State.Refuses (s : State) (t : Token) : Prop :=
  s.step? t = none ∧ (t.kind = .stop → s.result? = none)

/-- What follows a token does not change that it is refused. -/
theorem run_of_refuses {s : State} {t : Token} (h : s.Refuses t) (rest : List Token) :
    run s (t :: rest) = .error (s.fault t) := by
  obtain ⟨hstep, hresult⟩ := h
  by_cases hk : t.kind = .stop
  · rw [run, if_pos hk, hresult hk]
  · rw [run, if_neg hk, hstep]

/-- A run over a list with a stop is refused at a token, all before which it has read. -/
theorem exists_refuses {s : State} {us : List Token} {fault : Fault}
    (hstop : ∃ t ∈ us, t.kind = .stop) (hr : run s us = .error fault) :
    ∃ before t after s', us = before ++ t :: after ∧ s.advance? before = some s' ∧
      s'.Refuses t ∧ fault = s'.fault t := by
  induction us generalizing s with
  | nil =>
      obtain ⟨t, ht, _⟩ := hstop
      cases ht
  | cons u us ih =>
      by_cases hu : u.kind = .stop
      · rw [run, if_pos hu] at hr
        cases hres : s.result? with
        | some f => simp [hres] at hr
        | none =>
            simp only [hres, Except.error.injEq] at hr
            exact ⟨[], u, us, s, rfl, rfl, ⟨s.step?_stop hu, fun _ => hres⟩, hr.symm⟩
      · rw [run, if_neg hu] at hr
        cases hs : s.step? u with
        | none =>
            simp only [hs, Except.error.injEq] at hr
            exact ⟨[], u, us, s, rfl, rfl, ⟨hs, fun hk => absurd hk hu⟩, hr.symm⟩
        | some s₁ =>
            have hrest : ∃ t ∈ us, t.kind = .stop := by
              obtain ⟨t, ht, hk⟩ := hstop
              rcases List.mem_cons.mp ht with rfl | ht
              · exact absurd hk hu
              · exact ⟨t, ht, hk⟩
            simp only [hs] at hr
            obtain ⟨before, t, after, s', rfl, hadvance, href, hfault⟩ := ih hrest hr
            refine ⟨u :: before, t, after, s', rfl, ?_, href, hfault⟩
            rw [State.advance?_cons, hs, Option.bind_some, hadvance]

/-- Tokens that derive a filter and hold an integer of too many digits are refused at the first of
these.  A reader of integers of any length gets past it, so a value is needed there. -/
theorem refuses_isOverlong {ts : List Token} {f : Filter}
    (h : Derives Token.Denotes .filter ts f) (hover : ∃ t ∈ ts, t.IsOverlong) :
    ∃ before t after s, ts = before ++ t :: after ∧ (∀ u ∈ before, ¬ u.IsOverlong) ∧
      t.IsOverlong ∧ State.start.advance? before = some s ∧ s.Refuses t ∧
      s.fault t = .tooManyDigits t.digitCount t := by
  obtain ⟨g, level, -, hg⟩ := reads_of_derives (fun _ _ hv => State.readAnyLength_of_denotes hv) h
  have hl := h.holdLiterals
  obtain ⟨t, hfind⟩ : ∃ t, ts.find? (fun t => decide t.IsOverlong) = some t :=
    Option.isSome_iff_exists.mp (List.find?_isSome.mpr (by simpa using hover))
  obtain ⟨ho, before, after, rfl, hbefore⟩ := List.find?_eq_some_iff_append.mp hfind
  have ho : t.IsOverlong := of_decide_eq_true ho
  have hbefore : ∀ u ∈ before, ¬ u.IsOverlong := by simpa using hbefore
  have hadvance := hg []
  rw [State.advanceWith?_append, Option.bind_eq_some_iff] at hadvance
  obtain ⟨s, hs, hrest⟩ := hadvance
  rw [State.advanceWith?_congr fun u hu =>
    State.readAnyLength_eq_read (hl u (by simp [hu])) (hbefore u hu)] at hs
  obtain ⟨s', hnext, -⟩ := Option.bind_eq_some_iff.mp hrest
  obtain ⟨path, op, hneed⟩ := State.need_of_next?_number ho.1 hnext
  obtain ⟨n, hn⟩ := hl t (by simp) ho.1
  have hread := State.read_of_isOverlong (.number ho.1 hn) ho
  refine ⟨before, t, after, s, rfl, hbefore, ho, hs, ⟨?_, fun hstop => ?_⟩, ?_⟩
  · simp only [State.step?, State.next?, hneed, hread, Except.toOption, Option.map_none]
  · rw [ho.1] at hstop
    cases hstop
  · simp only [State.fault, hneed, hread]

/-- A run over a list with a stop that completes no filter is refused at one of the tokens up to
the first stop. -/
theorem run_error {s : State} {us : List Token} (hl : HoldLiterals us)
    (hstop : ∃ t ∈ us, t.kind = .stop) (hr : ∀ f, run s us ≠ .ok f) :
    ∃ before t after fault, us = before ++ t :: after ∧ (∀ u ∈ before, u.kind ≠ .stop) ∧
      run s us = .error fault ∧
      (fault.misplaced? = some t ∨ t.IsOverlong ∧ fault = .tooManyDigits t.digitCount t) := by
  cases hrun : run s us with
  | ok f => exact absurd hrun (hr f)
  | error fault =>
      obtain ⟨before, t, after, s', rfl, hadvance, href, rfl⟩ := exists_refuses hstop hrun
      refine ⟨before, t, after, _, rfl, State.ne_stop_of_advance? hadvance, rfl, ?_⟩
      exact State.fault_cases (hl t (by simp)) href.1

end Parser

/-! ### The parser and the grammar -/

theorem ofTokens_of_endsInStop {tokens : List Token} (h : EndsInStop tokens) :
    ofTokens tokens = Parser.run .start tokens := by
  obtain ⟨t, ht, hk⟩ := h
  simp [ofTokens, ht, hk]

theorem ofTokens_of_not_endsInStop {tokens : List Token} (h : ¬ EndsInStop tokens) :
    ofTokens tokens = .error .noStop := by
  unfold ofTokens
  split
  · rename_i t ht
    rw [if_neg fun hk => h ⟨t, ht, hk⟩]
  · rfl

/-- The parser answers with every filter that the rules derive from the tokens before the first
stop. -/
theorem ofTokens_of_derives {tokens : List Token} (h : EndsInStop tokens) {f : Filter}
    (hf : Derives Token.IsReadAs .filter (beforeStop tokens) f) : ofTokens tokens = .ok f := by
  obtain ⟨t, rest, ht, hsplit⟩ := h.split
  rw [ofTokens_of_endsInStop h, hsplit]
  exact Parser.run_of_derives hf ht rest

/-- The parser answers only with filters that the rules derive. -/
theorem derives_of_ofTokens {tokens : List Token} (hl : HoldLiterals tokens) {f : Filter}
    (hf : ofTokens tokens = .ok f) :
    EndsInStop tokens ∧ Derives Token.IsReadAs .filter (beforeStop tokens) f := by
  by_cases h : EndsInStop tokens
  · rw [ofTokens_of_endsInStop h] at hf
    exact ⟨h, Parser.State.spells_start.run hl hf⟩
  · rw [ofTokens_of_not_endsInStop h] at hf
    cases hf

/-- The first integer of too many digits in a filter is what the parser refuses the filter for. -/
theorem ofTokens_of_isOverlong {tokens : List Token} (h : EndsInStop tokens) {f : Filter}
    (hf : Derives Token.Denotes .filter (beforeStop tokens) f)
    (hover : ∃ t ∈ beforeStop tokens, t.IsOverlong) :
    ∃ before t after, tokens = before ++ t :: after ∧
      (∀ u ∈ before, u.kind ≠ .stop ∧ ¬ u.IsOverlong) ∧ t.IsOverlong ∧
      ofTokens tokens = .error (.tooManyDigits t.digitCount t) := by
  obtain ⟨stop, rest, -, hsplit⟩ := h.split
  obtain ⟨before, t, after, s, hts, hbefore, ho, hread, href, hfault⟩ :=
    Parser.refuses_isOverlong hf hover
  have htokens : tokens = before ++ t :: (after ++ stop :: rest) := by
    rw [hsplit, hts, List.append_assoc, List.cons_append]
  refine ⟨before, t, _, htokens,
    fun u hu => ⟨Parser.State.ne_stop_of_advance? hread u hu, hbefore u hu⟩, ho, ?_⟩
  rw [ofTokens_of_endsInStop h, htokens, Parser.State.run_append hread,
    Parser.run_of_refuses href, hfault]

/-- Tokens derive at most one filter, since a machine that reads integers of any length gives one
answer. -/
theorem Derives.unique {ts : List Token} {f g : Filter} (hf : Derives Token.Denotes .filter ts f)
    (hg : Derives Token.Denotes .filter ts g) : f = g := by
  have hread : ∀ t v, Token.Denotes t v → Parser.State.readAnyLength t = .ok v :=
    fun _ _ hv => Parser.State.readAnyLength_of_denotes hv
  exact (Parser.reads_of_derives hread hf).unique (Parser.reads_of_derives hread hg)

/-- The parser decides the grammar, but for integers of too many digits.  For tokens whose numbers are
literals:

* it answers with a filter exactly when the list ends in a stop, the rules derive the filter from the
  tokens before the first stop, and none of these is an integer of too many digits;
* they derive at most one;
* where they derive one and some integers have too many digits, the first of these is refused as such;
* where they derive none, the parser refuses one of the tokens up to the first stop, having read all
  before it: as misplaced, or as an integer of too many digits that it comes to before;
* a list that does not end in a stop is refused as such. -/
theorem ofTokens_decides_grammar {tokens : List Token} (hl : HoldLiterals tokens) :
    (∀ f, ofTokens tokens = .ok f ↔
      EndsInStop tokens ∧ Derives Token.Denotes .filter (beforeStop tokens) f ∧
        ∀ t ∈ beforeStop tokens, ¬ t.IsOverlong) ∧
    (∀ f g, Derives Token.Denotes .filter (beforeStop tokens) f →
      Derives Token.Denotes .filter (beforeStop tokens) g → f = g) ∧
    (EndsInStop tokens → (∃ f, Derives Token.Denotes .filter (beforeStop tokens) f) →
      (∃ t ∈ beforeStop tokens, t.IsOverlong) →
      ∃ before t after, tokens = before ++ t :: after ∧
        (∀ u ∈ before, u.kind ≠ .stop ∧ ¬ u.IsOverlong) ∧ t.IsOverlong ∧
        ofTokens tokens = .error (.tooManyDigits t.digitCount t)) ∧
    (EndsInStop tokens → (∀ f, ¬ Derives Token.Denotes .filter (beforeStop tokens) f) →
      ∃ before t after fault, tokens = before ++ t :: after ∧ (∀ u ∈ before, u.kind ≠ .stop) ∧
        ofTokens tokens = .error fault ∧
        (fault.misplaced? = some t ∨ t.IsOverlong ∧ fault = .tooManyDigits t.digitCount t)) ∧
    (¬ EndsInStop tokens → ofTokens tokens = .error .noStop) := by
  refine ⟨fun f => ⟨fun h => ?_, fun h => ?_⟩, fun f g => Derives.unique,
    fun h ⟨f, hf⟩ => ofTokens_of_isOverlong h hf, fun h hnone => ?_, ofTokens_of_not_endsInStop⟩
  · obtain ⟨hstop, hd⟩ := derives_of_ofTokens hl h
    exact ⟨hstop, derives_isReadAs_iff.mp hd⟩
  · exact ofTokens_of_derives h.1 (derives_isReadAs_iff.mpr h.2)
  · obtain ⟨t, rest, ht, hsplit⟩ := h.split
    have hstop : ∃ t ∈ tokens, t.kind = .stop := ⟨t, by rw [hsplit]; simp, ht⟩
    have hrun : ∀ f, Parser.run .start tokens ≠ .ok f := by
      intro f hf
      rw [← ofTokens_of_endsInStop h] at hf
      exact hnone f (derives_isReadAs_iff.mp (derives_of_ofTokens hl hf).2).1
    rw [ofTokens_of_endsInStop h]
    exact Parser.run_error hl hstop hrun

/-- Tokens after an inner stop are not read: `a eq -5` is what this list writes. -/
theorem ofTokens_decides_grammar_inner_stop :
    HoldLiterals [⟨.attribute, "a", 0⟩, ⟨.operator, "eq", 2⟩, ⟨.number, "-5", 5⟩, ⟨.stop, "", 7⟩,
      ⟨.closeParen, ")", 8⟩, ⟨.stop, "", 9⟩] ∧
    Derives Token.Denotes .filter
      [⟨.attribute, "a", 0⟩, ⟨.operator, "eq", 2⟩, ⟨.number, "-5", 5⟩]
      (.compare "a" .equal (.number (.integer (-5)))) := by
  have hl : HoldLiterals [⟨.attribute, "a", 0⟩, ⟨.operator, "eq", 2⟩, ⟨.number, "-5", 5⟩,
      ⟨.stop, "", 7⟩, ⟨.closeParen, ")", 8⟩, ⟨.stop, "", 9⟩] := by
    intro t ht hk
    simp only [List.mem_cons, List.not_mem_nil, or_false] at ht
    rcases ht with rfl | rfl | rfl | rfl | rfl | rfl <;> cases hk
    exact ⟨.integer (-5), .integer true (⟨by simp, by simp [Number.isDigit]⟩ : Number.AreDigits ['5'])⟩
  exact ⟨hl, (((ofTokens_decides_grammar hl).1 _).mp rfl).2.1⟩

/-- The tokens of `a eq` and the first integer of too many digits. -/
def overlongTokens : List Token := [⟨.attribute, "a", 0⟩, ⟨.operator, "eq", 2⟩,
  ⟨.number, toString Number.firstOverlong, 5⟩, ⟨.stop, "", 4306⟩]

/-- The rules derive a filter from tokens that the parser refuses, for no fault of syntax. -/
theorem not_ofTokens_of_derives :
    HoldLiterals overlongTokens ∧ EndsInStop overlongTokens ∧
    Derives Token.Denotes .filter (beforeStop overlongTokens)
      (.compare "a" .equal (.number (.integer Number.firstOverlong))) ∧
    ∃ fault, ofTokens overlongTokens = .error fault ∧ fault.isSyntax = false := by
  have hliteral := Number.isLiteral_toString Number.firstOverlong
  have hl : HoldLiterals overlongTokens := by
    intro t ht hk
    simp only [overlongTokens, List.mem_cons, List.not_mem_nil, or_false] at ht
    rcases ht with rfl | rfl | rfl | rfl <;> cases hk
    exact ⟨_, hliteral⟩
  have hstop : EndsInStop overlongTokens := ⟨⟨.stop, "", 4306⟩, rfl, rfl⟩
  have hd : Derives Token.Denotes .filter (beforeStop overlongTokens)
      (.compare "a" .equal (.number (.integer Number.firstOverlong))) :=
    .conjunction (.operand (.comparison (.value (a := ⟨.attribute, "a", 0⟩)
      (o := ⟨.operator, "eq", 2⟩) rfl rfl (.number rfl hliteral))))
  have hover : ∃ t ∈ beforeStop overlongTokens, t.IsOverlong :=
    ⟨⟨.number, toString Number.firstOverlong, 5⟩, by simp [overlongTokens, beforeStop], rfl,
      Number.isOverlong_firstOverlong⟩
  obtain ⟨_, _, _, _, _, _, hrefused⟩ := ofTokens_of_isOverlong hstop hd hover
  exact ⟨hl, hstop, hd, _, hrefused, rfl⟩

end Filter
end ScimQuery
