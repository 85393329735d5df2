import ScimQuery.Proofs.Filter.Machine

/-! # Where filters are refused

A list of tokens is refused at the first token that leaves nothing to hope for.

* What the machine has read can always be gone on with: `State.completion` finishes the operand being
  read and closes the levels around it, and brings every state to a complete filter
  (`exists_run_completion`).
* A token that the machine refuses is refused whatever follows it (`run_of_refuses`).

So the tokens before the one that a refusal is about start a list that is accepted, and with that
token they start none (`refused_where_hopeless`). -/

namespace ScimQuery
namespace Filter

/-- Whether the last token of a list is a stop and no other is. -/
def StopsOnce (tokens : List Token) : Prop :=
  ∃ before t, tokens = before ++ [t] ∧ t.kind = .stop ∧ ∀ u ∈ before, u.kind ≠ .stop

theorem StopsOnce.endsInStop {tokens : List Token} (h : StopsOnce tokens) : EndsInStop tokens := by
  obtain ⟨before, t, rfl, ht, -⟩ := h
  exact ⟨t, List.getLast?_concat, ht⟩

/-- An accepted list ends in a stop, and is what the machine completes. -/
theorem run_of_ofTokens {tokens : List Token} {f : Filter} (h : ofTokens tokens = .ok f) :
    Parser.run .start tokens = .ok f := by
  by_cases hstop : EndsInStop tokens
  · rwa [ofTokens_of_endsInStop hstop] at h
  · rw [ofTokens_of_not_endsInStop hstop] at h
    cases h

namespace Parser

/-! ### Completions -/

/-- A token that closes a level. -/
def Opener.closing : Opener → Token
  | .group => ⟨.closeParen, ")", 0⟩
  | .negation => ⟨.closeParen, ")", 0⟩
  | .items _ => ⟨.closeBracket, "]", 0⟩

/-- Tokens that finish an operand. -/
def Need.completion : Need → List Token
  | .operand => [⟨.attribute, "id", 0⟩, ⟨.present, "pr", 0⟩]
  | .paren =>
    [⟨.openParen, "(", 0⟩, ⟨.attribute, "id", 0⟩, ⟨.present, "pr", 0⟩, ⟨.closeParen, ")", 0⟩]
  | .relation _ => [⟨.present, "pr", 0⟩]
  | .value _ _ => [⟨.null, "null", 0⟩]
  | .connective _ => []

/-- Tokens that finish a filter: those for its last operand, and one for each open level. -/
def State.completion (s : State) : List Token :=
  s.need.completion ++ s.outer.map (·.1.closing)

/-- The machine reads the completion of an operand, on the level that it is on. -/
theorem advance?_completion_need (need : Need) (level : Level) (outer : List (Opener × Level)) :
    ∃ f, State.advance? ⟨need, level, outer⟩ need.completion = some ⟨.connective f, level, outer⟩ := by
  cases need with
  | operand => exact ⟨_, rfl⟩
  | paren => exact ⟨_, rfl⟩
  | relation path => exact ⟨_, rfl⟩
  | value path op => exact ⟨_, rfl⟩
  | connective f => exact ⟨f, rfl⟩

/-- The machine reads a closing token for each open level, by induction on the levels. -/
theorem advance?_closing (f : Filter) (level : Level) (outer : List (Opener × Level)) :
    ∃ g inner, State.advance? ⟨.connective f, level, outer⟩ (outer.map (·.1.closing)) =
      some ⟨.connective g, inner, []⟩ := by
  induction outer generalizing f level with
  | nil => exact ⟨f, level, rfl⟩
  | cons frame outer ih =>
      obtain ⟨opener, around⟩ := frame
      obtain ⟨g, inner, hread⟩ := ih (opener.wrap (level.whole f)) around
      refine ⟨g, inner, ?_⟩
      rw [List.map_cons, State.advance?_cons, ← hread]
      cases opener with
      | group => rfl
      | negation => rfl
      | items path => rfl

theorem advance?_completion (s : State) :
    ∃ f level, s.advance? s.completion = some ⟨.connective f, level, []⟩ := by
  obtain ⟨need, level, outer⟩ := s
  obtain ⟨f, hneed⟩ := advance?_completion_need need level outer
  obtain ⟨g, inner, hclosing⟩ := advance?_closing f level outer
  refine ⟨g, inner, ?_⟩
  rw [State.completion, State.advance?_append, hneed, Option.bind_some, hclosing]

/-- Every state completes a filter over its completion and a stop. -/
theorem exists_run_completion (s : State) {t : Token} (ht : t.kind = .stop) :
    ∃ f, run s (s.completion ++ [t]) = .ok f := by
  obtain ⟨f, level, hread⟩ := advance?_completion s
  refine ⟨level.whole f, ?_⟩
  rw [State.run_append hread, run, if_pos ht]
  rfl

/-! ### Refused tokens -/

/-- A token that is not read as a scalar is the one that its fault is about. -/
theorem State.position?_of_read {t : Token} {fault : Fault} (h : State.read t = .error fault) :
    fault.position? = some t.position := by
  unfold State.read State.scalar at h
  split at h
  · cases h
  · split at h
    all_goals cases h
    all_goals rfl
  · cases h
  · cases h
  · cases h
    rfl

/-- A refusal is about the token that is refused. -/
theorem State.position?_fault (s : State) (t : Token) : (s.fault t).position? = some t.position := by
  obtain ⟨need, level, outer⟩ := s
  cases need with
  | operand => rfl
  | paren => rfl
  | relation path => rfl
  | value path op =>
      cases hread : State.read t with
      | ok v => simp [State.fault, hread, Fault.position?]
      | error fault => simpa [State.fault, hread] using position?_of_read hread
  | connective f =>
      cases outer with
      | nil => rfl
      | cons frame outer => rfl

end Parser

/-- What has been read starts an accepted list. -/
theorem exists_ofTokens_of_advance? {ts : List Token} {s : Parser.State}
    (h : Parser.State.start.advance? ts = some s) :
    ∃ rest f, StopsOnce (ts ++ rest) ∧ ofTokens (ts ++ rest) = .ok f := by
  have hstop : StopsOnce (ts ++ (s.completion ++ [⟨.stop, "", 0⟩])) := by
    obtain ⟨f, level, hread⟩ := Parser.advance?_completion s
    refine ⟨ts ++ s.completion, _, (List.append_assoc _ _ _).symm, rfl, ?_⟩
    rw [List.forall_mem_append]
    exact ⟨Parser.State.ne_stop_of_advance? h, Parser.State.ne_stop_of_advance? hread⟩
  obtain ⟨f, hrun⟩ := Parser.exists_run_completion s (t := ⟨.stop, "", 0⟩) rfl
  refine ⟨_, f, hstop, ?_⟩
  rw [ofTokens_of_endsInStop hstop.endsInStop, Parser.State.run_append h, hrun]

/-- What has been read and a token that is refused start no accepted list. -/
theorem ofTokens_ne_ok_of_refuses {ts : List Token} {s : Parser.State} {t : Token}
    (h : Parser.State.start.advance? ts = some s) (ht : s.Refuses t) (rest : List Token)
    (f : Filter) : ofTokens (ts ++ t :: rest) ≠ .ok f := by
  intro hf
  have hrun := run_of_ofTokens hf
  rw [Parser.State.run_append h, Parser.run_of_refuses ht] at hrun
  cases hrun

/-- At increasing places no two tokens stand at one place. -/
theorem index_unique {tokens : List Token} (h : tokens.Pairwise (·.position < ·.position))
    {i j : Nat} {t u : Token} (hi : tokens[i]? = some t) (hj : tokens[j]? = some u)
    (he : t.position = u.position) : i = j := by
  obtain ⟨hlt, rfl⟩ := List.getElem?_eq_some_iff.mp hi
  obtain ⟨hlt', rfl⟩ := List.getElem?_eq_some_iff.mp hj
  have hincreasing := List.pairwise_iff_getElem.mp h
  rcases Nat.lt_trichotomy i j with hless | heq | hmore
  · have := hincreasing i j hlt hlt' hless
    omega
  · exact heq
  · have := hincreasing j i hlt' hlt hmore
    omega

/-- A list whose only stop is its last token, with its tokens at increasing places, is refused at the
first token that leaves nothing to hope for.  The refusal is about one of the tokens: those before it
start a list that is accepted, and with it they start none. -/
theorem refused_where_hopeless {tokens : List Token} {fault : Fault} (hstop : StopsOnce tokens)
    (hplaces : tokens.Pairwise (·.position < ·.position)) (h : ofTokens tokens = .error fault) :
    (∃ t ∈ tokens, fault.position? = some t.position) ∧
    ∀ k t, tokens[k]? = some t → fault.position? = some t.position →
      (∃ rest f, StopsOnce (tokens.take k ++ rest) ∧ ofTokens (tokens.take k ++ rest) = .ok f) ∧
      ∀ rest f, ofTokens (tokens.take (k + 1) ++ rest) ≠ .ok f := by
  rw [ofTokens_of_endsInStop hstop.endsInStop] at h
  have hsome : ∃ t ∈ tokens, t.kind = .stop := by
    obtain ⟨before, t, rfl, ht, -⟩ := hstop
    exact ⟨t, by simp, ht⟩
  obtain ⟨before, t, after, s, rfl, hread, href, rfl⟩ := Parser.exists_refuses hsome h
  have hplace : (s.fault t).position? = some t.position := s.position?_fault t
  refine ⟨⟨t, by simp, hplace⟩, fun k u hu hposition => ?_⟩
  have hk : k = before.length := by
    refine index_unique hplaces hu (u := t) (by simp) ?_
    exact Option.some.inj (hposition.symm.trans hplace)
  subst hk
  constructor
  · rw [List.take_left]
    exact exists_ofTokens_of_advance? hread
  · intro rest f
    have htake : (before ++ t :: after).take (before.length + 1) = before ++ [t] := by
      rw [List.take_length_add_append]
      rfl
    rw [htake, List.append_assoc]
    exact ofTokens_ne_ok_of_refuses hread href rest f

/-- Of `not (a[b eq)` the closing parenthesis is refused, inside two open levels. -/
theorem refused_where_hopeless_missing_value :
    let before : List Token := [⟨.not, "not", 0⟩, ⟨.openParen, "(", 4⟩, ⟨.attribute, "a", 5⟩,
      ⟨.openBracket, "[", 6⟩, ⟨.attribute, "b", 7⟩, ⟨.operator, "eq", 9⟩]
    let tokens := before ++ [⟨.closeParen, ")", 11⟩, ⟨.stop, "", 12⟩]
    StopsOnce tokens ∧ tokens.Pairwise (·.position < ·.position) ∧
    ofTokens tokens = .error (.expectedValue ⟨.closeParen, ")", 11⟩) ∧
    (∃ rest f, StopsOnce (before ++ rest) ∧ ofTokens (before ++ rest) = .ok f) ∧
    ∀ rest f, ofTokens ((before ++ [⟨.closeParen, ")", 11⟩]) ++ rest) ≠ .ok f := by
  intro before tokens
  have hstop : StopsOnce tokens :=
    ⟨before ++ [⟨.closeParen, ")", 11⟩], ⟨.stop, "", 12⟩, rfl, rfl, by decide⟩
  have hplaces : tokens.Pairwise (·.position < ·.position) := by decide
  have h : ofTokens tokens = .error (.expectedValue ⟨.closeParen, ")", 11⟩) := rfl
  exact ⟨hstop, hplaces, h, (refused_where_hopeless hstop hplaces h).2 6 _ rfl rfl⟩

end Filter
end ScimQuery
