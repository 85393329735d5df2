import ScimQuery.Filter
import ScimQuery.Token.Lexer

/-! # Parsing filters

A machine with a stack reads a filter from its tokens, one step per token.  The grammar is

    filter := conj ("or" conj)*            conj := operand ("and" operand)*
    operand := "not" "(" filter ")" | "(" filter ")" | comparison
    comparison := path "[" filter "]" | path "pr" | path operator value

so `and` binds tighter than `or`, and both associate to the left.  Of the operands of the level
being read the machine keeps at most two, the left sides of a pending `or` and of a pending `and`;
the stack holds the levels around it.  A token that cannot be read where it stands is refused with
what was needed instead (`State.fault`). -/

namespace ScimQuery
namespace Filter
namespace Parser

/-- What opened a level of brackets. -/
inductive Opener where
  | group
  | negation
  | items (path : String)
  deriving DecidableEq, Repr

namespace Opener

/-- The kind of token that closes a level. -/
def closer : Opener → TokenKind
  | .group => .closeParen
  | .negation => .closeParen
  | .items _ => .closeBracket

/-- What a level means around the filter inside it. -/
def wrap : Opener → Filter → Filter
  | .group, f => f
  | .negation, f => .not f
  | .items path, f => .valuePath path f

end Opener

/-- The left sides that wait for their right sides on one level. -/
structure Level where
  disjunct : Option Filter
  conjunct : Option Filter
  deriving DecidableEq, Repr

namespace Level

/-- A level of which nothing has been read. -/
def start : Level := ⟨none, none⟩

/-- The conjunction that ends with an operand. -/
def conjunction (l : Level) (f : Filter) : Filter :=
  match l.conjunct with
  | none => f
  | some left => .logical .and left f

/-- The whole filter of a level that ends with an operand. -/
def whole (l : Level) (f : Filter) : Filter :=
  match l.disjunct with
  | none => l.conjunction f
  | some left => .logical .or left (l.conjunction f)

/-- The level after an operand and a connective. -/
def join (l : Level) (f : Filter) : Connective → Level
  | .and => { l with conjunct := some (l.conjunction f) }
  | .or => ⟨some (l.whole f), none⟩

end Level

/-- What the next token must be. -/
inductive Need where
  /-- The start of an operand. -/
  | operand
  /-- The parenthesis after `not`. -/
  | paren
  /-- What follows an attribute path. -/
  | relation (path : String)
  /-- The value after an operator. -/
  | value (path : String) (op : Operator)
  /-- What follows a complete operand. -/
  | connective (f : Filter)
  deriving DecidableEq, Repr

/-- What the machine keeps between tokens: what it needs, the level being read, and the levels
around it, innermost first, each with what opened the one inside it. -/
structure State where
  need : Need
  level : Level
  outer : List (Opener × Level)
  deriving DecidableEq, Repr

namespace State

/-- Before the first token. -/
def start : State := ⟨.operand, .start, []⟩

/-- The state inside a bracket that opens here. -/
def enter (s : State) (opener : Opener) : State :=
  ⟨.operand, .start, (opener, s.level) :: s.outer⟩

/-- The state after an operand. -/
def operand (s : State) (f : Filter) : State := { s with need := .connective f }

/-- The state after an operand and a connective. -/
def join (s : State) (f : Filter) (op : Connective) : State :=
  { s with need := .operand, level := s.level.join f op }

/-- The state after an operand and the bracket that closes its level, where this may stand. -/
def leave? (s : State) (f : Filter) (kind : TokenKind) : Option State :=
  match s.outer with
  | [] => none
  | (opener, level) :: outer =>
    if kind = opener.closer then some ⟨.connective (opener.wrap (s.level.whole f)), level, outer⟩
    else none

/-- The scalar that a token writes, where an integer may have as many digits as a limit says. -/
def scalar (limit : Nat) (t : Token) : Except Fault Scalar :=
  match t.kind with
  | .text => .ok (.text t.value)
  | .number =>
    match Number.ofNumeral limit t.value.toList with
    | .ok n => .ok (.number n)
    | .error .malformed => .error (.malformedNumber t)
    | .error (.tooManyDigits count) => .error (.tooManyDigits count t)
  | .truth => .ok (.bool (t.value == "true"))
  | .null => .ok .null
  | _ => .error (.expectedValue t)

/-- The scalar that a token is read as. -/
def read (t : Token) : Except Fault Scalar := scalar Number.digitLimit t

/-- The state after a token that is read as a given scalar, where it may stand. -/
def next? (s : State) (t : Token) (value : Except Fault Scalar) : Option State :=
  match s.need with
  | .operand =>
    match t.kind with
    | .not => some { s with need := .paren }
    | .openParen => some (s.enter .group)
    | .attribute => some { s with need := .relation t.value }
    | _ => none
  | .paren =>
    match t.kind with
    | .openParen => some (s.enter .negation)
    | _ => none
  | .relation path =>
    match t.kind with
    | .openBracket => some (s.enter (.items path))
    | .present => some (s.operand (.compare path .present .null))
    | .operator => some { s with need := .value path (Operator.ofName t.value) }
    | _ => none
  | .value path op => value.toOption.map fun v => s.operand (.compare path op v)
  | .connective f =>
    match t.kind with
    | .and => some (s.join f .and)
    | .or => some (s.join f .or)
    | kind => s.leave? f kind

/-- The state after a token, where it may stand. -/
def step? (s : State) (t : Token) : Option State := s.next? t (read t)

/-- The filter read so far, when it is complete. -/
def result? (s : State) : Option Filter :=
  match s.need, s.outer with
  | .connective f, [] => some (s.level.whole f)
  | _, _ => none

/-- Why a token cannot stand here. -/
def fault (s : State) (t : Token) : Fault :=
  match s.need with
  | .operand => .expected .attribute t
  | .paren => .expected .openParen t
  | .relation _ => .expected .operator t
  | .value _ _ =>
    match read t with
    | .error fault => fault
    | .ok _ => .expectedValue t
  | .connective _ =>
    match s.outer with
    | [] => .unexpectedToken t
    | (opener, _) :: _ => .expected opener.closer t

end State

/-- The filter that tokens up to the first stop complete. -/
def run : State → List Token → Except Fault Filter
  | _, [] => .error .noStop
  | s, t :: rest =>
    if t.kind = .stop then
      match s.result? with
      | some f => .ok f
      | none => .error (s.fault t)
    else
      match s.step? t with
      | some s' => run s' rest
      | none => .error (s.fault t)

end Parser

/-- The filter that a list of tokens writes.  The last token must be a stop; an earlier one ends
the filter before it. -/
def ofTokens (tokens : List Token) : Except Fault Filter :=
  match tokens.getLast? with
  | some t => if t.kind = .stop then Parser.run .start tokens else .error .noStop
  | none => .error .noStop

/-- The filter that a text without blanks at its ends writes. -/
def ofText (text : String) : Except Fault Filter := do
  let tokens ← Token.scan text
  ofTokens tokens

/-- The filter that a text writes.  Blanks at its ends are dropped first, and the places in a
refusal are counted without them. -/
def parse (text : String) : Except Refusal Filter :=
  if Text.allBlank text then .error ⟨text, .blank⟩
  else (ofText (Text.trim text)).mapError fun fault => ⟨Text.trim text, fault⟩

end Filter
end ScimQuery
