import Sundial.Formula.Duration
import Sundial.Formula.Lexer
import Sundial.Formula.Tree

/-!
# Formulas from tokens

The grammar, loosest binding first:

* formula: `expression`, then the end
* expression: `term (("+" | "-") term)*`
* term: `factor (("*" | "/") factor)*`
* factor: a number, duration, string, primitive, reference, direction or base; a minus sign with a
  number or duration; a circumstance, with or without `()`; a function with its arguments; an
  expression in parentheses; a conditional
* base: a span word, or `custom` with or without arguments
* conditional: `"if" "(" either ")" "{" expression "}"`, then nothing, `"else"` and a conditional,
  or `"else" "{" expression "}"`
* either: `both ("||" both)*`
* both: `comparison ("&&" comparison)*`
* comparison: `factor`, or two of them with a comparison sign between

An argument that cannot be read is recorded as a fault and skipped, so that the other arguments are
still looked at; a formula with a recorded fault is refused. The reading functions take a bound on
the depth of their calls; `readTokens` gives them one that grows with the number of tokens.
-/

set_option autoImplicit false

namespace Sundial

/-- Where a reader stands: the tokens ahead, the end of the formula behind them, and the faults
recorded so far. -/
structure Reading where
  ahead : List Token
  finish : Position
  faults : List SyntaxError

/-- A reader of tokens. It may stop with a fault, and then still tells where it stands. -/
def TokenReader (α : Type) : Type :=
  Reading → Except SyntaxError α × Reading

namespace TokenReader

variable {α β : Type}

protected def pure (a : α) : TokenReader α := fun s => (.ok a, s)

protected def bind (p : TokenReader α) (f : α → TokenReader β) : TokenReader β := fun s =>
  match p s with
  | (.ok a, s') => f a s'
  | (.error e, s') => (.error e, s')

instance : Monad TokenReader where
  pure := TokenReader.pure
  bind := TokenReader.bind

def fail (cause : SyntaxFault) (pos : Position) : TokenReader α := fun s => (.error ⟨cause, pos⟩, s)

/-- The token ahead; behind the last one there is only the end. -/
def peek : TokenReader Token := fun s =>
  (.ok (s.ahead.headD ⟨.finish, "", s.finish⟩), s)

/-- The kind of the token after the one ahead. -/
def peekSecond : TokenReader TokenKind := fun s =>
  (.ok ((s.ahead.tail.head?.map Token.kind).getD .finish), s)

/-- Passes the token ahead. -/
def advance : TokenReader Unit := fun s => (.ok (), { s with ahead := s.ahead.tail })

/-- Passes a token of the required kind. -/
def expect (what : Expectation) : TokenReader Token := do
  let t ← peek
  if t.kind = what.kind then advance; return t
  else fail (.expected what t) t.pos

/-- A word looked up in its table. -/
def lookUp (find : String → Option α) (t : Token) : TokenReader α :=
  match find t.literal with
  | some a => pure a
  | none => fail (.unknownWord t.literal) t.pos

/-- The tokens from the next comma or closing parenthesis on that is inside as many parentheses as
the first token is, counted from `depth`. -/
def skipArgument : Nat → List Token → List Token
  | _, [] => []
  | depth, t :: ts =>
    match t.kind, depth with
    | .comma, 0 | .rightParen, 0 => t :: ts
    | .leftParen, depth => skipArgument (depth + 1) ts
    | .rightParen, depth + 1 => skipArgument depth ts
    | _, depth => skipArgument depth ts

/-- Runs a reader. A fault of it is recorded, and the rest of the argument that it struck is
skipped. -/
def recover (p : TokenReader α) : TokenReader (Option α) := fun s =>
  match p s with
  | (.ok a, s') => (.ok (some a), s')
  | (.error e, s') =>
    (.ok none, { s' with ahead := skipArgument 0 s'.ahead, faults := s'.faults ++ [e] })

def readNumber (t : Token) : TokenReader Float :=
  match Number.read? t.literal with
  | some x => pure x
  | none => fail (.invalidNumber t.literal) t.pos

def readDuration (t : Token) (text : String) : TokenReader Float :=
  match Duration.read? text with
  | some minutes => pure minutes
  | none => fail (.invalidDuration t.literal) t.pos

/-- A minus sign, which stands only before a number or a duration. -/
def negative : TokenReader Formula := do
  let minus ← peek
  advance
  let t ← peek
  match t.kind with
  | .number => do
    advance
    return .number minus.pos (-(← readNumber t))
  | .duration => do
    advance
    let text := "-" ++ t.literal
    return .duration minus.pos (← readDuration t text) text
  | _ => fail .misplacedMinus minus.pos

end TokenReader

/-! ## Operators by their tokens -/

def sumOperator? : TokenKind → Option Operator
  | .plus => some .add
  | .minus => some .sub
  | _ => none

def productOperator? : TokenKind → Option Operator
  | .star => some .mul
  | .slash => some .div
  | _ => none

def comparison? : TokenKind → Option Relation
  | .greater => some .greater
  | .less => some .less
  | .greaterEqual => some .greaterEqual
  | .lessEqual => some .lessEqual
  | .equal => some .equal
  | .notEqual => some .notEqual
  | _ => none

namespace TokenReader

/-- The fault of a reader whose bound is used up. -/
def exhausted {α : Type} : TokenReader α := do
  let t ← peek
  fail .tooDeep t.pos

mutual

def expression : Nat → TokenReader Formula
  | 0 => exhausted
  | n + 1 => do
    let left ← term n
    sums n left

/-- The terms added to `left` or taken off it. -/
def sums : Nat → Formula → TokenReader Formula
  | 0, _ => exhausted
  | n + 1, left => do
    match sumOperator? (← peek).kind with
    | none => return left
    | some op => do
      advance
      let right ← term n
      sums n (.joined op left right)

def term : Nat → TokenReader Formula
  | 0 => exhausted
  | n + 1 => do
    let left ← factor n
    products n left

/-- The factors that `left` is multiplied with or divided by. -/
def products : Nat → Formula → TokenReader Formula
  | 0, _ => exhausted
  | n + 1, left => do
    match productOperator? (← peek).kind with
    | none => return left
    | some op => do
      advance
      let right ← factor n
      products n (.joined op left right)

/-- A factor. A token that starts none is not passed. -/
def factor : Nat → TokenReader Formula
  | 0 => exhausted
  | n + 1 => do
    let t ← peek
    match t.kind with
    | .number => do
      advance
      return .number t.pos (← readNumber t)
    | .duration => do
      advance
      return .duration t.pos (← readDuration t t.literal) t.literal
    | .string => do
      advance
      return .string t.pos t.literal
    | .minus => negative
    | .primitive => do
      advance
      return .primitive t.pos (← lookUp Primitive.ofName? t)
    | .function => do
      advance
      call n t
    | .reference => do
      advance
      return .reference t.pos t.literal
    | .direction => do
      advance
      return .direction t.pos (← lookUp Direction.ofName? t)
    | .base => do
      advance
      base n t
    | .circumstance => do
      advance
      let v ← lookUp Circumstance.ofName? t
      if (← peek).kind = .leftParen ∧ (← peekSecond) = .rightParen then
        advance
        advance
      return .circumstance t.pos v
    | .ifWord => do
      advance
      conditional n t
    | .leftParen => do
      advance
      let inner ← expression n
      let _ ← expect (.groupEnd t.pos)
      return inner
    | .word => fail (.unknownWord t.literal) t.pos
    | .finish => fail .unfinished t.pos
    | _ => fail (.unexpected t) t.pos

/-- The arguments of the function named by `t`. -/
def call : Nat → Token → TokenReader Formula
  | 0, _ => exhausted
  | n + 1, t => do
    let function ← lookUp BuiltIn.ofName? t
    let opening ← expect (.callStart t.literal function)
    return .call t.pos function (← arguments n opening.pos function.name)

/-- The base named by `t`; only a custom one has arguments. -/
def base : Nat → Token → TokenReader Formula
  | 0, _ => exhausted
  | n + 1, t => do
    if t.literal = customWord then
      let opening ← peek
      if opening.kind = .leftParen then
        advance
        return .customSpan t.pos (← arguments n opening.pos customWord)
      else return .customSpan t.pos []
    else return .span t.pos (← lookUp DaySpan.ofName? t)

/-- Arguments up to the closing parenthesis, for a parenthesis opened at `opened`. -/
def arguments : Nat → Position → String → TokenReader (List Formula)
  | 0, _, _ => exhausted
  | n + 1, opened, owner => do
    if (← peek).kind = .rightParen then
      advance
      return []
    else argumentList n opened owner

/-- At least one argument, and the closing parenthesis. -/
def argumentList : Nat → Position → String → TokenReader (List Formula)
  | 0, _, _ => exhausted
  | n + 1, opened, owner => do
    let argument ← recover (expression n)
    let t ← peek
    match t.kind with
    | .comma => do
      advance
      return argument.toList ++ (← argumentList n opened owner)
    | .rightParen => do
      advance
      return argument.toList
    | .finish => fail (.unclosedArguments owner) opened
    | _ => fail (.badSeparator owner t) t.pos

/-- The conditional whose `if` was `t`. -/
def conditional : Nat → Token → TokenReader Formula
  | 0, _ => exhausted
  | n + 1, t => do
    let _ ← expect .conditionStart
    let condition ← eitherCondition n
    let _ ← expect .conditionEnd
    let _ ← expect .thenStart
    let thenBranch ← expression n
    let _ ← expect .thenEnd
    if (← peek).kind = .elseWord then
      advance
      let next ← peek
      if next.kind = .ifWord then
        advance
        return .ifElse t.pos condition thenBranch (← conditional n next)
      else
        let _ ← expect .elseStart
        let elseBranch ← expression n
        let _ ← expect .elseEnd
        return .ifElse t.pos condition thenBranch elseBranch
    else return .ifThen t.pos condition thenBranch

def eitherCondition : Nat → TokenReader Formula
  | 0 => exhausted
  | n + 1 => do
    let left ← bothCondition n
    eithers n left

/-- The alternatives to `left`. -/
def eithers : Nat → Formula → TokenReader Formula
  | 0, _ => exhausted
  | n + 1, left => do
    if (← peek).kind = .either then
      advance
      let right ← bothCondition n
      eithers n (.related .either left right)
    else return left

def bothCondition : Nat → TokenReader Formula
  | 0 => exhausted
  | n + 1 => do
    let left ← comparison n
    boths n left

/-- The conditions that have to hold together with `left`. -/
def boths : Nat → Formula → TokenReader Formula
  | 0, _ => exhausted
  | n + 1, left => do
    if (← peek).kind = .both then
      advance
      let right ← comparison n
      boths n (.related .both left right)
    else return left

/-- Two factors with a comparison sign between them, or one factor. -/
def comparison : Nat → TokenReader Formula
  | 0 => exhausted
  | n + 1 => do
    let left ← factor n
    match comparison? (← peek).kind with
    | none => return left
    | some relation => do
      advance
      let right ← factor n
      return .related relation left right

end

/-- A bound on the depth of calls that a formula of `count` tokens never uses up. -/
def depthBound (count : Nat) : Nat := 8 * (count + 1)

/-- A whole formula: an expression and then the end. -/
def formula : TokenReader Formula := fun s =>
  match s.ahead with
  | [] => fail .emptyFormula s.finish s
  | _ :: _ =>
    match expression (depthBound s.ahead.length) s with
    | (.ok f, s') => match s'.ahead with
      | [] => (.ok f, s')
      | t :: _ => (.ok f, { s' with faults := s'.faults ++ [⟨.trailing t, t.pos⟩] })
    | failed => failed

end TokenReader

namespace Formula

/-- The tokens before the first end mark, and the place of the end: that mark's, or the last
token's if there is none. -/
def cutAtFinish : List Token → List Token × Position
  | [] => ([], .start)
  | [t] => if t.kind = .finish then ([], t.pos) else ([t], t.pos)
  | t :: ts =>
    if t.kind = .finish then ([], t.pos)
    else
      let (before, finish) := cutAtFinish ts
      (t :: before, finish)

/-- The formula that a list of tokens writes, or every fault found in it. -/
def readTokens (ts : List Token) : Except (List SyntaxError) Formula :=
  let (ahead, finish) := cutAtFinish ts
  match TokenReader.formula ⟨ahead, finish, []⟩ with
  | (.ok f, s) => if s.faults.isEmpty then .ok f else .error s.faults
  | (.error e, s) => .error (s.faults ++ [e])

/-- The formula that a text writes, or every fault found in it. -/
def read (text : String) : Except (List SyntaxError) Formula :=
  match tokenize text with
  | .ok ts => readTokens ts
  | .error e => .error [e]

/-- The formula that a text writes, or diagnostics that quote the text. -/
def parse (text : String) : Except (List Diagnostic) Formula :=
  (read text).mapError fun es => Diagnostics.withSource text (es.map Located.diagnostic)

end Formula

end Sundial
