import Sundial.Diagnostic
import Sundial.Formula.Vocabulary

/-!
# Faults of formula text

The ways in which a text fails to be a formula, with their wording.
-/

set_option autoImplicit false

namespace Sundial

/-- A token that the grammar requires at a place. -/
inductive Expectation where
  /-- The parenthesis that closes a group opened at the position. -/
  | groupEnd (opened : Position)
  /-- The parenthesis after a function's name, as it was written. -/
  | callStart (literal : String) (function : BuiltIn)
  | conditionStart
  | conditionEnd
  | thenStart
  | thenEnd
  | elseStart
  | elseEnd
  deriving DecidableEq, Repr

namespace Expectation

def kind : Expectation → TokenKind
  | groupEnd _ | conditionEnd => .rightParen
  | callStart _ _ | conditionStart => .leftParen
  | thenStart | elseStart => .leftBrace
  | thenEnd | elseEnd => .rightBrace

def message : Expectation → String
  | groupEnd _ => "expected ')' to close '('"
  | callStart literal _ => s!"expected '(' after '{literal}'"
  | conditionStart => "expected '(' after 'if'"
  | conditionEnd => "expected ')' to close the condition"
  | thenStart => "expected '\x7b' before the if-branch"
  | thenEnd => "expected '\x7d' after the if-branch"
  | elseStart => "expected '\x7b' or 'if' after 'else'"
  | elseEnd => "expected '\x7d' after the else-branch"

def hint : Expectation → Option String
  | groupEnd opened => some s!"The '(' at {opened.text} is never closed"
  | callStart _ function => some s!"Usage: {function.signature}"
  | _ => none

end Expectation

inductive SyntaxFault where
  /-- An `@` without a key. -/
  | keyMissing
  /-- Half of a two-character operator. -/
  | halfOperator (literal : String)
  /-- A number that runs on into letters which are no unit. -/
  | badUnit (literal : String)
  | strayCharacter (literal : String)
  | emptyFormula
  /-- Something follows a complete expression. -/
  | trailing (found : Token)
  | invalidNumber (literal : String)
  | invalidDuration (literal : String)
  | unknownWord (literal : String)
  /-- The text ends inside an expression. -/
  | unfinished
  | unexpected (found : Token)
  /-- A minus sign before something other than a number or a duration. -/
  | misplacedMinus
  | expected (what : Expectation) (found : Token)
  | unclosedArguments (owner : String)
  | badSeparator (owner : String) (found : Token)
  /-- The bound on the depth of calls is used up. No text brings this about. -/
  | tooDeep
  deriving DecidableEq, Repr

namespace SyntaxFault

def message : SyntaxFault → String
  | keyMissing => "expected a formula key after '@'"
  | halfOperator literal =>
    let rest := if literal = "&" || literal = "|" then literal else "="
    s!"unexpected '{literal}' (did you mean '{literal}{rest}'?)"
  | badUnit literal | invalidDuration literal => s!"invalid duration '{literal}'"
  | strayCharacter literal => s!"unexpected character '{literal}'"
  | emptyFormula => "empty formula"
  | trailing found => s!"unexpected token {found.text} after expression"
  | invalidNumber literal => s!"invalid number '{literal}'"
  | unknownWord literal => s!"unknown identifier '{literal}'"
  | unfinished => "unexpected end of formula"
  | unexpected found => s!"unexpected token {found.text}"
  | misplacedMinus => "unary minus can only be applied to a number or duration"
  | expected what found => s!"{what.message}, found {found.text}"
  | unclosedArguments owner => s!"missing ')' to close the arguments of {owner}"
  | badSeparator owner found =>
    s!"expected ',' or ')' in the arguments of {owner}, found {found.text}"
  | tooDeep => "formula is nested too deeply"

def hint : SyntaxFault → Option String
  | keyMissing => some "References name another formula, for example @alos_hashachar"
  | badUnit _ => some
    "Durations are written as Nmin, Nhr, Nh or Nh Mmin, for example 72min or 1h 30min"
  | emptyFormula => some "A formula needs at least one term, for example sunrise - 72min"
  | trailing _ => some "Join terms with an operator such as + or -"
  | unknownWord literal => match Vocabulary.closestWord literal with
    | some w => some s!"Did you mean '{w}'?"
    | none => some s!"To use another formula's result, write a reference: @{literal}"
  | unfinished => some "The formula stops before the expression is complete"
  | misplacedMinus => some "Subtract from a time instead, for example sunrise - 72min"
  | expected what _ => what.hint
  | _ => none

end SyntaxFault

instance : Fault SyntaxFault where
  stage := .parsing
  message := SyntaxFault.message
  hint := SyntaxFault.hint

/-- Where a syntax fault was found. -/
abbrev SyntaxError := Located SyntaxFault

end Sundial
