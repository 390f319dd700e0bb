import Sundial.Text.Position

/-!
# Tokens

A token is a kind, the text it was read from and the position of its first character. Two texts of
a kind are in use: a short name, and a description for messages about what was found.
-/

set_option autoImplicit false

namespace Sundial

inductive TokenKind where
  | finish
  | illegal
  | word
  | primitive
  | function
  | ifWord
  | elseWord
  | direction
  | base
  | circumstance
  | number
  | duration
  | string
  | reference
  | leftParen
  | rightParen
  | leftBrace
  | rightBrace
  | comma
  | plus
  | minus
  | star
  | slash
  | greater
  | less
  | greaterEqual
  | lessEqual
  | equal
  | notEqual
  | both
  | either
  deriving DecidableEq, Repr

namespace TokenKind

/-- Every kind, in the order of the table of names. -/
def all : List TokenKind :=
  [finish, illegal, word, primitive, function, ifWord, elseWord, direction, base, circumstance,
   number, duration, string, reference, leftParen, rightParen, leftBrace, rightBrace, comma, plus,
   minus, star, slash, greater, less, greaterEqual, lessEqual, equal, notEqual, both, either]

/-- The name that token listings show. -/
def name : TokenKind → String
  | finish => "Eof"
  | illegal => "Illegal"
  | word => "Ident"
  | primitive => "Primitive"
  | function => "Function"
  | ifWord => "If"
  | elseWord => "Else"
  | direction => "Direction"
  | base => "Base"
  | circumstance => "ConditionVar"
  | number => "Number"
  | duration => "Duration"
  | string => "String"
  | reference => "Reference"
  | leftParen => "LParen"
  | rightParen => "RParen"
  | leftBrace => "LBrace"
  | rightBrace => "RBrace"
  | comma => "Comma"
  | plus => "Plus"
  | minus => "Minus"
  | star => "Star"
  | slash => "Slash"
  | greater => "Greater"
  | less => "Less"
  | greaterEqual => "GreaterEq"
  | lessEqual => "LessEq"
  | equal => "EqEq"
  | notEqual => "NotEq"
  | both => "AndAnd"
  | either => "OrOr"

def ofName? (s : String) : Option TokenKind :=
  all.find? fun k => k.name = s

/-- What messages call a token of the kind. -/
def description : TokenKind → String
  | finish => "end of formula"
  | illegal => "illegal character"
  | word => "identifier"
  | primitive => "primitive"
  | function => "function name"
  | ifWord => "'if'"
  | elseWord => "'else'"
  | direction => "direction"
  | base => "base"
  | circumstance => "condition variable"
  | number => "number"
  | duration => "duration"
  | string => "string"
  | reference => "reference"
  | leftParen => "'('"
  | rightParen => "')'"
  | leftBrace => "'\x7b'"
  | rightBrace => "'\x7d'"
  | comma => "','"
  | plus => "'+'"
  | minus => "'-'"
  | star => "'*'"
  | slash => "'/'"
  | greater => "'>'"
  | less => "'<'"
  | greaterEqual => "'>='"
  | lessEqual => "'<='"
  | equal => "'=='"
  | notEqual => "'!='"
  | both => "'&&'"
  | either => "'||'"

theorem ofName?_name (k : TokenKind) : ofName? k.name = some k := by
  cases k <;> decide

end TokenKind

structure Token where
  kind : TokenKind
  literal : String
  pos : Position
  deriving DecidableEq, Repr

/-- The token as messages quote it. -/
def Token.text (t : Token) : String :=
  match t.kind with
  | .finish => "end of formula"
  | .reference => s!"'@{t.literal}'"
  | .string => s!"\"{t.literal}\""
  | _ => s!"'{t.literal}'"

end Sundial
