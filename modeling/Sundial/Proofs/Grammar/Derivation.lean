import Sundial.Formula.Parser
import Sundial.Proofs.Formula.Shape

/-!
# The grammar of formulas

The grammar as a type: a `Derivation` of a symbol shows how a list of words is built by the
productions, `words` reads that list off and `formula` is what the derivation stands for, positions
aside. The productions, loosest binding first:

* expression: `term (("+" | "-") term)*`
* term: `factor (("*" | "/") factor)*`
* factor: a word that stands for itself (`leaf?`); a minus sign with a number or a duration
  (`negative?`); a circumstance, with or without `()`; a function and its arguments; `custom`, with
  or without arguments; an expression in parentheses; a conditional
* arguments, up to the closing parenthesis: `[expression ("," expression)*] ")"`
* conditional: `"if" "(" either ")" "{" expression "}" ["else" (conditional | "{" expression "}")]`
* either: `both ("||" both)*`
* both: `comparison ("&&" comparison)*`
* comparison: `side [sign side]`

In formulas a side is a factor. Canonical text is looser: a side may be any expression without
parentheses around it, and the word `inf` is a number.
-/

set_option autoImplicit false

namespace Sundial

/-! ## Words -/

/-- The literal of a token of the kind matters; the others are all alike. -/
def TokenKind.hasContent : TokenKind → Bool
  | word | primitive | function | direction | base | circumstance | number | duration | string
  | reference => true
  | _ => false

/-- What the grammar sees of a token. -/
structure Word where
  kind : TokenKind
  literal : String
  deriving DecidableEq

namespace Word

/-- The word of a token without content. -/
def sign (kind : TokenKind) : Word := ⟨kind, ""⟩

@[simp] theorem sign_kind (kind : TokenKind) : (sign kind).kind = kind := rfl

theorem sign_inj {j k : TokenKind} : sign j = sign k ↔ j = k := by
  simp [sign]

end Word

def Token.toWord (t : Token) : Word := ⟨t.kind, if t.kind.hasContent then t.literal else ""⟩

theorem Token.toWord_of_content {t : Token} (h : t.kind.hasContent = true) :
    t.toWord = ⟨t.kind, t.literal⟩ := by
  rw [toWord, if_pos h]

theorem Token.toWord_of_sign {t : Token} (h : t.kind.hasContent = false) :
    t.toWord = .sign t.kind := by
  rw [toWord, h]; rfl

/-- The token kind of an operator. -/
def Operator.kind : Operator → TokenKind
  | add => .plus
  | sub => .minus
  | mul => .star
  | div => .slash

/-- The token kind of a relation. -/
def Relation.kind : Relation → TokenKind
  | greater => .greater
  | less => .less
  | greaterEqual => .greaterEqual
  | lessEqual => .lessEqual
  | equal => .equal
  | notEqual => .notEqual
  | both => .both
  | either => .either

theorem Operator.kind_injective : Function.Injective Operator.kind := by
  intro a b
  cases a <;> cases b <;> decide

theorem Relation.kind_injective : Function.Injective Relation.kind := by
  intro a b
  cases a <;> cases b <;> decide

theorem sumOperator?_eq_some {k : TokenKind} {op : Operator} :
    sumOperator? k = some op ↔ k = op.kind ∧ op.precedence = 1 := by
  cases k <;> cases op <;> decide

theorem productOperator?_eq_some {k : TokenKind} {op : Operator} :
    productOperator? k = some op ↔ k = op.kind ∧ op.precedence = 2 := by
  cases k <;> cases op <;> decide

theorem comparison?_eq_some {k : TokenKind} {relation : Relation} :
    comparison? k = some relation ↔ k = relation.kind ∧ relation.isLogical = false := by
  cases k <;> cases relation <;> decide

namespace Grammar

/-! ## Derivations -/

/-- Which texts the productions describe. -/
inductive Dialect where
  | formula
  | canonical
  deriving DecidableEq

inductive Symbol where
  | expression
  /-- What is added to a term or taken off it. -/
  | sums
  | term
  /-- What a factor is multiplied with or divided by. -/
  | products
  | factor
  | arguments
  /-- One argument at least. -/
  | argumentList
  | conditional
  | otherwise
  | either
  /-- The alternatives to a condition. -/
  | eithers
  | both
  /-- What has to hold together with a condition. -/
  | boths
  | comparison
  | side
  deriving DecidableEq

/-- What a derivation of a symbol stands for. The rest of a chain waits for what is on its left, and
an else-branch for the condition and the branch in front of it. -/
abbrev Symbol.Meaning : Symbol → Type
  | sums | products | eithers | boths => Formula → Formula
  | arguments | argumentList => List Formula
  | otherwise => Formula → Formula → Formula
  | _ => Formula

/-- The number that the word `inf` is in canonical text. -/
def infinity : Float := Float.ofBits (UInt64.ofNat Binary64.infinityBits)

def infinityWord : String := "inf"

/-- The formula that a single word stands for. -/
def leaf? (δ : Dialect) (w : Word) : Option Formula :=
  match w.kind with
  | .number => (Number.read? w.literal).map (.number .start)
  | .duration => (Duration.read? w.literal).map fun minutes => .duration .start minutes w.literal
  | .string => some (.string .start w.literal)
  | .primitive => (Primitive.ofName? w.literal).map (.primitive .start)
  | .reference => some (.reference .start w.literal)
  | .direction => (Direction.ofName? w.literal).map (.direction .start)
  | .base => (DaySpan.ofName? w.literal).map (.span .start)
  | .word =>
    if δ = .canonical ∧ w.literal = infinityWord then some (.number .start infinity) else none
  | _ => none

/-- The formula that a word with a minus sign in front stands for. The sign belongs to the text of a
duration and is read with it. -/
def negative? (δ : Dialect) (w : Word) : Option Formula :=
  match w.kind with
  | .number => (Number.read? w.literal).map fun x => .number .start (-x)
  | .duration => (Duration.read? ("-" ++ w.literal)).map fun minutes =>
    .duration .start minutes ("-" ++ w.literal)
  | .word =>
    if δ = .canonical ∧ w.literal = infinityWord then some (.number .start (-infinity)) else none
  | _ => none

inductive Derivation (δ : Dialect) : Symbol → Type where
  | expression (first : Derivation δ .term) (rest : Derivation δ .sums) : Derivation δ .expression
  | noSum : Derivation δ .sums
  | sum (op : Operator) (h : op.precedence = 1) (right : Derivation δ .term)
      (rest : Derivation δ .sums) : Derivation δ .sums
  | term (first : Derivation δ .factor) (rest : Derivation δ .products) : Derivation δ .term
  | noProduct : Derivation δ .products
  | product (op : Operator) (h : op.precedence = 2) (right : Derivation δ .factor)
      (rest : Derivation δ .products) : Derivation δ .products
  | leaf (w : Word) (f : Formula) (h : leaf? δ w = some f) : Derivation δ .factor
  | negative (w : Word) (f : Formula) (h : negative? δ w = some f) : Derivation δ .factor
  | circumstance (s : String) (v : Circumstance) (h : Circumstance.ofName? s = some v) :
      Derivation δ .factor
  /-- A circumstance that reads like a call. -/
  | circumstanceCall (s : String) (v : Circumstance) (h : Circumstance.ofName? s = some v) :
      Derivation δ .factor
  | call (s : String) (function : BuiltIn) (h : BuiltIn.ofName? s = some function)
      (args : Derivation δ .arguments) : Derivation δ .factor
  | custom : Derivation δ .factor
  | customCall (bounds : Derivation δ .arguments) : Derivation δ .factor
  | group (inner : Derivation δ .expression) : Derivation δ .factor
  | branching (d : Derivation δ .conditional) : Derivation δ .factor
  | noArguments : Derivation δ .arguments
  | someArguments (list : Derivation δ .argumentList) : Derivation δ .arguments
  | lastArgument (a : Derivation δ .expression) : Derivation δ .argumentList
  | moreArguments (a : Derivation δ .expression) (list : Derivation δ .argumentList) :
      Derivation δ .argumentList
  | conditional (c : Derivation δ .either) (t : Derivation δ .expression)
      (e : Derivation δ .otherwise) : Derivation δ .conditional
  | noElse : Derivation δ .otherwise
  | elseIf (d : Derivation δ .conditional) : Derivation δ .otherwise
  | elseBranch (e : Derivation δ .expression) : Derivation δ .otherwise
  | either (first : Derivation δ .both) (rest : Derivation δ .eithers) : Derivation δ .either
  | noEither : Derivation δ .eithers
  | orElse (right : Derivation δ .both) (rest : Derivation δ .eithers) : Derivation δ .eithers
  | both (first : Derivation δ .comparison) (rest : Derivation δ .boths) : Derivation δ .both
  | noBoth : Derivation δ .boths
  | andAlso (right : Derivation δ .comparison) (rest : Derivation δ .boths) : Derivation δ .boths
  | bare (side : Derivation δ .side) : Derivation δ .comparison
  | compared (left : Derivation δ .side) (relation : Relation) (h : relation.isLogical = false)
      (right : Derivation δ .side) : Derivation δ .comparison
  | factorSide (h : δ = .formula) (f : Derivation δ .factor) : Derivation δ .side
  | expressionSide (h : δ = .canonical) (f : Derivation δ .expression) : Derivation δ .side

namespace Derivation

variable {δ : Dialect}

open Word

/-- The words that the derivation derives. -/
@[simp] def words : {X : Symbol} → Derivation δ X → List Word
  | _, expression first rest => first.words ++ rest.words
  | _, noSum => []
  | _, sum op _ right rest => sign op.kind :: (right.words ++ rest.words)
  | _, term first rest => first.words ++ rest.words
  | _, noProduct => []
  | _, product op _ right rest => sign op.kind :: (right.words ++ rest.words)
  | _, leaf w _ _ => [w]
  | _, negative w _ _ => [sign .minus, w]
  | _, circumstance s _ _ => [⟨.circumstance, s⟩]
  | _, circumstanceCall s _ _ => [⟨.circumstance, s⟩, sign .leftParen, sign .rightParen]
  | _, call s _ _ args => ⟨.function, s⟩ :: sign .leftParen :: args.words
  | _, custom => [⟨.base, customWord⟩]
  | _, customCall bounds => ⟨.base, customWord⟩ :: sign .leftParen :: bounds.words
  | _, group inner => sign .leftParen :: (inner.words ++ [sign .rightParen])
  | _, branching d => d.words
  | _, noArguments => [sign .rightParen]
  | _, someArguments list => list.words
  | _, lastArgument a => a.words ++ [sign .rightParen]
  | _, moreArguments a list => a.words ++ sign .comma :: list.words
  | _, conditional c t e =>
    sign .ifWord :: sign .leftParen :: (c.words ++ sign .rightParen :: sign .leftBrace ::
      (t.words ++ sign .rightBrace :: e.words))
  | _, noElse => []
  | _, elseIf d => sign .elseWord :: d.words
  | _, elseBranch e => sign .elseWord :: sign .leftBrace :: (e.words ++ [sign .rightBrace])
  | _, either first rest => first.words ++ rest.words
  | _, noEither => []
  | _, orElse right rest => sign .either :: (right.words ++ rest.words)
  | _, both first rest => first.words ++ rest.words
  | _, noBoth => []
  | _, andAlso right rest => sign .both :: (right.words ++ rest.words)
  | _, bare side => side.words
  | _, compared left relation _ right => left.words ++ sign relation.kind :: right.words
  | _, factorSide _ f => f.words
  | _, expressionSide _ f => f.words

/-- What the derivation stands for. Chains group to the left, and parentheses leave no node. -/
@[simp] def formula : {X : Symbol} → Derivation δ X → X.Meaning
  | _, expression first rest => rest.formula first.formula
  | _, noSum => id
  | _, sum op _ right rest => fun left => rest.formula (.binary .start op left right.formula)
  | _, term first rest => rest.formula first.formula
  | _, noProduct => id
  | _, product op _ right rest => fun left => rest.formula (.binary .start op left right.formula)
  | _, leaf _ f _ => f
  | _, negative _ f _ => f
  | _, circumstance _ v _ => .circumstance .start v
  | _, circumstanceCall _ v _ => .circumstance .start v
  | _, call _ function _ args => .call .start function args.formula
  | _, custom => .customSpan .start []
  | _, customCall bounds => .customSpan .start bounds.formula
  | _, group inner => inner.formula
  | _, branching d => d.formula
  | _, noArguments => []
  | _, someArguments list => list.formula
  | _, lastArgument a => [a.formula]
  | _, moreArguments a list => a.formula :: list.formula
  | _, conditional c t e => e.formula c.formula t.formula
  | _, noElse => fun c t => .ifThen .start c t
  | _, elseIf d => fun c t => .ifElse .start c t d.formula
  | _, elseBranch e => fun c t => .ifElse .start c t e.formula
  | _, either first rest => rest.formula first.formula
  | _, noEither => id
  | _, orElse right rest => fun left => rest.formula (.condition .start .either left right.formula)
  | _, both first rest => rest.formula first.formula
  | _, noBoth => id
  | _, andAlso right rest => fun left => rest.formula (.condition .start .both left right.formula)
  | _, bare side => side.formula
  | _, compared left relation _ right => .condition .start relation left.formula right.formula
  | _, factorSide _ f => f.formula
  | _, expressionSide _ f => f.formula

end Derivation

end Grammar

end Sundial
