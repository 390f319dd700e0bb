import Sundial.Formula.Tree
import Sundial.Number.Text
import Sundial.Text.Escape
import Sundial.Text.Outline

/-!
# Outlines of formulas

The tree of a formula over several lines, with the position of every node.
-/

set_option autoImplicit false

namespace Sundial

open Text (Outline)

/-- A word of the vocabulary with its parts joined and capitalised. -/
def joinedWord (name : String) : String :=
  String.join ((name.splitOn "_").map String.capitalize)

def Operator.outlineName : Operator → String
  | add => "Add"
  | sub => "Sub"
  | mul => "Mul"
  | div => "Div"

def Relation.outlineName : Relation → String
  | greater => "Gt"
  | less => "Lt"
  | greaterEqual => "Ge"
  | lessEqual => "Le"
  | equal => "Eq"
  | notEqual => "Ne"
  | both => "And"
  | either => "Or"

def Position.outline (p : Position) : Outline :=
  .record "Position" [("line", .atom (toString p.line)), ("column", .atom (toString p.column))]

namespace Formula

/-- A node: what it is, and where. -/
def nodeOutline (pos : Position) (kind : Outline) : Outline :=
  .record "Node" [("kind", kind), ("pos", pos.outline)]

/-- A node that holds one word or value. -/
def leafOutline (pos : Position) (head value : String) : Outline :=
  nodeOutline pos (.wrapped head [.atom value])

mutual

def outline : Formula → Outline
  | primitive pos event => leafOutline pos "Primitive" (joinedWord event.name)
  | call pos function args =>
    nodeOutline pos (.record "Function"
      [("name", .atom (joinedWord function.name)), ("args", .list (outlines args))])
  | binary pos op left right =>
    nodeOutline pos (.record "Binary"
      [("op", .atom op.outlineName), ("left", outline left), ("right", outline right)])
  | duration pos minutes text =>
    nodeOutline pos (.record "Duration"
      [("minutes", .atom (numberText .outline minutes)), ("text", .atom (Text.outlineQuoted text))])
  | number pos value => leafOutline pos "Number" (numberText .outline value)
  | string pos value => leafOutline pos "String" (Text.outlineQuoted value)
  | reference pos key => leafOutline pos "Reference" (Text.outlineQuoted key)
  | direction pos d => leafOutline pos "Direction" (joinedWord d.name)
  | span pos b => leafOutline pos "Base" (joinedWord b.name)
  | customSpan pos bounds =>
    nodeOutline pos (.wrapped "Base" [.wrapped "Custom" [.list (outlines bounds)]])
  | ifThen pos c t =>
    nodeOutline pos (.record "Conditional"
      [("condition", outline c), ("then_branch", outline t), ("else_branch", .atom "None")])
  | ifElse pos c t e =>
    nodeOutline pos (.record "Conditional"
      [("condition", outline c), ("then_branch", outline t),
       ("else_branch", .wrapped "Some" [outline e])])
  | condition pos relation left right =>
    nodeOutline pos (.record "Condition"
      [("op", .atom relation.outlineName), ("left", outline left), ("right", outline right)])
  | circumstance pos v => leafOutline pos "ConditionVar" (joinedWord v.name)

def outlines : List Formula → List Outline
  | [] => []
  | a :: rest => outline a :: outlines rest

end

end Formula

end Sundial
