/-!
# Styled text

Terminal text in colours and weights. A style is switched on in front of a text and off behind it,
so the style that is applied last stands outermost.
-/

set_option autoImplicit false

namespace Sundial

inductive Colour where
  | red
  | green
  | yellow
  | cyan
  | grey
  | brightBlue
  deriving DecidableEq, Repr

/-- The number that switches a colour on. -/
def Colour.code : Colour → Nat
  | red => 31
  | green => 32
  | yellow => 33
  | cyan => 36
  | grey => 90
  | brightBlue => 94

/-- The control sequence for a number. -/
def styleMark (code : Nat) : String := "\x1b[" ++ toString code ++ "m"

/-- A text in a colour; behind it the colour is the terminal's own again. -/
def Colour.paint (c : Colour) (s : String) : String := styleMark c.code ++ s ++ styleMark 39

def bold (s : String) : String := styleMark 1 ++ s ++ styleMark 0

def faint (s : String) : String := styleMark 2 ++ s ++ styleMark 0

end Sundial
