import Sundial.Text.Unseen

/-!
# Escaped strings

Two ways to quote a string. `jsonQuoted` escapes what JSON documents require; `outlineQuoted` also
escapes what would not be seen, by code point.
-/

set_option autoImplicit false

namespace Sundial.Text

/-- A number in lower-case hexadecimal digits. -/
def hex (n : Nat) : String := String.ofList (Nat.toDigits 16 n)

/-- A character inside a JSON string. -/
def jsonChar (c : Char) : String :=
  if c = '"' then "\\\""
  else if c = '\\' then "\\\\"
  else if c = '\n' then "\\n"
  else if c = '\r' then "\\r"
  else if c = '\t' then "\\t"
  else if c.toNat = 8 then "\\b"
  else if c.toNat = 12 then "\\f"
  else if c.toNat < 32 then "\\u00" ++ (if c.toNat < 16 then "0" else "") ++ hex c.toNat
  else c.toString

def jsonQuoted (s : String) : String :=
  "\"" ++ String.join (s.toList.map jsonChar) ++ "\""

/-- A character inside a string of an outline. -/
def outlineChar (c : Char) : String :=
  if c = '"' then "\\\""
  else if c = '\\' then "\\\\"
  else if c = '\n' then "\\n"
  else if c = '\r' then "\\r"
  else if c = '\t' then "\\t"
  else if c.toNat = 0 then "\\0"
  else if isUnseen c then "\\u\x7b" ++ hex c.toNat ++ "\x7d"
  else c.toString

def outlineQuoted (s : String) : String :=
  "\"" ++ String.join (s.toList.map outlineChar) ++ "\""

end Sundial.Text
