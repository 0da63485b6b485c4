import LoxLang.Text.Visible

/-!
# Quoted text

Text between double quotes, with some characters escaped. Two conventions are
in use and differ in which characters have a short escape and in which of the
others are written by their code point.
-/

namespace LoxLang.Text.Quoted

set_option autoImplicit false

/-- The escape of a character, or nothing for one that stands for itself. -/
abbrev Convention := Char → Option String

/-- The text between double quotes under a convention. -/
def quote (escape : Convention) (text : String) : String :=
  let inner := text.toList.map fun char => (escape char).getD char.toString
  "\"" ++ String.join inner ++ "\""

/-- A code point in lower-case hexadecimal digits. -/
def hexadecimal (char : Char) : String := String.ofList (Nat.toDigits 16 char.toNat)

/-- The escapes that both conventions share. -/
def sharedEscape : Convention
  | '\x22' => some "\\\""
  | '\\' => some "\\\\"
  | '\n' => some "\\n"
  | '\r' => some "\\r"
  | '\t' => some "\\t"
  | _ => none

/-- The convention for showing a value: NUL has a short escape too, and every
other character that is not seen by itself is written as its code point in
braces. -/
def shownEscape : Convention := fun char =>
  match sharedEscape char with
  | some escape => some escape
  | none =>
    if char.toNat = 0 then some "\\0"
    else if isVisible char then none
    else some ("\\u\x7b" ++ hexadecimal char ++ "\x7d")

/-- The convention inside token objects: backspace and form feed have short
escapes too, and other characters below the space are written with four
digits. -/
def objectEscape : Convention := fun char =>
  match sharedEscape char with
  | some escape => some escape
  | none =>
    if char.toNat = 8 then some "\\b"
    else if char.toNat = 12 then some "\\f"
    else if char.toNat < 0x10 then some ("\\u000" ++ hexadecimal char)
    else if char.toNat < 0x20 then some ("\\u00" ++ hexadecimal char)
    else none

end LoxLang.Text.Quoted
