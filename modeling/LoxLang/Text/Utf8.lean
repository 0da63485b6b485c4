/-!
# Reading UTF-8

A lead byte announces, for each byte that must follow it, the range that byte
may lie in (`following?`). A character is a lead byte and one byte from each
range. Bytes that are no UTF-8 are described by their first fault: where the
unfinished character starts, and how many of its bytes were still acceptable,
or that the input ended inside it.

Decoding with replacement goes on behind a fault and puts one replacement
character where the acceptable bytes were.
-/

namespace LoxLang.Text.Utf8

set_option autoImplicit false

/-- The first place where bytes are not UTF-8. Without a length, the input
ends inside a character. -/
structure Fault where
  index : Nat
  length : Option Nat
  deriving DecidableEq, Repr

/-- The wording of a fault. -/
def Fault.message (fault : Fault) : String :=
  match fault.length with
  | some length =>
    "invalid utf-8 sequence of " ++ length.repr ++ " bytes from index " ++ fault.index.repr
  | none => "incomplete utf-8 byte sequence from index " ++ fault.index.repr

/-- The range of an ordinary continuation byte. -/
def continuation : Nat × Nat := (0x80, 0xbf)

/-- The ranges of the bytes that must follow a lead byte, and nothing for a
byte that leads no character. -/
def following? (lead : Nat) : Option (List (Nat × Nat)) :=
  if lead < 0x80 then some []
  else if lead < 0xc2 then none
  else if lead < 0xe0 then some [continuation]
  else if lead = 0xe0 then some [(0xa0, 0xbf), continuation]
  else if lead = 0xed then some [(0x80, 0x9f), continuation]
  else if lead < 0xf0 then some [continuation, continuation]
  else if lead = 0xf0 then some [(0x90, 0xbf), continuation, continuation]
  else if lead < 0xf4 then some [continuation, continuation, continuation]
  else if lead = 0xf4 then some [(0x80, 0x8f), continuation, continuation]
  else none

/-- The outcome of reading one character: its size, or a fault with the number
of acceptable bytes unless the input ended. -/
inductive Step where
  | char (size : Nat)
  | broken (length : Option Nat)

/-- Reads the bytes behind a lead byte. -/
def readFollowing (size : Nat) : List (Nat × Nat) → List UInt8 → Step
  | [], _ => .char size
  | _ :: _, [] => .broken none
  | (low, high) :: ranges, byte :: bytes =>
    if low ≤ byte.toNat ∧ byte.toNat ≤ high then readFollowing (size + 1) ranges bytes
    else .broken (some size)

/-- Reads the character that starts with a given byte. -/
def readChar (lead : UInt8) (bytes : List UInt8) : Step :=
  match following? lead.toNat with
  | none => .broken (some 1)
  | some ranges => readFollowing 1 ranges bytes

/-- The first fault from an index on; the fuel is at least the number of
bytes. -/
def faultFrom? : Nat → Nat → List UInt8 → Option Fault
  | _, _, [] => none
  | 0, _, _ :: _ => none
  | fuel + 1, index, lead :: bytes =>
    match readChar lead bytes with
    | .broken length => some ⟨index, length⟩
    | .char size => faultFrom? fuel (index + size) (bytes.drop (size - 1))

/-- The first fault of bytes that are no UTF-8. -/
def fault? (bytes : List UInt8) : Option Fault := faultFrom? bytes.length 0 bytes

/-- The text of bytes without a fault. -/
def text (bytes : List UInt8) : String := (String.fromUTF8? bytes.toByteArray).getD ""

/-- The text that bytes encode, or their first fault. -/
def decode (bytes : List UInt8) : Except Fault String :=
  match fault? bytes with
  | some fault => .error fault
  | none => .ok (text bytes)

/-- The text that bytes encode, with up to `fuel` faults replaced. -/
def replaceFaults : Nat → List UInt8 → String
  | 0, _ => ""
  | fuel + 1, bytes =>
    match fault? bytes with
    | none => text bytes
    | some ⟨index, length⟩ =>
      let rest := match length with
        | some bad => replaceFaults fuel (bytes.drop (index + bad))
        | none => ""
      text (bytes.take index) ++ "\uFFFD" ++ rest

/-- The text that bytes encode, with each fault replaced. -/
def decodeReplacing (bytes : List UInt8) : String := replaceFaults (bytes.length + 1) bytes

end LoxLang.Text.Utf8
