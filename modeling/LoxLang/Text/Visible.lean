import LoxLang.Text.Extending
import LoxLang.Text.Unassigned

/-!
# Characters that are seen by themselves

A character is seen by itself if it leaves a mark on the page and needs no
other character for that. Spaces other than U+0020, separators, control and
format characters, private use, fillers, extending marks and code points
without a character are not. The tables are those of Unicode 17.
-/

namespace LoxLang.Text

set_option autoImplicit false

/-- Separators, control and format characters and private use: the general
categories Zs, Zl, Zp, Cc, Cf and Co, but for the space U+0020. -/
def unmarked : Ranges :=
  [(0x0, 0x1f), (0x7f, 0xa0), (0xad, 0xad), (0x600, 0x605), (0x61c, 0x61c), (0x6dd, 0x6dd),
   (0x70f, 0x70f), (0x890, 0x891), (0x8e2, 0x8e2), (0x1680, 0x1680), (0x180e, 0x180e),
   (0x2000, 0x200f), (0x2028, 0x202f), (0x205f, 0x2064), (0x2066, 0x206f), (0x3000, 0x3000),
   (0xe000, 0xf8ff), (0xfeff, 0xfeff), (0xfff9, 0xfffb), (0x110bd, 0x110bd), (0x110cd, 0x110cd),
   (0x13430, 0x1343f), (0x1bca0, 0x1bca3), (0x1d173, 0x1d17a), (0xe0001, 0xe0001),
   (0xe0020, 0xe007f), (0xf0000, 0xffffd), (0x100000, 0x10fffd)]

/-- Code points that are drawn as nothing where they have no effect: the
property Default_Ignorable_Code_Point. Among them are fillers that count as
letters. -/
def ignorable : Ranges :=
  [(0xad, 0xad), (0x34f, 0x34f), (0x61c, 0x61c), (0x115f, 0x1160), (0x17b4, 0x17b5),
   (0x180b, 0x180f), (0x200b, 0x200f), (0x202a, 0x202e), (0x2060, 0x206f), (0x3164, 0x3164),
   (0xfe00, 0xfe0f), (0xfeff, 0xfeff), (0xffa0, 0xffa0), (0xfff0, 0xfff8), (0x1bca0, 0x1bca3),
   (0x1d173, 0x1d17a), (0xe0000, 0xe0fff)]

/-- Whether a character is seen by itself. -/
def isVisible (char : Char) : Bool :=
  !(unmarked.contains char.toNat || ignorable.contains char.toNat ||
    extending.contains char.toNat || unassigned.contains char.toNat)

end LoxLang.Text
