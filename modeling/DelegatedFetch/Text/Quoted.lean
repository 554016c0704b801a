import DelegatedFetch.Text.Ranges

/-!
# Quoted texts

A text in a log stands in double quotes on one line. Quotes, backslashes and
line ends are escaped, and so is each character that would not show: controls,
spaces other than the plain one, marks of direction, private characters, and
accents, which would change the character before them.
-/

namespace DelegatedFetch.Quoted

/-- The characters that do not show on their own. -/
def isHidden : Char → Bool :=
  inRanges [(0x00, 0x1F), (0x7F, 0xA0), (0xAD, 0xAD), (0x300, 0x36F), (0x483, 0x489),
    (0x591, 0x5BD), (0x5BF, 0x5BF), (0x5C1, 0x5C2), (0x5C4, 0x5C5), (0x5C7, 0x5C7),
    (0x600, 0x605), (0x610, 0x61A), (0x61C, 0x61C), (0x64B, 0x65F), (0x670, 0x670),
    (0x6D6, 0x6DD), (0x6DF, 0x6E4), (0x6E7, 0x6E8), (0x6EA, 0x6ED), (0x1680, 0x1680),
    (0x180B, 0x180F), (0x1AB0, 0x1ACE), (0x1DC0, 0x1DFF), (0x2000, 0x200F), (0x2028, 0x202F),
    (0x205F, 0x206F), (0x20D0, 0x20F0), (0x3000, 0x3000), (0x302A, 0x302F), (0x3099, 0x309A),
    (0xE000, 0xF8FF), (0xFE00, 0xFE0F), (0xFE20, 0xFE2F), (0xFEFF, 0xFEFF), (0xFF9E, 0xFF9F),
    (0xFFF0, 0xFFFB), (0xFFFE, 0xFFFF), (0xE0000, 0x10FFFF)]

def codeDigits (c : Char) : List Char := Nat.toDigits 16 c.toNat

def encodeChar (c : Char) : List Char :=
  if c = '\x00' then ['\\', '0']
  else if c = '\t' then ['\\', 't']
  else if c = '\r' then ['\\', 'r']
  else if c = '\n' then ['\\', 'n']
  else if c = '"' || c = '\\' then ['\\', c]
  else if isHidden c then ['\\', 'u', '{'] ++ codeDigits c ++ ['}']
  else [c]

def encode (s : String) : String := "\"" ++ String.ofList (s.toList.flatMap encodeChar) ++ "\""

end DelegatedFetch.Quoted
