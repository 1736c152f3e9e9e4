/-
This file classifies characters for markup: the blanks, the characters that a document may
hold, and the characters of names.
-/

namespace RunSigning.Markup

/-- The blanks of markup are space, tab, carriage return and line feed. -/
def isSpace (c : Char) : Bool := c == ' ' || c == '\t' || c == '\r' || c == '\n'

/-- A document holds blanks and the characters from U+0020 on, except U+FFFE and U+FFFF. -/
def isAllowed (c : Char) : Bool :=
  if c.toNat < 0x20 then isSpace c else c.toNat != 0xFFFE && c.toNat != 0xFFFF

/-- The characters that may begin a name. -/
def isNameStart (c : Char) : Bool :=
  let code := c.toNat
  c == ':' || c == '_' || c.isAlpha ||
    (0xC0 ≤ code && code ≤ 0xD6) || (0xD8 ≤ code && code ≤ 0xF6) ||
    (0xF8 ≤ code && code ≤ 0x2FF) || (0x370 ≤ code && code ≤ 0x37D) ||
    (0x37F ≤ code && code ≤ 0x1FFF) || (0x200C ≤ code && code ≤ 0x200D) ||
    (0x2070 ≤ code && code ≤ 0x218F) || (0x2C00 ≤ code && code ≤ 0x2FEF) ||
    (0x3001 ≤ code && code ≤ 0xD7FF) || (0xF900 ≤ code && code ≤ 0xFDCF) ||
    (0xFDF0 ≤ code && code ≤ 0xFFFD) || (0x10000 ≤ code && code ≤ 0xEFFFF)

/-- The characters that may continue a name. -/
def isNameCharacter (c : Char) : Bool :=
  let code := c.toNat
  isNameStart c || c == '-' || c == '.' || c.isDigit || code == 0xB7 ||
    (0x300 ≤ code && code ≤ 0x36F) || (0x203F ≤ code && code ≤ 0x2040)

theorem isAllowed_of_isSpace {c : Char} (space : isSpace c) : isAllowed c := by
  simp only [isSpace, Bool.or_eq_true, beq_iff_eq] at space
  rcases space with ((rfl | rfl) | rfl) | rfl <;> decide

end RunSigning.Markup
