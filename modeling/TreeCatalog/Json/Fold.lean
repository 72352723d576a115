/-! # Matching object keys to field names

A key names a field when it equals the field's name, or equals it up to case. Case is compared by
folding each character to the least member of its simple case-folding orbit: ASCII letters to
upper case, and the two non-ASCII letters whose orbit reaches ASCII (long s, Kelvin sign) to
that ASCII capital. The dotted capital I and the dotless i fold only to themselves. Field names
here are ASCII, so every other character can only match itself. -/

namespace TreeCatalog.Json

/-- The folded form of a character. -/
def foldChar (c : Char) : Char :=
  if 'a' ≤ c ∧ c ≤ 'z' then Char.ofNat (c.toNat - 32)
  else if c.toNat = 0x17F then 'S'
  else if c.toNat = 0x212A then 'K'
  else c

/-- Whether a key names a field, exactly or up to case. -/
def keyMatches (name key : String) : Bool :=
  key == name || key.toList.map foldChar == name.toList.map foldChar

theorem keyMatches_self (name : String) : keyMatches name name = true := by
  simp [keyMatches]

end TreeCatalog.Json
