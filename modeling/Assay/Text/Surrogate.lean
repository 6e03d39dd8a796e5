/-!
# Lone surrogates

A JSON text may escape one half of a surrogate pair without the other. That is a code point but no
character; the private character of the last plane with the same last four digits stands in for it.
A text that holds this character itself is not told from one that escapes the half.
-/

namespace Assay.Text

/-- The code point is one half of a pair. -/
def isSurrogate (code : Nat) : Bool := 0xD800 ≤ code && code ≤ 0xDFFF

/-- The character for a code point, or what stands in for it. -/
def ofCodePoint (code : Nat) : Char :=
  Char.ofNat (if isSurrogate code then 0x100000 + code else code)

/-- The code point that a character is, or stands in for. -/
def codePoint (c : Char) : Nat :=
  if 0x10D800 ≤ c.toNat && c.toNat ≤ 0x10DFFF then c.toNat - 0x100000 else c.toNat

/-- Surrogates keep their code point. -/
theorem codePoint_ofCodePoint {code : Nat} (h : isSurrogate code = true) :
    codePoint (ofCodePoint code) = code := by
  have bounds : 0xD800 ≤ code ∧ code ≤ 0xDFFF := by simpa [isSurrogate] using h
  have valid : (0x100000 + code).isValidChar := Or.inr ⟨by omega, by omega⟩
  have value : (ofCodePoint code).toNat = 0x100000 + code := by
    rw [ofCodePoint, if_pos h, Char.ofNat, dif_pos valid]
    rfl
  simp [codePoint, value]
  omega

end Assay.Text
