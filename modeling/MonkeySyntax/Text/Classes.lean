import MonkeySyntax.Text.Alphabetic

/-! Classes of characters. Scanning knows four blanks and the ten ASCII digits; trimming uses the
Unicode property `White_Space`, which is wider. -/
namespace MonkeySyntax.Text

def isLetter (c : Char) : Bool := isAlphabetic c || c == '_'

def isDigit (c : Char) : Bool := '0' ≤ c && c ≤ '9'

/-- Separates tokens. -/
def isBlank (c : Char) : Bool := c == ' ' || c == '\t' || c == '\n' || c == '\r'

/-- Indents a line. -/
def isIndent (c : Char) : Bool := c == ' ' || c == '\t'

def whiteSpace : List Nat :=
  [0x09, 0x0a, 0x0b, 0x0c, 0x0d, 0x20, 0x85, 0xa0, 0x1680, 0x2000, 0x2001, 0x2002, 0x2003, 0x2004,
    0x2005, 0x2006, 0x2007, 0x2008, 0x2009, 0x200a, 0x2028, 0x2029, 0x202f, 0x205f, 0x3000]

def isSpace (c : Char) : Bool := whiteSpace.contains c.toNat

def trimRight (text : List Char) : List Char := (text.reverse.dropWhile isSpace).reverse

def trim (text : List Char) : List Char := trimRight (text.dropWhile isSpace)

/-- Looks at the characters of the text alone. -/
instance decidableText {p : Char → Prop} [DecidablePred p] (text : List Char) :
    Decidable (∀ c ∈ text, p c) := List.decidableBAll p text

theorem isSpace_of_isBlank {c : Char} (h : isBlank c) : isSpace c := by
  simp only [isBlank, Bool.or_eq_true, beq_iff_eq, or_assoc] at h
  rcases h with rfl | rfl | rfl | rfl <;> decide

theorem isBlank_of_isIndent {c : Char} (h : isIndent c) : isBlank c := by
  simp only [isIndent, Bool.or_eq_true, beq_iff_eq] at h
  rcases h with rfl | rfl <;> decide

theorem isDigit_iff {c : Char} : isDigit c ↔ 48 ≤ c.toNat ∧ c.toNat ≤ 57 := by
  simp only [isDigit, Bool.and_eq_true, decide_eq_true_eq]
  exact Iff.rfl

theorem isLetter_of_ascii {c : Char} (ascii : c.toNat < 128) :
    isLetter c ↔
      65 ≤ c.toNat ∧ c.toNat ≤ 90 ∨ 97 ≤ c.toNat ∧ c.toNat ≤ 122 ∨ c = '_' := by
  rw [isLetter, isAlphabetic_of_ascii ascii]
  delta Char.isAlpha Char.isUpper Char.isLower
  simp only [Bool.or_eq_true, Bool.and_eq_true, decide_eq_true_eq, beq_iff_eq, or_assoc]
  exact Iff.rfl

theorem not_isLetter_of_isDigit {c : Char} (digit : isDigit c) : isLetter c = false := by
  obtain ⟨low, high⟩ := isDigit_iff.mp digit
  refine Bool.eq_false_iff.mpr fun letter => ?_
  rcases (isLetter_of_ascii (by omega)).mp letter with h | h | rfl
  · omega
  · omega
  · revert high; decide

theorem not_isBlank_of_isLetter {c : Char} (letter : isLetter c) : isBlank c = false := by
  refine Bool.eq_false_iff.mpr fun blank => ?_
  simp only [isBlank, Bool.or_eq_true, beq_iff_eq, or_assoc] at blank
  rcases blank with rfl | rfl | rfl | rfl <;> revert letter <;> decide

theorem not_isBlank_of_isDigit {c : Char} (digit : isDigit c) : isBlank c = false := by
  refine Bool.eq_false_iff.mpr fun blank => ?_
  simp only [isBlank, Bool.or_eq_true, beq_iff_eq, or_assoc] at blank
  rcases blank with rfl | rfl | rfl | rfl <;> revert digit <;> decide

end MonkeySyntax.Text
