import MonkeySyntax.Text.Classes

/-! Decimal numerals: one ASCII digit or more, of any length, leading zeros included. -/
namespace MonkeySyntax.Text

def digitValue (c : Char) : Nat := c.toNat - '0'.toNat

def decimalValue (digits : List Char) : Nat :=
  digits.foldl (fun value digit => 10 * value + digitValue digit) 0

def isNumeral (text : List Char) : Bool := !text.isEmpty && text.all isDigit

/-- The value of a numeral below the bound. -/
def numeralBelow? (bound : Nat) (text : List Char) : Option Nat :=
  if isNumeral text && decimalValue text < bound then some (decimalValue text) else none

theorem numeralBelow?_eq_some_iff {bound value : Nat} {text : List Char} :
    numeralBelow? bound text = some value ↔
      isNumeral text ∧ decimalValue text < bound ∧ decimalValue text = value := by
  simp [numeralBelow?, and_assoc]

end MonkeySyntax.Text
