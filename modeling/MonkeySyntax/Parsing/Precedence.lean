/-! How tightly an operator binds, weakest first. -/
namespace MonkeySyntax

inductive Precedence where
  | lowest | equals | lessGreater | sum | product | unary | call
  deriving DecidableEq

namespace Precedence

def rank : Precedence → Nat
  | lowest => 0
  | equals => 1
  | lessGreater => 2
  | sum => 3
  | product => 4
  | unary => 5
  | call => 6

instance : LT Precedence := ⟨fun weaker stronger => weaker.rank < stronger.rank⟩

instance : LE Precedence := ⟨fun weaker stronger => weaker.rank ≤ stronger.rank⟩

instance (p q : Precedence) : Decidable (p < q) := inferInstanceAs (Decidable (p.rank < q.rank))

instance (p q : Precedence) : Decidable (p ≤ q) := inferInstanceAs (Decidable (p.rank ≤ q.rank))

def name : Precedence → String
  | lowest => "Lowest"
  | equals => "Equals"
  | lessGreater => "LessGreater"
  | sum => "Sum"
  | product => "Product"
  | unary => "Prefix"
  | call => "Call"

def all : List Precedence := [lowest, equals, lessGreater, sum, product, unary, call]

def ofName? (text : String) : Option Precedence := all.find? (·.name == text)

theorem ofName?_name (p : Precedence) : ofName? p.name = some p := by cases p <;> decide

end Precedence

end MonkeySyntax
