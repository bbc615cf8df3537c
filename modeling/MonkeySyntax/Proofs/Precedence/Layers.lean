import MonkeySyntax.Proofs.Parsing.Window
import MonkeySyntax.Proofs.Source.Printer

/-! Chains of operators and the trees over them. A chain is a list of operands and a list of the
operators between them; a tree over it is layered when every operator has the weaker ones above it,
and equal ones above it only from the right. -/
namespace MonkeySyntax

namespace Expr

/-- The operator of a binary expression. -/
def top? : Expr → Option String
  | .binary _ operator _ => some operator
  | _ => none

/-- The operands of a tree of binary expressions, in source order. -/
@[simp] def operands : Expr → List Expr
  | .binary left _ right => left.operands ++ right.operands
  | operand => [operand]
termination_by structural expr => expr

@[simp] def operators : Expr → List String
  | .binary left operator right => left.operators ++ operator :: right.operators
  | _ => []
termination_by structural expr => expr

/-- The prefix operators in front of an atom. -/
@[simp] def run : Expr → Nat
  | .unary _ operand => operand.run + 1
  | _ => 0
termination_by structural expr => expr

/-- A run of prefix operators and an atom behind it. -/
inductive IsOperand : Expr → Prop
  | identifier : IsOperand (.identifier name)
  | integer : IsNumber value literal → IsOperand (.integer value literal)
  | boolean : IsOperand (.boolean value)
  | unary : operator ∈ prefixOperators → IsOperand operand → IsOperand (.unary operator operand)

inductive Layered (strength : String → Precedence) : Expr → Prop
  | operand : operand.top? = none → Layered strength operand
  | binary : Layered strength left → Layered strength right →
      (∀ inner, left.top? = some inner → strength operator ≤ strength inner) →
      (∀ inner, right.top? = some inner → strength operator < strength inner) →
      Layered strength (.binary left operator right)

theorem IsOperand.top? {operand : Expr} (is : operand.IsOperand) : operand.top? = none := by
  cases is <;> rfl

theorem operands_of_top? {operand : Expr} (alone : operand.top? = none) :
    operand.operands = [operand] ∧ operand.operators = [] := by
  cases operand with
  | binary => cases alone
  | _ => exact ⟨rfl, rfl⟩

theorem length_operands (tree : Expr) : tree.operands.length = tree.operators.length + 1 := by
  fun_induction operands tree with
  | case1 left operator right ih ih' =>
    simp only [operators, List.length_append, List.length_cons, ih, ih']
    omega
  | case2 operand alone =>
    cases operand with
    | binary left operator right => exact absurd rfl (alone left operator right)
    | _ => rfl

/-- Attaches an operator and its right operand behind a tree, below all weaker operators. -/
def attach (strength : String → Precedence) : Expr → String → Expr → Expr
  | .binary left inner right, operator, operand =>
    if strength inner < strength operator then
      .binary left inner (right.attach strength operator operand)
    else .binary (.binary left inner right) operator operand
  | tree, operator, operand => .binary tree operator operand
termination_by structural tree => tree

section Attach

variable {strength : String → Precedence} {operator : String} {operand : Expr}

theorem attach_of_top? {tree : Expr} (alone : tree.top? = none) :
    tree.attach strength operator operand = .binary tree operator operand := by
  cases tree with
  | binary => cases alone
  | _ => rfl

theorem operands_attach (tree : Expr) (alone : operand.top? = none) :
    (tree.attach strength operator operand).operands = tree.operands ++ [operand] ∧
      (tree.attach strength operator operand).operators = tree.operators ++ [operator] := by
  obtain ⟨single, none⟩ := operands_of_top? alone
  fun_induction attach strength tree operator operand with
  | case1 left inner right operator operand weaker ih =>
    obtain ⟨same, same'⟩ := ih alone single none
    simp only [operands, operators, same, same', List.append_assoc, List.cons_append, and_self]
  | case2 left inner right operator operand => simp [operands, operators, single, none]
  | case3 tree operator operand => simp [operands, operators, single, none]

/-- The operator on top of an attached tree is the new one, or was there before. -/
theorem top?_attach {tree : Expr} {outer : String}
    (top : (tree.attach strength operator operand).top? = some outer) :
    outer = operator ∨ tree.top? = some outer := by
  cases tree with
  | binary left inner right =>
    by_cases weaker : strength inner < strength operator
    · rw [attach, if_pos weaker] at top
      exact .inr top
    · rw [attach, if_neg weaker] at top
      exact .inl (Option.some.inj top).symm
  | _ => exact .inl (Option.some.inj top).symm

theorem Layered.attach {tree : Expr} (layered : Layered strength tree)
    (alone : operand.top? = none) : Layered strength (tree.attach strength operator operand) := by
  induction layered with
  | operand none =>
    rw [attach_of_top? none]
    apply Layered.binary (.operand none) (.operand alone)
    · rw [none]; nofun
    · rw [alone]; nofun
  | @binary left right inner layered layered' above above' ih ih' =>
    by_cases weaker : strength inner < strength operator
    · rw [Expr.attach, if_pos weaker]
      refine .binary layered ih' above fun outer top => ?_
      rcases top?_attach top with rfl | top
      · exact weaker
      · exact above' outer top
    · rw [Expr.attach, if_neg weaker]
      apply Layered.binary (.binary layered layered' above above') (.operand alone)
      · rintro _ ⟨⟩
        exact Nat.le_of_not_lt weaker
      · rw [alone]; nofun

/-- Every chain has a layered tree over it. -/
theorem exists_layered {tree : Expr} (layered : Layered strength tree) {others : List Expr}
    {signs : List String} (many : others.length = signs.length)
    (alone : ∀ operand ∈ others, operand.top? = none) :
    ∃ whole, Layered strength whole ∧ whole.operands = tree.operands ++ others ∧
      whole.operators = tree.operators ++ signs := by
  induction signs generalizing tree others with
  | nil =>
    obtain rfl := List.length_eq_zero_iff.mp many
    exact ⟨tree, layered, (List.append_nil _).symm, (List.append_nil _).symm⟩
  | cons sign signs ih =>
    cases others with
    | nil => cases many
    | cons operand others =>
      obtain ⟨first, alone⟩ := List.forall_mem_cons.mp alone
      obtain ⟨operands, operators⟩ := operands_attach tree first
      obtain ⟨whole, layered, same, same'⟩ :=
        ih (layered.attach first) (Nat.succ.inj many) alone
      refine ⟨whole, layered, ?_, ?_⟩
      · rw [same, operands, List.append_assoc, List.singleton_append]
      · rw [same', operators, List.append_assoc, List.singleton_append]

end Attach

end Expr

/-- The terminals of an operand. -/
def Expr.spelling : Expr → List Terminal
  | .identifier name => [⟨.ident, name⟩]
  | .integer _ literal => [⟨.int, literal⟩]
  | .boolean true => [⟨.trueWord, "true"⟩]
  | .boolean false => [⟨.falseWord, "false"⟩]
  | .unary operator operand => ⟨Lexeme.kind operator.toList, operator⟩ :: operand.spelling
  | _ => []
termination_by structural expr => expr

/-- The terminals of a chain. -/
def chain : List Expr → List String → List Terminal
  | [], _ => []
  | operand :: _, [] => operand.spelling
  | operand :: operands, operator :: operators =>
    operand.spelling ++ ⟨Lexeme.kind operator.toList, operator⟩ :: chain operands operators

theorem chain_append {left right : List Expr} {before after : List String} {operator : String}
    (many : left.length = before.length + 1) :
    chain (left ++ right) (before ++ operator :: after) =
      chain left before ++ ⟨Lexeme.kind operator.toList, operator⟩ :: chain right after := by
  induction before generalizing left with
  | nil =>
    obtain ⟨operand, rfl⟩ := List.length_eq_one_iff.mp many
    rfl
  | cons first before ih =>
    cases left with
    | nil => cases many
    | cons operand left =>
      simp only [List.cons_append, chain, List.append_assoc]
      rw [ih (Nat.succ.inj many)]

end MonkeySyntax
