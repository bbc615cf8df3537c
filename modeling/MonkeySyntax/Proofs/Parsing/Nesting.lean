import MonkeySyntax.Proofs.Parsing.AppendOnlyDiagnostics

/-! How deep the trees are that a run builds. The limit is put on expressions that are open at once,
not on trees: a group takes a level and leaves no node, a left operand and a callee take none of
their own, and a block has the level of the expression around it. So trees are measured by the
levels that they take up, and a phrase builds no more than its depth leaves room for, whatever has
been given up before. -/
namespace MonkeySyntax

mutual

/-- The levels that reading the tree takes up, its groups left out. -/
@[simp] def Expr.nest : Expr → Nat
  | .identifier _ | .integer _ _ | .boolean _ => 1
  | .unary _ operand => operand.nest + 1
  | .binary left _ right => max left.nest (right.nest + 1)
  | .conditional condition consequence none => max condition.nest (nestBlock consequence) + 1
  | .conditional condition consequence (some alternative) =>
    max condition.nest (max (nestBlock consequence) (nestBlock alternative)) + 1
  | .function _ body => nestBlock body + 1
  | .call callee arguments => max callee.nest (nestArguments arguments)
termination_by structural expr => expr

/-- Those of the expression held; a statement takes up none of its own. -/
@[simp] def Stmt.nest : Stmt → Nat
  | .binding _ value => value.nest
  | .returning none => 0
  | .returning (some value) => value.nest
  | .expression value => value.nest
  | .block statements => nestBlock statements
termination_by structural stmt => stmt

@[simp] def nestBlock : List Stmt → Nat
  | [] => 0
  | stmt :: rest => max stmt.nest (nestBlock rest)
termination_by structural list => list

/-- Each argument is read one level inside the call. -/
@[simp] def nestArguments : List Expr → Nat
  | [] => 0
  | expr :: rest => max (expr.nest + 1) (nestArguments rest)
termination_by structural list => list

end

theorem nest_le_nestBlock {statements : List Stmt} {statement : Stmt}
    (member : statement ∈ statements) : statement.nest ≤ nestBlock statements := by
  induction member with
  | head rest => exact Nat.le_max_left _ _
  | tail first _ ih => exact Nat.le_trans ih (Nat.le_max_right _ _)

/-- Names take up nothing. -/
def Form.nest : (form : Form) → form.Tree → Nat
  | .name, _ => 0
  | .expression, tree => tree.nest
  | .statement, tree => tree.nest
  | .list .expression, trees => nestArguments trees
  | .list .statement, trees => nestBlock trees
  | .list _, _ => 0

def Parser.At (depth limit : Nat) (parser : Parser) : Prop :=
  parser.depth = depth ∧ parser.options.maxDepth = limit

theorem Parser.At.kept {depth limit : Nat} {before after : Parser} (at_ : before.At depth limit)
    (appended : before.AppendsOnly after) : after.At depth limit :=
  ⟨appended.depth.trans at_.1, appended.options ▸ at_.2⟩

/-- What the phrase builds at a depth fits into the levels left, and so many more. -/
def Nests (bound limit depth spare : Nat) (phrase : Phrase form) : Prop :=
  ∀ ⦃before after : Parser⦄ ⦃value : form.Tree⦄,
    (Parts.within bound).parse phrase before = .built value after → before.At depth limit →
    form.nest value + depth ≤ limit + spare

/-- The phrases that recur. A start of an expression and its continuations have the level that the
expression itself has taken to spare. -/
structure Nesting (bound limit : Nat) : Prop where
  expression {depth : Nat} (floor : Precedence) : Nests bound limit depth 0 (.expression floor)
  continuation {depth : Nat} (floor : Precedence) {left : Expr} : left.nest + depth ≤ limit + 1 →
    Nests bound limit depth 1 (.continuation floor left)
  arguments (depth : Nat) : Nests bound limit depth 1 (.items .arguments)
  statement {depth : Nat} : depth ≤ limit → Nests bound limit depth 0 .statement
  statements {depth : Nat} (extent : Extent) : depth ≤ limit →
    Nests bound limit depth 0 (.statements extent)

namespace Nesting

open MonkeySyntax.Parser Parts Parse

variable {bound limit depth : Nat} (h : Nesting bound limit)
include h

omit h in
/-- Depth and limit stay from the beginning of a phrase to its end. -/
theorem at_of_built {before after : Parser} (phrase : Phrase form) {value : form.Tree}
    (run : (Parts.within bound).parse phrase before = .built value after)
    (at_ : before.At depth limit) : after.At depth limit :=
  at_.kept ((Parts.neverSilent_within bound phrase).built run)

theorem block (room : depth ≤ limit) : Nests bound limit depth 0 .block := by
  intro before after list run at_
  exact h.statements .block room (block_eq_built.mp run) at_

theorem enclosed (room : depth ≤ limit + 1) :
    Nests bound limit depth 1 (.enclosed .arguments) := by
  intro before after list run at_
  rcases parenthesized_eq_built.mp run with ⟨_, rfl, _⟩ | ⟨_, final, inside, _, _⟩
  · exact (Nat.zero_add depth).symm ▸ room
  · exact h.arguments depth inside at_

theorem conditional (room : depth ≤ limit) :
    Nests bound limit depth 1 (.start .conditional) := by
  intro before after value run at_
  obtain ⟨_, condition, close, consequence, final, test, _, _, body, last⟩ :=
    conditional_eq_built.mp run
  have tested := h.expression .lowest test at_
  have closed : close.At depth limit := at_of_built (.expression .lowest) test at_
  have inside := h.block room body closed
  rcases last with ⟨_, rfl, _⟩ | ⟨_, _, alternative, other, rfl⟩
  · simp only [Form.nest, Expr.nest] at tested inside ⊢
    omega
  · have final_at : final.At depth limit := at_of_built .block body closed
    have inside' := h.block room other final_at
    simp only [Form.nest, Expr.nest] at tested inside inside' ⊢
    omega

theorem function (room : depth ≤ limit) : Nests bound limit depth 1 (.start .function) := by
  intro before after value run at_
  obtain ⟨_, parameters, listed, body, names, _, block, rfl⟩ := function_eq_built.mp run
  have listed_at : listed.At depth limit :=
    at_of_built (.enclosed .parameters) names at_
  have inside := h.block room block listed_at
  simp only [Form.nest, Expr.nest] at inside ⊢
  omega

theorem start (room : depth ≤ limit) (rule : StartRule) :
    Nests bound limit depth 1 (.start rule) := by
  intro before after value run at_
  have leaf : 1 + depth ≤ limit + 1 := by omega
  cases rule with
  | identifier =>
    obtain ⟨rfl, _⟩ := identifier_eq_built.mp run
    exact leaf
  | integer =>
    obtain ⟨number, _, rfl, _⟩ := integer_eq_built.mp run
    exact leaf
  | boolean =>
    obtain ⟨rfl, _⟩ := boolean_eq_built.mp run
    exact leaf
  | unary =>
    obtain ⟨operand, final, inside, rfl, _⟩ := unary_eq_built.mp run
    have under := h.expression .unary inside at_
    simp only [Form.nest, Expr.nest] at under ⊢
    omega
  | grouped =>
    obtain ⟨final, inside, _, _⟩ := grouped_eq_built.mp run
    exact Nat.le_succ_of_le (h.expression .lowest inside at_)
  | conditional => exact h.conditional room run at_
  | function => exact h.function room run at_

theorem extend {left : Expr} (fits : left.nest + depth ≤ limit + 1) (rule : ContinuationRule) :
    Nests bound limit depth 1 (.extend left rule) := by
  intro before after value run at_
  cases rule with
  | binary =>
    obtain ⟨right, final, inside, rfl, _⟩ := binary_eq_built.mp run
    have under := h.expression before.currentPrecedence inside at_
    simp only [Form.nest, Expr.nest] at under ⊢
    omega
  | call =>
    obtain ⟨list, inside, rfl⟩ := call_eq_built.mp run
    have under := h.enclosed (by omega) inside at_
    simp only [Form.nest, Expr.nest] at under ⊢
    omega

theorem expressionAbove (floor : Precedence) :
    Nests (bound + 1) limit depth 0 (.expression floor) := by
  intro before after value run at_
  obtain ⟨room, rule, left, middle, final, _, first, rest, _⟩ := expressionAbove_eq_built.mp run
  rw [at_.1, at_.2] at room
  have inside : before.opened.At (depth + 1) limit := ⟨congrArg (· + 1) at_.1, at_.2⟩
  have left_fits := h.start room rule first inside
  have middle_at : middle.At (depth + 1) limit := at_of_built (.start rule) first inside
  have fits := h.continuation floor left_fits rest middle_at
  simp only [Form.nest] at fits ⊢
  omega

theorem continueAbove (floor : Precedence) {left : Expr} (fits : left.nest + depth ≤ limit + 1) :
    Nests (bound + 1) limit depth 1 (.continuation floor left) := by
  intro before after value run at_
  rcases continueAbove_eq_built.mp run with ⟨_, rfl, _⟩ | ⟨rule, extended, middle, _, step, rest⟩
  · exact fits
  · have extended_fits := h.extend fits rule step at_
    have middle_at : middle.At depth limit :=
      at_of_built (.extend left rule) step at_
    exact h.continuation floor extended_fits rest middle_at

theorem argumentList : Nests (bound + 1) limit depth 1 (.items .arguments) := by
  intro before after list run at_
  obtain ⟨argument, middle, inside, last⟩ := argumentList_eq_built.mp run
  have first := h.expression .lowest inside at_
  rcases last with ⟨_, rfl, _⟩ | ⟨_, rest, more, rfl⟩
  · simp only [Form.nest, nestArguments] at first ⊢
    omega
  · have middle_at : middle.At depth limit :=
      at_of_built (.expression .lowest) inside at_
    have others := h.arguments depth more middle_at
    simp only [Form.nest, nestArguments] at first others ⊢
    omega

theorem expressionStatement {before after : Parser} {value : Stmt} (run :
    (Parts.within bound).expressionStatement before = .built value after)
    (at_ : before.At depth limit) : value.nest + depth ≤ limit := by
  obtain ⟨given, final, inside, rfl, _⟩ := expressionStatement_eq_built.mp run
  exact h.expression .lowest inside at_

theorem statementHere (room : depth ≤ limit) : Nests (bound + 1) limit depth 0 .statement := by
  intro before after value run at_
  have chosen : (Parts.within bound).statementHere before = .built value after := run
  rw [statementHere_apply] at chosen
  cases rule : before.grammar.statementRule before.current.kind with
  | any =>
    rw [rule] at chosen
    exact h.statement room chosen at_
  | binding =>
    rw [rule] at chosen
    obtain ⟨_, _, bound', final, inside, rfl, _⟩ := bindingStatement_eq_built.mp chosen
    exact h.expression .lowest inside at_
  | returning =>
    rw [rule] at chosen
    rcases returnStatement_eq_built.mp chosen with ⟨_, rfl, _⟩ | ⟨_, given, final, inside, rfl, _⟩
    · exact (Nat.zero_add depth).symm ▸ room
    · exact h.expression .lowest inside at_
  | expression =>
    rw [rule] at chosen
    exact h.expressionStatement chosen at_

theorem statementList (extent : Extent) (room : depth ≤ limit) :
    Nests (bound + 1) limit depth 0 (.statements extent) := by
  intro before after list run at_
  rcases statementList_eq_built.mp run with
    ⟨_, rfl, _⟩ | ⟨_, ⟨statement, middle, rest, inside, more, rfl⟩ | ⟨middle, given_up, more⟩⟩
  · exact (Nat.zero_add depth).symm ▸ room
  · have first := h.statement room inside at_
    have middle_at : middle.At depth limit := at_of_built .statement inside at_
    have others := h.statements extent room more middle_at
    simp only [Form.nest, nestBlock] at first others ⊢
    omega
  · -- A statement given up has left the depth as it was, so what follows has the same room.
    have middle_at : middle.At depth limit :=
      at_.kept ((Parts.neverSilent_within bound .statement).abandoned given_up).1
    exact h.statements extent room more middle_at

end Nesting

theorem nesting (bound limit : Nat) : Nesting bound limit := by
  induction bound with
  | zero =>
    exact ⟨fun _ _ _ _ => nofun, fun _ _ _ _ _ _ => nofun, fun _ _ _ _ => nofun,
      fun _ _ _ _ => nofun, fun _ _ _ _ _ => nofun⟩
  | succ bound h =>
    exact ⟨h.expressionAbove, h.continueAbove, fun _ => h.argumentList, h.statementHere,
      h.statementList⟩

/-- Whatever the text and its faults, no expression read takes up more levels than allowed. -/
theorem readText_nest_le (options : Options) (file text : String) :
    ∀ statement ∈ (readText options file text).program, statement.nest ≤ options.maxDepth := by
  intro statement member
  rw [readText] at member
  split at member
  · next program after run =>
    have start : (Parser.start options (.ofText file text)).At 0 options.maxDepth := ⟨rfl, rfl⟩
    have fits := (nesting _ _).statements .program (Nat.zero_le _) run start
    exact Nat.le_trans (nest_le_nestBlock member) fits
  · exact absurd member List.not_mem_nil
  · exact absurd member List.not_mem_nil

set_option maxRecDepth 20000 in
/-- The groups are refused, and what is read behind them has all levels for itself again. -/
theorem readText_nest_le_resumed :
    Stmt.expression (.unary "-" (.identifier "x")) ∈
      (readText { maxDepth := 2 } "f" "((1 -x").program ∧
    (Stmt.expression (.unary "-" (.identifier "x"))).nest ≤ 2 := by
  have member : Stmt.expression (.unary "-" (.identifier "x")) ∈
      (readText { maxDepth := 2 } "f" "((1 -x").program := by
    have read : (readText { maxDepth := 2 } "f" "((1 -x").program =
        [.expression (.unary "-" (.identifier "x"))] := rfl
    rw [read]
    exact List.mem_singleton_self _
  exact ⟨member, readText_nest_le { maxDepth := 2 } "f" "((1 -x" _ member⟩

end MonkeySyntax
