import MonkeySyntax.Proofs.Source.RoundTrip
import MonkeySyntax.Tree.Render

/-! The canonical text of a program is read as that program, as long as no block is rendered: a
block loses its braces. An expression is rendered as the printer writes it, every operation in its
own brackets. Statements are rendered side by side, so each has to end by itself; bindings and
returns bring their semicolon, and an expression can only be the last. -/
namespace MonkeySyntax

open Grammar (standard)

mutual

/-- Without conditionals and functions, the expressions that hold blocks. -/
def Expr.Braceless : Expr → Prop
  | .identifier _ | .integer _ _ | .boolean _ => True
  | .unary _ operand => operand.Braceless
  | .binary left _ right => left.Braceless ∧ right.Braceless
  | .conditional _ _ _ | .function _ _ => False
  | .call callee arguments => callee.Braceless ∧ bracelessArguments arguments
termination_by structural expr => expr

def bracelessArguments : List Expr → Prop
  | [] => True
  | expr :: rest => expr.Braceless ∧ bracelessArguments rest
termination_by structural list => list

end

/-- Bindings and returns, and behind them at most one expression. -/
def Program.Braceless : Program → Prop
  | [] => True
  | [.expression value] => value.Braceless
  | .binding _ value :: rest => value.Braceless ∧ Braceless rest
  | .returning none :: rest => Braceless rest
  | .returning (some value) :: rest => value.Braceless ∧ Braceless rest
  | _ => False

mutual

theorem Expr.render_eq_source : ∀ expr : Expr, expr.Braceless → expr.render = expr.source
  | .identifier _, _ | .integer _ _, _ | .boolean _, _ => by
    simp only [Expr.render, Expr.source]
  | .unary _ operand, braceless => by
    simp only [Expr.render, Expr.source, operand.render_eq_source braceless]
  | .binary left _ right, ⟨braceless, braceless'⟩ => by
    simp only [Expr.render, Expr.source, left.render_eq_source braceless,
      right.render_eq_source braceless', String.append_assoc]
  | .call callee arguments, ⟨braceless, braceless'⟩ => by
    simp only [Expr.render, Expr.source, callee.render_eq_source braceless,
      renderEach_eq_sourceItems arguments braceless']

theorem renderEach_eq_sourceItems :
    ∀ list : List Expr, bracelessArguments list → renderEach list = sourceItems list
  | [], _ => rfl
  | expr :: rest, ⟨braceless, braceless'⟩ => by
    simp only [renderEach, sourceItems, expr.render_eq_source braceless,
      renderEach_eq_sourceItems rest braceless']

end

theorem opening_terminated (text : String) : Opening (text ++ ";") :=
  Opening.append ⟨_, rfl, by decide⟩ text

/-- A statement that ends by itself is the first of what stands behind it. -/
theorem reads_next {stmt : Stmt} {rest : Program} {room : Nat} (same : stmt.render = stmt.source)
    (ends : Opening stmt.render) (returns : stmt.Returns) (deep : 2 * stmt.height + 1 ≤ room)
    (others : Reads standard room (.statements .program)
      (lexed (renderAll rest) ++ [⟨.eof, ""⟩]) rest [⟨.eof, ""⟩]) :
    Reads standard room (.statements .program)
      (lexed (renderAll (stmt :: rest)) ++ [⟨.eof, ""⟩]) (stmt :: rest) [⟨.eof, ""⟩] := by
  rw [renderAll, lexed_of_opening ends, same, List.append_assoc]
  have first := returns room (lexed (renderAll rest) ++ [⟨.eof, ""⟩]) deep
  exact .next first.derives.begins.endsAt first others

theorem reads_last {value : Expr} {room : Nat} (same : value.render = value.source)
    (returns : value.Returns) (deep : 2 * value.height + 1 ≤ room) :
    Reads standard room (.statements .program)
      (lexed (renderAll [.expression value]) ++ [⟨.eof, ""⟩]) [.expression value]
      [⟨.eof, ""⟩] := by
  obtain ⟨room, rfl⟩ : ∃ n, room = n + 1 := ⟨room - 1, by omega⟩
  rw [renderAll, renderAll, String.append_empty, Stmt.render, same]
  have whole : Reads standard (room + 1) (.expression .lowest) (lexed value.source ++ [⟨.eof, ""⟩])
      value [⟨.eof, ""⟩] :=
    returns.above (Nat.le_of_succ_le_succ deep) (by decide) nofun (Nat.le_refl _)
  have only : Reads standard (room + 1) .statement (lexed value.source ++ [⟨.eof, ""⟩])
      (.expression value) [⟨.eof, ""⟩] := by
    apply Reads.statement
    rw [whole.begins.statementRule]
    exact .expressionStatement whole rfl
  exact .next only.derives.begins.endsAt only (.finish rfl)

theorem reads_renderAll : ∀ (program : Program) (room : Nat), wellFormedBlock program →
    program.Braceless → 2 * heightBlock program + 1 ≤ room →
    Reads standard room (.statements .program) (lexed (renderAll program) ++ [⟨.eof, ""⟩]) program
      [⟨.eof, ""⟩]
  | [], _, _, _, _ => .finish rfl
  | [.expression value], room, ⟨formed, _⟩, braceless, deep => by
    simp only [heightBlock, Stmt.height] at deep
    exact reads_last (value.render_eq_source braceless) (value.returns formed) (by omega)
  | .binding name value :: rest, room, ⟨formed, formed'⟩, ⟨braceless, braceless'⟩, deep => by
    simp only [heightBlock] at deep
    have same : (Stmt.binding name value).render = (Stmt.binding name value).source := by
      rw [Stmt.render, Stmt.source, value.render_eq_source braceless]
    have ends : Opening (Stmt.binding name value).render := opening_terminated _
    exact reads_next same ends (Stmt.returns _ formed) (by omega)
      (reads_renderAll rest room formed' braceless' (by omega))
  | .returning none :: rest, room, ⟨formed, formed'⟩, braceless, deep => by
    simp only [heightBlock] at deep
    have same : (Stmt.returning none).render = (Stmt.returning none).source := by
      rw [Stmt.render, Stmt.source]
    have ends : Opening (Stmt.returning none).render := opening_terminated "return"
    exact reads_next same ends (Stmt.returns _ formed) (by omega)
      (reads_renderAll rest room formed' braceless (by omega))
  | .returning (some value) :: rest, room, ⟨formed, formed'⟩, ⟨braceless, braceless'⟩, deep => by
    simp only [heightBlock] at deep
    have same : (Stmt.returning (some value)).render = (Stmt.returning (some value)).source := by
      rw [Stmt.render, Stmt.source, value.render_eq_source braceless]
    have ends : Opening (Stmt.returning (some value)).render := opening_terminated _
    exact reads_next same ends (Stmt.returns _ formed) (by omega)
      (reads_renderAll rest room formed' braceless' (by omega))

theorem readText_of_braceless {program : Program} (formed : wellFormedBlock program)
    (braceless : program.Braceless) {options : Options} (file : String)
    (deep : 2 * heightBlock program + 1 ≤ options.maxDepth) :
    (readText options file (renderAll program)).program = program ∧
      (readText options file (renderAll program)).diagnostics = [] := by
  have reads := reads_renderAll program options.maxDepth formed braceless deep
  rw [← Cursor.terminals_ofText file] at reads
  exact readText_of_reads reads

theorem readText_renderAll (program : Program) (formed : wellFormedBlock program)
    (braceless : program.Braceless) :
    (∀ (options : Options) (file : String), 2 * heightBlock program + 1 ≤ options.maxDepth →
      (readText options file (renderAll program)).program = program ∧
      (readText options file (renderAll program)).diagnostics = [] ∧
      renderAll (readText options file (renderAll program)).program = renderAll program) ∧
    ∀ other : Program, wellFormedBlock other → other.Braceless →
      renderAll other = renderAll program → other = program := by
  constructor
  · intro options file deep
    obtain ⟨read, quiet⟩ := readText_of_braceless formed braceless file deep
    exact ⟨read, quiet, congrArg renderAll read⟩
  · intro other formed' braceless' same
    -- Under a limit that both keep, one text is read as both.
    let options : Options := { maxDepth := 2 * heightBlock program + 2 * heightBlock other + 1 }
    have deep : 2 * heightBlock program + 1 ≤ options.maxDepth := by
      change _ ≤ 2 * heightBlock program + 2 * heightBlock other + 1
      omega
    have deep' : 2 * heightBlock other + 1 ≤ options.maxDepth := by
      change _ ≤ 2 * heightBlock program + 2 * heightBlock other + 1
      omega
    have first := (readText_of_braceless formed braceless "" deep).1
    have second := (readText_of_braceless formed' braceless' "" deep').1
    rw [same, first] at second
    exact second.symm

def negations : Program :=
  [.binding "a" (.call (.unary "-" (.identifier "b")) [.integer 7 "007", .boolean true]),
    .returning none, .expression (.binary (.identifier "a") "!=" (.unary "!" (.identifier "b")))]

theorem readText_renderAll_negations :
    wellFormedBlock negations ∧ negations.Braceless ∧ 2 * heightBlock negations + 1 ≤ 5 ∧
    renderAll negations = "let a = (-b)(007, true);return;(a != (!b))" ∧
    (readText { maxDepth := 5 } "" (renderAll negations)).program = negations ∧
    (readText { maxDepth := 5 } "" (renderAll negations)).diagnostics = [] := by
  have a : IsName "a" := by decide
  have b : IsName "b" := by decide
  have seven : IsNumber 7 "007" := by decide
  have formed : wellFormedBlock negations :=
    ⟨⟨a, ⟨by decide, b⟩, seven, trivial, trivial⟩, trivial, ⟨a, by decide, by decide, b⟩, trivial⟩
  have braceless : negations.Braceless :=
    ⟨⟨trivial, trivial, trivial, trivial⟩, trivial, trivial⟩
  have deep : 2 * heightBlock negations + 1 ≤ 5 := by decide
  obtain ⟨read, quiet, _⟩ :=
    (readText_renderAll negations formed braceless).1 { maxDepth := 5 } "" deep
  exact ⟨formed, braceless, deep, rfl, read, quiet⟩

end MonkeySyntax
