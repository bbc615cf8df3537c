import MonkeySyntax.Proofs.Language.Derivation
import MonkeySyntax.Proofs.Parsing.Soundness
import MonkeySyntax.Proofs.Source.Terminals

/-! What the printer writes is read as what it was written from. A printed expression brings its
own brackets or is a primary one, so it is read as a whole under any floor up to that of unary
operators; every step down in the tree costs at most two levels of nesting. -/
namespace MonkeySyntax

open Grammar (standard)

variable {room : Nat} {floor : Precedence} {rest : List Terminal}

def Expr.Returns (expr : Expr) : Prop :=
  ∀ room floor rest, 2 * expr.height ≤ room → floor ≤ .unary → headKind rest ≠ .elseWord →
    Leads standard room floor (lexed expr.source ++ rest) expr rest

def Stmt.Returns (stmt : Stmt) : Prop :=
  ∀ room rest, 2 * stmt.height + 1 ≤ room →
    Reads standard room .statement (lexed stmt.source ++ rest) stmt rest

def returnsBlock (list : List Stmt) : Prop :=
  ∀ room extent rest last, 2 * heightBlock list + 1 ≤ room →
    Reads standard room (.statements extent) rest [] last →
      Reads standard room (.statements extent) (lexed (" ".intercalate (sourceLines list)) ++ rest)
        list last

def returnsArguments (list : List Expr) : Prop :=
  ∀ room rest, 2 * heightArguments list + 1 ≤ room → headKind rest = .rparen → list ≠ [] →
    Reads standard room (.items .arguments)
      (lexed (", ".intercalate (sourceItems list)) ++ rest) list rest

theorem Expr.Returns.above {expr : Expr} (returns : expr.Returns) {room : Nat}
    (deep : 2 * expr.height ≤ room) (weaker : floor ≤ .unary) {next : Terminal}
    (other : next.kind ≠ .elseWord) (stops : standard.precedence next.kind ≤ floor) :
    Reads standard (room + 1) (.expression floor) (lexed expr.source ++ next :: rest) expr
      (next :: rest) :=
  (returns room floor (next :: rest) deep weaker other).complete stops

theorem Expr.Returns.whole {expr : Expr} (returns : expr.Returns)
    (deep : 2 * expr.height + 1 ≤ room) {next : Terminal}
    (stops : next.kind ∈ [.rparen, .semicolon, .comma]) :
    Reads standard room (.expression .lowest) (lexed expr.source ++ next :: rest) expr
      (next :: rest) := by
  obtain ⟨room, rfl⟩ : ∃ n, room = n + 1 := ⟨room - 1, by omega⟩
  simp only [List.mem_cons, List.not_mem_nil, or_false] at stops
  apply returns.above (Nat.le_of_succ_le_succ deep) (by decide)
  · rcases stops with is | is | is <;> rw [is] <;> decide
  · rcases stops with is | is | is <;> rw [is] <;> decide

theorem leads_group {inner : Expr} {input : List Terminal}
    (reads : Reads standard room (.expression .lowest) input inner (⟨.rparen, ")"⟩ :: rest)) :
    Leads standard room floor (⟨.lparen, "("⟩ :: input) inner rest :=
  Reads.leads rfl (.grouped reads rfl)

theorem reads_block {list : List Stmt} (returns : returnsBlock list)
    (deep : 2 * heightBlock list + 1 ≤ room) :
    Reads standard room .block
      (lexed (" ".intercalate (sourceLines list)) ++ ⟨.rbrace, "\x7d"⟩ :: rest) list rest :=
  .block (returns room .block _ rest deep (.close rfl))

theorem reads_names {names : List String} (are : ∀ name ∈ names, IsName name) (some : names ≠ [])
    (closed : headKind rest = .rparen) :
    Reads standard room (.items .parameters) (lexed (", ".intercalate names) ++ rest) names
      rest := by
  induction names with
  | nil => exact absurd rfl some
  | cons name names ih =>
    obtain ⟨is, are⟩ := List.forall_mem_cons.mp are
    cases names with
    | nil =>
      rw [String.intercalate_singleton, lexed_name is]
      have other : headKind rest ≠ .comma := by rw [closed]; nofun
      exact .lastParameter rfl other
    | cons second names =>
      rw [lexed_items, lexed_name is, List.append_assoc]
      exact .parameter rfl rfl (ih are nofun)

theorem reads_parameters {names : List String} (are : ∀ name ∈ names, IsName name) :
    Reads standard room (.enclosed .parameters)
      (lexed (", ".intercalate names) ++ ⟨.rparen, ")"⟩ :: rest) names rest := by
  cases names with
  | nil => exact .empty rfl
  | cons name names =>
    have items : Reads standard room (.items .parameters) _ (name :: names)
        (⟨.rparen, ")"⟩ :: rest) := reads_names are nofun rfl
    exact .full items.derives.begins.ne_rparen items rfl

theorem reads_arguments {list : List Expr} (returns : returnsArguments list)
    (deep : 2 * heightArguments list + 1 ≤ room) :
    Reads standard room (.enclosed .arguments)
      (lexed (", ".intercalate (sourceItems list)) ++ ⟨.rparen, ")"⟩ :: rest) list rest := by
  cases list with
  | nil => exact .empty rfl
  | cons first others =>
    have items := returns room (⟨.rparen, ")"⟩ :: rest) deep rfl nofun
    exact .full items.derives.begins.ne_rparen items rfl

section Heads

/-- No second half of an operator. -/
def Fresh (text : String) : Prop := ∃ c, text.toList.head? = some c ∧ c ≠ '='

theorem Fresh.append {before : String} (fresh : Fresh before) (after : String) :
    Fresh (before ++ after) := by
  obtain ⟨c, first, other⟩ := fresh
  exact ⟨c, by rw [String.toList_append, List.head?_append, first]; rfl, other⟩

theorem Fresh.of_class {p : Char → Bool} {text : String} (nonempty : text.toList ≠ [])
    (all : ∀ c ∈ text.toList, p c) (not : ¬ p '=') : Fresh text := by
  obtain ⟨c, rest, same⟩ := List.exists_cons_of_ne_nil nonempty
  rw [same] at all
  refine ⟨c, by rw [same]; rfl, ?_⟩
  rintro rfl
  exact not (all '=' (.head rest))

theorem Fresh.ne_eq {text : String} (fresh : Fresh text) : text.toList.head? ≠ some '=' := by
  obtain ⟨c, first, other⟩ := fresh
  rw [first]
  exact fun same => other (Option.some.inj same)

theorem IsName.fresh {name : String} (is : IsName name) : Fresh name :=
  .of_class is.nonempty is.2.1 (by decide)

theorem IsNumber.fresh {value : Int} {literal : String} (is : IsNumber value literal) :
    Fresh literal :=
  .of_class is.digits.1 is.digits.2 (by decide)

theorem Expr.fresh : ∀ expr : Expr, expr.WellFormed → Fresh expr.source
  | .identifier _, is => is.fresh
  | .integer _ _, is => is.fresh
  | .boolean true, _ => ⟨'t', rfl, by decide⟩
  | .boolean false, _ => ⟨'f', rfl, by decide⟩
  | .unary _ _, _ => (((Fresh.append ⟨'(', rfl, by decide⟩ _).append _).append _)
  | .binary _ _ _, _ => ((((Fresh.append ⟨'(', rfl, by decide⟩ _).append _).append _).append _)
  | .conditional _ _ none, _ => ((Fresh.append ⟨'i', rfl, by decide⟩ _).append _).append _
  | .conditional _ _ (some _), _ =>
    ((((Fresh.append ⟨'i', rfl, by decide⟩ _).append _).append _).append _).append _
  | .function _ _, _ => ((Fresh.append ⟨'f', rfl, by decide⟩ _).append _).append _
  | .call callee _, ⟨formed, _⟩ => (((callee.fresh formed).append _).append _).append _

end Heads

namespace Expr

theorem returns_identifier {name : String} (is : IsName name) : (identifier name).Returns := by
  intro room floor rest _ _ _
  rw [source, lexed_name is]
  exact Reads.leads rfl .identifier

theorem returns_integer {value : Int} {literal : String} (is : IsNumber value literal) :
    (integer value literal).Returns := by
  intro room floor rest _ _ _
  rw [source, lexed_number is]
  obtain ⟨numeral, rfl, small⟩ := is
  exact Reads.leads rfl (.integer (Text.numeralBelow?_eq_some_iff.mpr ⟨numeral, small, rfl⟩))

theorem returns_boolean (value : Bool) : (boolean value).Returns := by
  intro room floor rest _ _ _
  cases value with
  | false => exact Reads.leads rfl (.flag rfl)
  | true => exact Reads.leads rfl (.flag rfl)

theorem returns_unary {operator : String} {operand : Expr} (is : operator ∈ prefixOperators)
    (head : operand.source.toList.head? ≠ some '=') (returns : operand.Returns) :
    (unary operator operand).Returns := by
  intro room floor rest deep _ _
  obtain ⟨kind, sign, same⟩ := lexed_unary is head
  rw [source, same]
  simp only [List.cons_append, List.append_assoc, List.nil_append]
  simp only [height] at deep
  obtain ⟨room, rfl⟩ : ∃ n, room = n + 2 := ⟨room - 2, by omega⟩
  have inside : Reads standard (room + 1) (.expression .unary)
      (lexed operand.source ++ ⟨.rparen, ")"⟩ :: rest) operand (⟨.rparen, ")"⟩ :: rest) :=
    returns.above (by omega) (by decide) nofun (by decide)
  have applied : Leads standard (room + 1) .lowest (⟨kind, operator⟩ :: (lexed operand.source ++ _))
      (unary operator operand) (⟨.rparen, ")"⟩ :: rest) :=
    Reads.leads (Grammar.start_of_sign sign) (.unary inside)
  exact leads_group (applied.complete (Nat.zero_le _))

theorem returns_binary {left right : Expr} {operator : String}
    (is : operator ∈ binaryOperators) (returns : left.Returns)
    (returns' : right.Returns) : (binary left operator right).Returns := by
  intro room floor rest deep _ _
  obtain ⟨kind, n, level, same⟩ := lexed_binary is
  rw [source, same]
  simp only [List.cons_append, List.append_assoc, List.nil_append]
  simp only [height] at deep
  obtain ⟨room, rfl⟩ : ∃ n, room = n + 2 := ⟨room - 2, by omega⟩
  have weak : standard.precedence .rparen ≤ .ofLevel n := Nat.zero_le _
  have inside : Reads standard (room + 1) (.expression (.ofLevel n))
      (lexed right.source ++ ⟨.rparen, ")"⟩ :: rest) right (⟨.rparen, ")"⟩ :: rest) :=
    returns'.above (by omega) (Precedence.ofLevel_le n) nofun weak
  have first : Leads standard (room + 1) .lowest (lexed left.source ++ ⟨kind, operator⟩ :: _) left
      (⟨kind, operator⟩ :: (lexed right.source ++ ⟨.rparen, ")"⟩ :: rest)) :=
    returns (room + 1) .lowest _ (by omega) (by decide) (level?_ne_elseWord level)
  have applied := first.level level (Precedence.lowest_lt_ofLevel n) inside
  exact leads_group (applied.complete (Nat.zero_le _))

theorem returns_call {callee : Expr} {list : List Expr} (returns : callee.Returns)
    (returns' : returnsArguments list) : (call callee list).Returns := by
  intro room floor rest deep weaker _
  rw [source, lexed_call]
  simp only [List.cons_append, List.append_assoc, List.nil_append]
  simp only [height] at deep
  have first : Leads standard room floor (lexed callee.source ++ ⟨.lparen, "("⟩ :: _) callee
      (⟨.lparen, "("⟩ :: (lexed (", ".intercalate (sourceItems list)) ++ ⟨.rparen, ")"⟩ :: rest)) :=
    returns room floor _ (by omega) weaker nofun
  exact first.call rfl nofun (Nat.lt_succ_of_le weaker) (reads_arguments returns' (by omega))

theorem returns_function {parameters : List String} {body : List Stmt}
    (are : ∀ name ∈ parameters, IsName name) (returns : returnsBlock body) :
    (function parameters body).Returns := by
  intro room floor rest deep _ _
  rw [source, lexed_fn, lexed_blockSource]
  simp only [List.cons_append, List.append_assoc, List.nil_append]
  simp only [height] at deep
  exact Reads.leads rfl (.function rfl (reads_parameters are) rfl (reads_block returns (by omega)))

theorem returns_conditional {condition : Expr} {consequence : List Stmt}
    (returns : condition.Returns) (returns' : returnsBlock consequence) :
    (conditional condition consequence none).Returns := by
  intro room floor rest deep _ other
  rw [source, lexed_if, lexed_blockSource]
  simp only [List.cons_append, List.append_assoc, List.nil_append]
  simp only [height] at deep
  exact Reads.leads rfl (.conditional rfl (returns.whole (by omega) (by decide)) rfl rfl
    (reads_block returns' (by omega)) other)

theorem returns_alternative {condition : Expr} {consequence alternative : List Stmt}
    (returns : condition.Returns) (returns' : returnsBlock consequence)
    (returns'' : returnsBlock alternative) :
    (conditional condition consequence (some alternative)).Returns := by
  intro room floor rest deep _ _
  rw [source, lexed_else, lexed_if, lexed_blockSource, lexed_blockSource]
  simp only [List.cons_append, List.append_assoc, List.nil_append]
  simp only [height] at deep
  exact Reads.leads rfl (.alternative rfl (returns.whole (by omega) (by decide)) rfl rfl
    (reads_block returns' (by omega)) rfl rfl (reads_block returns'' (by omega)))

end Expr

namespace Stmt

theorem returns_binding {name : String} {value : Expr} (is : IsName name)
    (returns : value.Returns) : (binding name value).Returns := by
  intro room rest deep
  rw [source, lexed_let _ is]
  simp only [List.cons_append, List.append_assoc, List.nil_append]
  exact .statement (.binding rfl rfl (returns.whole deep (by decide)) rfl)

theorem returns_bare : (returning none).Returns := fun _ _ _ => .statement (.bareReturn rfl rfl)

theorem returns_returning {value : Expr} (returns : value.Returns) :
    (returning (some value)).Returns := by
  intro room rest deep
  rw [source, lexed_return]
  simp only [List.cons_append, List.append_assoc, List.nil_append]
  have inside : Reads standard room (.expression .lowest) (lexed value.source ++ _) value
      (⟨.semicolon, ";"⟩ :: rest) := returns.whole deep (by decide)
  exact .statement (.returning inside.begins.endsReturn inside rfl)

theorem returns_expression {value : Expr} (returns : value.Returns) :
    (expression value).Returns := by
  intro room rest deep
  rw [source, lexed_terminated]
  simp only [List.append_assoc, List.cons_append, List.nil_append]
  have inside : Reads standard room (.expression .lowest) (lexed value.source ++ _) value
      (⟨.semicolon, ";"⟩ :: rest) := returns.whole deep (by decide)
  apply Reads.statement
  rw [inside.begins.statementRule]
  exact .expressionStatement inside rfl

end Stmt

theorem returnsBlock_nil : returnsBlock [] := fun _ _ _ _ _ ends => ends

theorem returnsBlock_cons {stmt : Stmt} {list : List Stmt} (returns : stmt.Returns)
    (returns' : returnsBlock list) : returnsBlock (stmt :: list) := by
  intro room extent rest last deep ends
  have lines : lexed (" ".intercalate (sourceLines (stmt :: list))) =
      lexed stmt.source ++ lexed (" ".intercalate (sourceLines list)) := by
    cases list with
    | nil => exact (List.append_nil _).symm
    | cons second list => exact lexed_lines _ _ _
  rw [lines, List.append_assoc]
  simp only [heightBlock] at deep
  have first := returns room (lexed (" ".intercalate (sourceLines list)) ++ rest) (by omega)
  exact .next first.derives.begins.endsAt first (returns' room extent rest last (by omega) ends)

theorem returnsArguments_cons {expr : Expr} {list : List Expr} (returns : expr.Returns)
    (returns' : returnsArguments list) : returnsArguments (expr :: list) := by
  intro room rest deep closed _
  simp only [heightArguments] at deep
  cases list with
  | nil =>
    cases rest with
    | nil => cases closed
    | cons next rest =>
      have closed : next.kind = .rparen := closed
      have stops : next.kind ∈ [.rparen, .semicolon, .comma] := by rw [closed]; decide
      have other : headKind (next :: rest) ≠ .comma := by rw [headKind_cons, closed]; nofun
      rw [sourceItems, sourceItems, String.intercalate_singleton]
      exact .lastArgument (returns.whole (by omega) stops) other
  | cons second list =>
    rw [sourceItems, sourceItems, lexed_items, List.append_assoc]
    exact .argument (returns.whole (by omega) (by decide)) rfl
      (returns' room rest (by omega) closed nofun)

mutual

theorem Expr.returns : ∀ expr : Expr, expr.WellFormed → expr.Returns
  | .identifier _, is => Expr.returns_identifier is
  | .integer _ _, is => Expr.returns_integer is
  | .boolean value, _ => Expr.returns_boolean value
  | .unary _ operand, ⟨is, formed⟩ =>
    Expr.returns_unary is (operand.fresh formed).ne_eq (operand.returns formed)
  | .binary left _ right, ⟨formed, is, formed'⟩ =>
    Expr.returns_binary is (left.returns formed) (right.returns formed')
  | .conditional condition consequence none, ⟨formed, formed'⟩ =>
    Expr.returns_conditional (condition.returns formed) (block_returns consequence formed')
  | .conditional condition consequence (some alternative), ⟨formed, formed', formed''⟩ =>
    Expr.returns_alternative (condition.returns formed) (block_returns consequence formed')
      (block_returns alternative formed'')
  | .function _ body, ⟨are, formed⟩ => Expr.returns_function are (block_returns body formed)
  | .call callee list, ⟨formed, formed'⟩ =>
    Expr.returns_call (callee.returns formed) (arguments_return list formed')

theorem Stmt.returns : ∀ stmt : Stmt, stmt.WellFormed → stmt.Returns
  | .binding _ value, ⟨is, formed⟩ => Stmt.returns_binding is (value.returns formed)
  | .returning none, _ => Stmt.returns_bare
  | .returning (some value), formed => Stmt.returns_returning (value.returns formed)
  | .expression value, formed => Stmt.returns_expression (value.returns formed)

theorem block_returns : ∀ list : List Stmt, wellFormedBlock list → returnsBlock list
  | [], _ => returnsBlock_nil
  | stmt :: rest, ⟨formed, formed'⟩ =>
    returnsBlock_cons (stmt.returns formed) (block_returns rest formed')

theorem arguments_return : ∀ list : List Expr, wellFormedArguments list → returnsArguments list
  | [], _ => fun _ _ _ _ some => absurd rfl some
  | expr :: rest, ⟨formed, formed'⟩ =>
    returnsArguments_cons (expr.returns formed) (arguments_return rest formed')

end

theorem terminals_source (file : String) (program : Program) :
    lexed program.source ++ [⟨.eof, ""⟩] = (Cursor.ofText file program.source).terminals :=
  (Cursor.terminals_ofText file program.source).symm

theorem readText_source (program : Program) (formed : wellFormedBlock program) (options : Options)
    (file : String) (deep : 2 * heightBlock program + 1 ≤ options.maxDepth) :
    (readText options file program.source).program = program ∧
      (readText options file program.source).diagnostics = [] := by
  have reads := block_returns program formed options.maxDepth .program _ _ deep
    (.finish (rfl : (⟨.eof, ""⟩ : Terminal).kind = .eof))
  rw [← Program.source, terminals_source file program] at reads
  exact readText_of_reads reads

def doubling : Program :=
  [.binding "f" (.function ["x"]
    [.returning (some (.binary (.identifier "x") "*" (.integer 2 "2")))]),
    .expression (.call (.identifier "f") [.boolean true])]

theorem readText_source_doubling :
    wellFormedBlock doubling ∧ 2 * heightBlock doubling + 1 ≤ 5 ∧
    doubling.source = "let f = fn(x) \x7b return (x * 2); \x7d; f(true);" ∧
    (readText { maxDepth := 5 } "" doubling.source).program = doubling ∧
    (readText { maxDepth := 5 } "" doubling.source).diagnostics = [] := by
  have name : IsName "f" := by decide
  have names : ∀ name ∈ ["x"], IsName name := by decide
  have product : (Expr.binary (.identifier "x") "*" (.integer 2 "2")).WellFormed :=
    ⟨names "x" (by decide), by decide, (by decide : IsNumber 2 "2")⟩
  have formed : wellFormedBlock doubling :=
    ⟨⟨name, names, product, trivial⟩, ⟨name, trivial, trivial⟩, trivial⟩
  have deep : 2 * heightBlock doubling + 1 ≤ 5 := by decide
  exact ⟨formed, deep, rfl, readText_source doubling formed { maxDepth := 5 } "" deep⟩

end MonkeySyntax
