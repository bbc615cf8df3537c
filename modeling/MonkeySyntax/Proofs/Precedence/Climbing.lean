import MonkeySyntax.Parsing.Command
import MonkeySyntax.Proofs.Language.Reading
import MonkeySyntax.Proofs.Parsing.Soundness
import MonkeySyntax.Proofs.Precedence.Layers

/-! Chains are read as layered trees, whatever precedences the operators have been given. Reading
an operand of an operator opens one level more, but only above a higher floor; so the levels are as
many as there are precedences, however long the chain. -/
namespace MonkeySyntax

open Grammar (standard)

def operatorKinds : List Kind := [.eq, .notEq, .lt, .gt, .plus, .minus, .asterisk, .slash]

/-- Gives operators their precedences, one after the other. -/
def Parser.assign (table : List (Kind × Precedence)) (parser : Parser) : Parser :=
  table.foldl
    (fun parser entry => parser.regulate (.setContinuation entry.1 entry.2 .binary)) parser

/-- A parser before a text, its operators given their precedences. -/
def Parser.startWith (table : List (Kind × Precedence)) (options : Options) (cursor : Cursor) :
    Parser := (start options cursor).assign table

namespace Grammar

/-- The precedence of the operator that the text spells. -/
def strength (grammar : Grammar) (operator : String) : Precedence :=
  grammar.precedence (Lexeme.kind operator.toList)

/-- The standard grammar but for the precedences of its operators. -/
structure Ranked (grammar : Grammar) : Prop where
  start : grammar.start = standard.start
  statement : grammar.statement = standard.statement
  eof : grammar.continuation .eof = none
  semicolon : grammar.continuation .semicolon = none
  operator : ∀ kind ∈ operatorKinds, ∃ strength, grammar.continuation kind =
    some (strength, .binary) ∧ .lowest < strength

theorem ranked_standard : standard.Ranked where
  start := rfl
  statement := rfl
  eof := rfl
  semicolon := rfl
  operator kind member := by
    simp only [operatorKinds, List.mem_cons, List.not_mem_nil, or_false] at member
    rcases member with rfl | rfl | rfl | rfl | rfl | rfl | rfl | rfl <;> exact ⟨_, rfl, by decide⟩

variable {grammar : Grammar}

theorem Ranked.setContinuation (ranked : grammar.Ranked) {kind : Kind} {strength : Precedence}
    (member : kind ∈ operatorKinds) (above : .lowest < strength) :
    (grammar.setContinuation kind strength .binary).Ranked where
  start := ranked.start
  statement := ranked.statement
  eof := by
    have other : .eof ≠ kind := by rintro rfl; exact absurd member (by decide)
    exact (if_neg other).trans ranked.eof
  semicolon := by
    have other : .semicolon ≠ kind := by rintro rfl; exact absurd member (by decide)
    exact (if_neg other).trans ranked.semicolon
  operator kind' member' := by
    by_cases same : kind' = kind
    · exact ⟨strength, if_pos same, above⟩
    · obtain ⟨strength', entry, above'⟩ := ranked.operator kind' member'
      exact ⟨strength', (if_neg same).trans entry, above'⟩

theorem Ranked.grounded (ranked : grammar.Ranked) : grammar.Grounded where
  start := by rw [ranked.start]; rfl
  continuation := ranked.eof
  statement := by rw [ranked.statement]; rfl
  direct kind := by rw [ranked.statement]; exact grounded_standard.direct kind

theorem Ranked.statementRule (ranked : grammar.Ranked) (kind : Kind) :
    grammar.statementRule kind = standard.statementRule kind := by
  rw [Grammar.statementRule, Grammar.statementRule, ranked.statement]

theorem mem_operatorKinds : ∀ operator ∈ binaryOperators,
    Lexeme.kind operator.toList ∈ operatorKinds := by decide

theorem Ranked.entry (ranked : grammar.Ranked) {operator : String}
    (member : operator ∈ binaryOperators) :
    grammar.continuation (Lexeme.kind operator.toList) =
      some (grammar.strength operator, .binary) ∧ .lowest < grammar.strength operator := by
  obtain ⟨strength, entry, above⟩ := ranked.operator _ (mem_operatorKinds operator member)
  rw [Grammar.strength, precedence_of_continuation entry]
  exact ⟨entry, above⟩

end Grammar

theorem kind_ne_semicolon :
    ∀ operator ∈ binaryOperators, Lexeme.kind operator.toList ≠ .semicolon := by decide

theorem rank_lt {floor strength : Precedence} (weaker : floor < strength) :
    floor.rank < strength.rank ∧ strength.rank ≤ 6 := by
  refine ⟨weaker, ?_⟩
  cases strength <;> decide

section Climbing

variable {grammar : Grammar} {room : Nat} {floor : Precedence} {rest : List Terminal}

theorem Expr.IsOperand.leads {operand : Expr} (is : operand.IsOperand) (ranked : grammar.Ranked)
    (deep : operand.run ≤ room)
    (low : operand.run = 0 ∨ grammar.precedence (headKind rest) ≤ .unary) :
    Leads grammar room floor (operand.spelling ++ rest) operand rest := by
  induction is generalizing room floor with
  | identifier => exact Reads.leads (by rw [ranked.start]; rfl) .identifier
  | integer number =>
    obtain ⟨numeral, rfl, small⟩ := number
    exact Reads.leads (by rw [ranked.start]; rfl)
      (.integer (Text.numeralBelow?_eq_some_iff.mpr ⟨numeral, small, rfl⟩))
  | @boolean value =>
    cases value with
    | false => exact Reads.leads (by rw [ranked.start]; rfl) (.flag rfl)
    | true => exact Reads.leads (by rw [ranked.start]; rfl) (.flag rfl)
  | @unary operator operand sign _ ih =>
    simp only [run] at deep low
    have low := low.resolve_left (Nat.succ_ne_zero _)
    obtain ⟨room, rfl⟩ : ∃ n, room = n + 1 := ⟨room - 1, by omega⟩
    have inside : Leads grammar room .unary (operand.spelling ++ rest) operand rest :=
      ih (Nat.le_of_succ_le_succ deep) (.inr low)
    have known : ∀ sign ∈ prefixOperators,
        standard.start (Lexeme.kind sign.toList) = some .unary := by decide
    refine Reads.leads ?_ (.unary (inside.complete low))
    rw [ranked.start]
    exact known operator sign

/-- The terminals of the chain under a tree. -/
def Expr.chained (tree : Expr) : List Terminal := chain tree.operands tree.operators

theorem Expr.mem_operators_of_top? {tree : Expr} {operator : String}
    (top : tree.top? = some operator) : operator ∈ tree.operators := by
  cases tree with
  | binary left inner right =>
    cases top
    exact List.mem_append_right _ (.head _)
  | _ => cases top

theorem Expr.chained_binary (left right : Expr) (operator : String) :
    (Expr.binary left operator right).chained =
      left.chained ++ ⟨Lexeme.kind operator.toList, operator⟩ :: right.chained :=
  chain_append left.length_operands

theorem Expr.chained_of_top? {operand : Expr} (alone : operand.top? = none) :
    operand.chained = operand.spelling := by
  obtain ⟨single, none⟩ := operands_of_top? alone
  rw [chained, single, none, chain]

/-- A layered tree is read from its chain under any floor below its own operator, if nothing follows
that binds more tightly than this operator. Below the floor `floor` at most `6 - floor.rank` more
floors can be opened, and then the longest run of prefix operators, of length `n`. -/
theorem Expr.Layered.leads {tree : Expr} {n : Nat} (layered : Layered grammar.strength tree)
    (ranked : grammar.Ranked)
    (operands : ∀ operand ∈ tree.operands, operand.IsOperand ∧ operand.run ≤ n)
    (operators : ∀ operator ∈ tree.operators, operator ∈ binaryOperators)
    (top : ∀ operator, tree.top? = some operator →
      floor < grammar.strength operator ∧
        grammar.precedence (headKind rest) ≤ grammar.strength operator)
    (low : ∀ operand ∈ tree.operands, operand.run = 0 ∨
      grammar.precedence (headKind rest) ≤ .unary ∧
        ∀ operator ∈ tree.operators, grammar.strength operator ≤ .unary)
    (deep : 6 - floor.rank + n ≤ room) :
    Leads grammar room floor (tree.chained ++ rest) tree rest := by
  induction layered generalizing room floor rest with
  | @operand operand alone =>
    obtain ⟨single, _⟩ := operands_of_top? alone
    rw [single, List.forall_mem_singleton] at operands low
    rw [chained_of_top? alone]
    exact operands.1.leads ranked (by omega) (low.imp_right And.left)
  | @binary left right operator layered layered' above above' ih ih' =>
    simp only [Expr.operands, Expr.operators, List.forall_mem_append, List.forall_mem_cons]
      at operands operators low
    obtain ⟨weaker, binds⟩ := top operator rfl
    obtain ⟨before, known, after⟩ := operators
    obtain ⟨room, rfl⟩ : ∃ m, room = m + 1 := ⟨room - 1, by have := rank_lt weaker; omega⟩
    have second : Leads grammar room (grammar.strength operator) (right.chained ++ rest) right
        rest := by
      refine ih' operands.2 after (fun inner top => ?_) (fun operand member => ?_) ?_
      · have tighter := above' inner top
        exact ⟨tighter, Nat.le_trans binds (Nat.le_of_lt tighter)⟩
      · exact (low.2 operand member).imp_right fun ⟨follow, _, _, all⟩ => ⟨follow, all⟩
      · have := rank_lt weaker
        omega
    have first : Leads grammar (room + 1) floor
        (left.chained ++ ⟨Lexeme.kind operator.toList, operator⟩ :: (right.chained ++ rest)) left
        (⟨Lexeme.kind operator.toList, operator⟩ :: (right.chained ++ rest)) := by
      refine ih operands.1 before (fun inner top => ?_) (fun operand member => ?_) deep
      · exact ⟨Nat.lt_of_lt_of_le weaker (above inner top), above inner top⟩
      · exact (low.1 operand member).imp_right fun ⟨_, all, one, _⟩ => ⟨one, all⟩
    rw [chained_binary, List.append_assoc, List.cons_append]
    exact first.binary (ranked.entry known).1 (kind_ne_semicolon operator known) weaker
      (second.complete binds)

end Climbing

/-- Operands with operators between them, such as the grammar allows within a depth. -/
structure IsChain (grammar : Grammar) (depth : Nat) (operands : List Expr)
    (operators : List String) : Prop where
  many : operands.length = operators.length + 1
  operand : ∀ operand ∈ operands, operand.IsOperand
  operator : ∀ operator ∈ operators, operator ∈ binaryOperators
  low : (∀ operand ∈ operands, operand.run = 0) ∨
    ∀ kind ∈ operatorKinds, grammar.precedence kind < .unary
  deep : ∀ operand ∈ operands, 7 + operand.run ≤ depth

section Chain

variable {grammar : Grammar} {depth : Nat} {floor : Precedence} {tree : Expr}
  {operands : List Expr} {operators : List String} {ending : List Terminal}

theorem Grammar.Ranked.begins {value : Expr} {input rest : List Terminal} (ranked : grammar.Ranked)
    (reads : Reads grammar depth (.expression floor) input value rest) :
    Derives.Begins .expression (headKind input) := by
  cases reads with
  | expression begun =>
    rw [ranked.start] at begun
    rw [Derives.Begins, headKind_cons, begun]
    rfl

theorem IsChain.exists_layered (is : IsChain grammar depth operands operators)
    (strength : String → Precedence) :
    ∃ tree, Expr.Layered strength tree ∧ tree.operands = operands ∧ tree.operators = operators := by
  have many := is.many
  cases operands with
  | nil => cases many
  | cons first others =>
    obtain ⟨is, are⟩ := List.forall_mem_cons.mp is.operand
    obtain ⟨single, none⟩ := Expr.operands_of_top? is.top?
    obtain ⟨tree, layered, same, same'⟩ := Expr.exists_layered (.operand is.top?)
      (Nat.succ.inj many) fun operand member => (are operand member).top?
    exact ⟨tree, layered, by rw [same, single]; rfl, by rw [same', none]; rfl⟩

theorem IsChain.reads (is : IsChain grammar depth tree.operands tree.operators)
    (ranked : grammar.Ranked) (layered : tree.Layered grammar.strength)
    (ends : headKind ending = .eof ∨ headKind ending = .semicolon) :
    Reads grammar depth (.expression .lowest) (tree.chained ++ ending) tree ending := by
  have weak (strength : Precedence) : grammar.precedence (headKind ending) ≤ strength := by
    rcases ends with is | is
    · rw [is, Grammar.precedence, ranked.eof]
      exact Nat.zero_le _
    · rw [is, Grammar.precedence, ranked.semicolon]
      exact Nat.zero_le _
  obtain ⟨first, member⟩ := List.exists_mem_of_length_pos (by rw [is.many]; exact Nat.succ_pos _)
  obtain ⟨room, rfl⟩ : ∃ n, depth = n + 7 := ⟨depth - 7, by have := is.deep first member; omega⟩
  have leads : Leads grammar (room + 6) .lowest (tree.chained ++ ending) tree ending := by
    refine layered.leads ranked (n := room) (fun operand member => ?_) is.operator
      (fun operator top => ?_) (fun operand member => ?_) ?_
    · have deep := is.deep operand member
      exact ⟨is.operand operand member, by omega⟩
    · have known := is.operator operator (Expr.mem_operators_of_top? top)
      exact ⟨(ranked.entry known).2, weak _⟩
    · refine is.low.imp (fun none => none operand member) fun all => ⟨weak _, fun sign member => ?_⟩
      exact Nat.le_of_lt (all _ (Grammar.mem_operatorKinds sign (is.operator sign member)))
    · rw [Precedence.rank]
      omega
  exact leads.complete (weak .lowest)

theorem IsChain.readsProgram (is : IsChain grammar depth operands operators)
    (ranked : grammar.Ranked) (layered : tree.Layered grammar.strength)
    (same : tree.operands = operands) (same' : tree.operators = operators)
    (ended : ending = [⟨.eof, ""⟩] ∨ ending = [⟨.semicolon, ";"⟩, ⟨.eof, ""⟩]) :
    Reads grammar depth (.statements .program) (chain operands operators ++ ending)
      [.expression tree] [⟨.eof, ""⟩] := by
  subst same same'
  change Reads grammar depth _ (tree.chained ++ ending) _ _
  have ends : headKind ending = .eof ∨ headKind ending = .semicolon := by
    rcases ended with rfl | rfl
    · exact .inl rfl
    · exact .inr rfl
  have passed : passSemicolon ending = [⟨.eof, ""⟩] := by rcases ended with rfl | rfl <;> rfl
  have reads := is.reads ranked layered ends
  have begins := ranked.begins reads
  have first : Derives.Begins .statement (headKind (tree.chained ++ ending)) := .inr (.inr begins)
  refine .next first.endsAt (.statement ?_) (.finish rfl)
  rw [ranked.statementRule, begins.statementRule]
  exact .expressionStatement reads passed

end Chain

namespace Parser

variable {table : List (Kind × Precedence)}

theorem assign_eq (assigned : ∀ entry ∈ table, entry.1 ∈ operatorKinds ∧ .lowest < entry.2)
    {parser : Parser} (ranked : parser.grammar.Ranked) :
    ∃ grammar, grammar.Ranked ∧ parser.assign table = { parser with grammar := grammar } := by
  induction table generalizing parser with
  | nil => exact ⟨_, ranked, rfl⟩
  | cons entry table ih =>
    obtain ⟨⟨member, above⟩, assigned⟩ := List.forall_mem_cons.mp assigned
    have next : (parser.regulate (.setContinuation entry.1 entry.2 .binary)).grammar.Ranked :=
      ranked.setContinuation member above
    exact ih assigned next

end Parser

/-- A chain of any length is read as the one layered tree over it, by any table of precedences. -/
theorem readProgram_chain {table : List (Kind × Precedence)}
    (assigned : ∀ entry ∈ table, entry.1 ∈ operatorKinds ∧ .lowest < entry.2)
    {options : Options} {cursor : Cursor} {operands : List Expr} {operators : List String}
    (is : IsChain (Parser.startWith table options cursor).grammar options.maxDepth operands
      operators)
    {ending : List Terminal} (spelled : cursor.terminals = chain operands operators ++ ending)
    (ended : ending = [⟨.eof, ""⟩] ∨ ending = [⟨.semicolon, ";"⟩, ⟨.eof, ""⟩]) :
    ∃ tree, (∃ after, (Parser.startWith table options cursor).readProgram =
        .built [.expression tree] after ∧ after.diagnostics = #[]) ∧
      tree.operands = operands ∧ tree.operators = operators ∧
      tree.Layered (Parser.startWith table options cursor).grammar.strength ∧
      ∀ other : Expr, other.operands = operands → other.operators = operators →
        other.Layered (Parser.startWith table options cursor).grammar.strength → other = tree := by
  obtain ⟨grammar, ranked, regular⟩ : ∃ grammar : Grammar, grammar.Ranked ∧
      Parser.startWith table options cursor = { Parser.start options cursor with grammar } :=
    Parser.assign_eq assigned Grammar.ranked_standard
  rw [regular] at is ⊢
  have read {tree : Expr} (same : tree.operands = operands) (same' : tree.operators = operators)
      (layered : tree.Layered grammar.strength) :=
    (quiet_iff_reads ranked.grounded options cursor [.expression tree]).mpr
      ⟨_, by rw [spelled]; exact is.readsProgram ranked layered same same' ended⟩
  obtain ⟨tree, layered, same, same'⟩ := is.exists_layered grammar.strength
  refine ⟨tree, read same same' layered, same, same', layered, ?_⟩
  intro other alike alike' layered'
  obtain ⟨after, run, _⟩ := read same same' layered
  obtain ⟨after', run', _⟩ := read alike alike' layered'
  rw [run] at run'
  cases run'
  rfl

/-- Addition above multiplication. -/
def inverted : List (Kind × Precedence) := [(.plus, .product), (.asterisk, .sum)]

set_option maxRecDepth 20000 in
theorem readProgram_chain_inverted :
    (∀ entry ∈ inverted, entry.1 ∈ operatorKinds ∧ .lowest < entry.2) ∧
    IsChain (Parser.startWith inverted { maxDepth := 8 } (.ofText "" "a * !b + 1;")).grammar 8
      [.identifier "a", .unary "!" (.identifier "b"), .integer 1 "1"] ["*", "+"] ∧
    ∃ after, (Parser.startWith inverted { maxDepth := 8 } (.ofText "" "a * !b + 1;")).readProgram =
        .built [.expression (.binary (.identifier "a") "*"
          (.binary (.unary "!" (.identifier "b")) "+" (.integer 1 "1")))] after ∧
      after.diagnostics = #[] := by
  have assigned : ∀ entry ∈ inverted, entry.1 ∈ operatorKinds ∧ .lowest < entry.2 := by decide
  have is : IsChain
      (Parser.startWith inverted { maxDepth := 8 } (.ofText "" "a * !b + 1;")).grammar 8
      [.identifier "a", .unary "!" (.identifier "b"), .integer 1 "1"] ["*", "+"] := {
    many := rfl
    operand := by
      simp only [List.forall_mem_cons]
      exact ⟨.identifier, .unary (by decide) .identifier, .integer (by decide), nofun⟩
    operator := by decide
    low := .inr (by decide)
    deep := by decide }
  have spelled : (Cursor.ofText "" "a * !b + 1;").terminals =
      chain [.identifier "a", .unary "!" (.identifier "b"), .integer 1 "1"] ["*", "+"] ++
        [⟨.semicolon, ";"⟩, ⟨.eof, ""⟩] := rfl
  obtain ⟨tree, ⟨after, run, quiet⟩, _, _, _, unique⟩ :=
    readProgram_chain assigned is spelled (.inr rfl)
  have layered : Expr.Layered
      (Parser.startWith inverted { maxDepth := 8 } (.ofText "" "a * !b + 1;")).grammar.strength
      (.binary (.identifier "a") "*"
        (.binary (.unary "!" (.identifier "b")) "+" (.integer 1 "1"))) := by
    refine .binary (.operand rfl) (.binary (.operand rfl) (.operand rfl) nofun nofun) nofun ?_
    rintro _ ⟨⟩
    decide
  obtain rfl := unique _ rfl rfl layered
  exact ⟨assigned, is, after, run, quiet⟩

end MonkeySyntax
