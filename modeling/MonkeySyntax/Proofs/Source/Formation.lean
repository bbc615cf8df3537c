import MonkeySyntax.Proofs.Language.Derivation
import MonkeySyntax.Proofs.Parsing.StepRelations
import MonkeySyntax.Proofs.Scan.Next
import MonkeySyntax.Proofs.Source.Printer

/-! Trees that are read are well formed, whatever faults lie beside them. A rule takes names,
numbers and operators from the current token without looking at its kind. But the tables give it
only tokens of certain kinds, other tokens are asked for by their kind, and what a kind is spelled
as is settled when a token is scanned; so the window carries all that the literals of a tree
need. -/
namespace MonkeySyntax

open Text

/-- The literal spells the kind. -/
def Token.Spelled (token : Token) : Prop :=
  token.kind ≠ .eof → Spells token.kind token.literal.toList

theorem Cursor.spelled_next (cursor : Cursor) : cursor.next.1.Spelled := by
  obtain ⟨file, offset, text⟩ := cursor
  obtain blank | ⟨blanks, kind, literal, after, rfl, blank, spells, ends⟩ := blanks_or_lexeme text
  · rw [next_of_blanks blank]
    exact fun proper => absurd rfl proper
  · rw [next_of_lexeme blank spells ends]
    intro _
    rwa [String.toList_ofList]

theorem symbols_ne_ident : ∀ entry ∈ symbols, entry.2 ≠ .ident := by decide

theorem Kind.ofWord_of_reserved : ∀ word ∈ reserved, ofWord word ≠ .ident := by decide

theorem Spells.isName {kind : Kind} {literal : List Char} (spells : Spells kind literal)
    (name : kind = .ident) : IsName (String.ofList literal) := by
  cases spells with
  | word nonempty letters =>
    refine ⟨fun empty => nonempty (String.ofList_eq_empty_iff.mp empty), ?_,
      fun member => Kind.ofWord_of_reserved _ member name⟩
    rwa [String.toList_ofList]
  | number => cases name
  | symbol member => exact absurd name (symbols_ne_ident _ member)
  | illegal => cases name

namespace Token.Spelled

variable {token : Token} (spelled : token.Spelled)
include spelled

theorem isName (kind : token.kind = .ident) : IsName token.literal := by
  have proper : token.kind ≠ .eof := by rw [kind]; nofun
  have name := (spelled proper).isName kind
  rwa [String.ofList_toList] at name

theorem eq_sign {sign : String} (member : (sign.toList, token.kind) ∈ symbols) :
    token.literal = sign :=
  String.toList_inj.mp ((spelled (Spells.symbol member).ne_eof).eq_symbol member)

end Token.Spelled

namespace Grammar

variable {kind : Kind} {floor : Precedence}

theorem sign_of_start (found : standard.start kind = some .unary) :
    ∃ sign ∈ prefixOperators, (sign.toList, kind) ∈ symbols := by
  cases kind <;> first | decide | cases found

theorem sign_of_tighter (found : standard.tighter? floor kind = some .binary) :
    ∃ sign ∈ binaryOperators, (sign.toList, kind) ∈ symbols := by
  cases kind <;> cases floor <;> first | decide | cases found

end Grammar

/-- The standard tables are in force, and both tokens that the parser sees are spelled as their
kinds say. -/
structure Parser.Lexical (parser : Parser) : Prop where
  grammar : parser.grammar = .standard
  current : parser.current.Spelled
  ahead : parser.ahead.Spelled

namespace Parser

theorem lexical_start (options : Options) (cursor : Cursor) : (start options cursor).Lexical :=
  ⟨rfl, cursor.spelled_next, cursor.next.2.spelled_next⟩

theorem keeps_lexical : KeptBySteps fun before after => before.Lexical → after.Lexical where
  refl _ := id
  trans here there := there ∘ here
  advance before lexical := ⟨lexical.grammar, lexical.ahead, before.cursor.spelled_next⟩
  drop _ lexical := ⟨lexical.grammar, lexical.current, lexical.ahead⟩
  reportAt _ _ _ lexical := ⟨lexical.grammar, lexical.current, lexical.ahead⟩
  traced _ _ _ inside lexical :=
    have after := inside ⟨lexical.grammar, lexical.current, lexical.ahead⟩
    ⟨after.grammar, after.current, after.ahead⟩
  nested inside lexical :=
    have after := inside ⟨lexical.grammar, lexical.current, lexical.ahead⟩
    ⟨after.grammar, after.current, after.ahead⟩

theorem Lexical.advance {parser : Parser} (lexical : parser.Lexical) : parser.advance.Lexical :=
  keeps_lexical.advance parser lexical

theorem Lexical.opened {parser : Parser} (lexical : parser.Lexical) : parser.opened.Lexical :=
  ⟨lexical.grammar, lexical.current, lexical.ahead⟩

theorem Lexical.enter {parser : Parser} (lexical : parser.Lexical) (label : String) :
    (parser.enter label).Lexical :=
  ⟨lexical.grammar, lexical.current, lexical.ahead⟩

theorem Lexical.drop {parser : Parser} (lexical : parser.Lexical) : parser.drop.Lexical :=
  ⟨lexical.grammar, lexical.current, lexical.ahead⟩

end Parser

theorem wellFormedBlock_iff {statements : List Stmt} :
    wellFormedBlock statements ↔ ∀ statement ∈ statements, statement.WellFormed := by
  induction statements with
  | nil => simp [wellFormedBlock]
  | cons statement rest ih => rw [wellFormedBlock, ih, List.forall_mem_cons]

theorem wellFormedArguments_iff {arguments : List Expr} :
    wellFormedArguments arguments ↔ ∀ argument ∈ arguments, argument.WellFormed := by
  induction arguments with
  | nil => simp [wellFormedArguments]
  | cons argument rest ih => rw [wellFormedArguments, ih, List.forall_mem_cons]

/-- All of a list is well formed when each of its items is. -/
def Form.WellFormed : (form : Form) → form.Tree → Prop
  | .name, text => IsName text
  | .expression, tree => tree.WellFormed
  | .statement, tree => tree.WellFormed
  | .list item, trees => ∀ tree ∈ trees, item.WellFormed tree

/-- What the phrase builds on such a window is well formed. -/
def Forms (bound : Nat) (phrase : Phrase form) : Prop :=
  ∀ ⦃before after : Parser⦄ ⦃value : form.Tree⦄,
    (Parts.within bound).parse phrase before = .built value after → before.Lexical →
    form.WellFormed value

/-- The phrases that recur. A continuation is well formed with the operand that it continues. -/
structure Forming (bound : Nat) : Prop where
  expression (floor : Precedence) : Forms bound (.expression floor)
  continuation (floor : Precedence) {left : Expr} : left.WellFormed →
    Forms bound (.continuation floor left)
  parameters : Forms bound (.items .parameters)
  arguments : Forms bound (.items .arguments)
  statement : Forms bound .statement
  statements (extent : Extent) : Forms bound (.statements extent)

namespace Forming

open MonkeySyntax.Parser Parts Parse

variable {bound : Nat} (h : Forming bound)
include h

omit h in
theorem lexical_of_built {before after : Parser} (phrase : Phrase form) {value : form.Tree}
    (run : (Parts.within bound).parse phrase before = .built value after)
    (lexical : before.Lexical) : after.Lexical := by
  have kept := keeps_within keeps_lexical bound phrase before
  rw [run] at kept
  exact kept lexical

omit h in
theorem lexical_of_abandoned {before after : Parser} (phrase : Phrase form)
    (run : (Parts.within bound).parse phrase before = .abandoned after)
    (lexical : before.Lexical) : after.Lexical := by
  have kept := keeps_within keeps_lexical bound phrase before
  rw [run] at kept
  exact kept lexical

theorem block : Forms bound .block := by
  intro before after list run lexical
  exact h.statements .block (block_eq_built.mp run) lexical.advance

theorem enclosed {item : Form} (items : Items item) : Forms bound (.enclosed items) := by
  intro before after list run lexical
  rcases parenthesized_eq_built.mp run with ⟨_, rfl, _⟩ | ⟨_, final, inside, _, _⟩
  · exact fun _ member => absurd member List.not_mem_nil
  · cases items with
    | parameters => exact h.parameters inside lexical
    | arguments => exact h.arguments inside lexical

theorem conditional : Forms bound (.start .conditional) := by
  intro before after value run lexical
  obtain ⟨_, condition, close, consequence, final, test, _, _, body, last⟩ :=
    conditional_eq_built.mp run
  have tested := h.expression .lowest test lexical.advance.advance
  have closed : close.Lexical :=
    lexical_of_built (.expression .lowest) test lexical.advance.advance
  have inside := wellFormedBlock_iff.mpr (h.block body closed.advance.advance)
  rcases last with ⟨_, rfl, _⟩ | ⟨_, _, alternative, other, rfl⟩
  · exact ⟨tested, inside⟩
  · have final_lexical : final.Lexical := lexical_of_built .block body closed.advance.advance
    exact ⟨tested, inside, wellFormedBlock_iff.mpr (h.block other final_lexical.advance.advance)⟩

theorem function : Forms bound (.start .function) := by
  intro before after value run lexical
  obtain ⟨_, parameters, listed, body, names, _, block, rfl⟩ := function_eq_built.mp run
  have listed_lexical : listed.Lexical :=
    lexical_of_built (.enclosed .parameters) names lexical.advance
  exact ⟨h.enclosed .parameters names lexical.advance,
    wellFormedBlock_iff.mpr (h.block block listed_lexical.advance)⟩

/-- A start rule is well formed on the tokens that the table gives it. -/
theorem start {rule : StartRule} {before after : Parser} {value : Expr}
    (found : Grammar.standard.start before.current.kind = some rule)
    (run : (Parts.within bound).start rule before = .built value after)
    (lexical : before.Lexical) : value.WellFormed := by
  have opens := Grammar.opens_of_start found
  cases rule with
  | identifier =>
    obtain ⟨rfl, _⟩ := identifier_eq_built.mp run
    exact lexical.current.isName opens
  | integer =>
    obtain ⟨number, read, rfl, _⟩ := integer_eq_built.mp run
    obtain ⟨numeral, small, rfl⟩ := numeralBelow?_eq_some_iff.mp read
    exact ⟨numeral, rfl, small⟩
  | boolean =>
    obtain ⟨rfl, _⟩ := boolean_eq_built.mp run
    exact trivial
  | unary =>
    obtain ⟨operand, final, inside, rfl, _⟩ := unary_eq_built.mp run
    obtain ⟨sign, member, spells⟩ := Grammar.sign_of_start found
    rw [lexical.current.eq_sign spells]
    exact ⟨member, h.expression .unary inside (lexical.enter _).advance⟩
  | grouped =>
    obtain ⟨final, inside, _, _⟩ := grouped_eq_built.mp run
    exact h.expression .lowest inside lexical.advance
  | conditional => exact h.conditional run lexical
  | function => exact h.function run lexical

theorem extend {floor : Precedence} {left value : Expr} {rule : ContinuationRule}
    {before after : Parser} (formed : left.WellFormed)
    (found : Grammar.standard.tighter? floor before.current.kind = some rule)
    (run : (Parts.within bound).extend left rule before = .built value after)
    (lexical : before.Lexical) : value.WellFormed := by
  cases rule with
  | binary =>
    obtain ⟨right, final, inside, rfl, _⟩ := binary_eq_built.mp run
    obtain ⟨sign, member, spells⟩ := Grammar.sign_of_tighter found
    rw [lexical.current.eq_sign spells]
    exact ⟨formed, member, h.expression before.currentPrecedence inside (lexical.enter _).advance⟩
  | call =>
    obtain ⟨list, inside, rfl⟩ := call_eq_built.mp run
    exact ⟨formed, wellFormedArguments_iff.mpr (h.enclosed .arguments inside lexical)⟩

theorem expressionAbove (floor : Precedence) : Forms (bound + 1) (.expression floor) := by
  intro before after value run lexical
  obtain ⟨_, rule, left, middle, final, found, first, rest, _⟩ := expressionAbove_eq_built.mp run
  have begun : before.opened.Lexical := lexical.opened
  have formed := h.start (lexical.grammar ▸ found) first begun
  exact h.continuation floor formed rest (lexical_of_built (.start rule) first begun)

theorem continueAbove (floor : Precedence) {left : Expr} (formed : left.WellFormed) :
    Forms (bound + 1) (.continuation floor left) := by
  intro before after value run lexical
  rcases continueAbove_eq_built.mp run with
    ⟨_, rfl, _⟩ | ⟨rule, extended, middle, found, step, rest⟩
  · exact formed
  · have formed' := h.extend formed (lexical.grammar ▸ found) step lexical.advance
    exact h.continuation floor formed'
      rest (lexical_of_built (.extend left rule) step lexical.advance)

theorem parameterList : Forms (bound + 1) (.items .parameters) := by
  intro before after names run lexical
  obtain ⟨kind, last⟩ := parameterList_eq_built.mp run
  have name : IsName before.advance.current.literal := lexical.ahead.isName kind
  rcases last with ⟨_, rfl, _⟩ | ⟨_, rest, more, rfl⟩
  · exact List.forall_mem_singleton.mpr name
  · exact List.forall_mem_cons.mpr ⟨name, h.parameters more lexical.advance.advance⟩

theorem argumentList : Forms (bound + 1) (.items .arguments) := by
  intro before after list run lexical
  obtain ⟨argument, middle, inside, last⟩ := argumentList_eq_built.mp run
  have first := h.expression .lowest inside lexical.advance
  rcases last with ⟨_, rfl, _⟩ | ⟨_, rest, more, rfl⟩
  · exact List.forall_mem_singleton.mpr first
  · have middle_lexical : middle.Lexical :=
      lexical_of_built (.expression .lowest) inside lexical.advance
    exact List.forall_mem_cons.mpr ⟨first, h.arguments more middle_lexical.advance⟩

theorem statementHere : Forms (bound + 1) .statement := by
  intro before after value run lexical
  have chosen : (Parts.within bound).statementHere before = .built value after := run
  rw [statementHere_apply] at chosen
  cases rule : before.grammar.statementRule before.current.kind with
  | any =>
    rw [rule] at chosen
    exact h.statement chosen lexical
  | binding =>
    rw [rule] at chosen
    obtain ⟨kind, _, bound', final, inside, rfl, _⟩ := bindingStatement_eq_built.mp chosen
    exact ⟨lexical.ahead.isName kind,
      h.expression .lowest inside lexical.advance.advance.advance⟩
  | returning =>
    rw [rule] at chosen
    rcases returnStatement_eq_built.mp chosen with ⟨_, rfl, _⟩ | ⟨_, given, final, inside, rfl, _⟩
    · exact trivial
    · exact h.expression .lowest inside lexical.advance
  | expression =>
    rw [rule] at chosen
    obtain ⟨given, final, inside, rfl, _⟩ := expressionStatement_eq_built.mp chosen
    exact h.expression .lowest inside (lexical.enter _)

theorem statementList (extent : Extent) : Forms (bound + 1) (.statements extent) := by
  intro before after list run lexical
  rcases statementList_eq_built.mp run with
    ⟨_, rfl, _⟩ | ⟨_, ⟨statement, middle, rest, inside, more, rfl⟩ | ⟨middle, given_up, more⟩⟩
  · exact fun _ member => absurd member List.not_mem_nil
  · have middle_lexical : middle.Lexical := lexical_of_built .statement inside lexical
    exact List.forall_mem_cons.mpr ⟨h.statement inside lexical,
      h.statements extent more middle_lexical.advance⟩
  · -- The window behind a statement given up is one of tokens all the same.
    have middle_lexical := lexical_of_abandoned .statement given_up lexical
    exact h.statements extent more middle_lexical.drop.advance

end Forming

theorem forming (bound : Nat) : Forming bound := by
  induction bound with
  | zero =>
    exact ⟨fun _ _ _ _ => nofun, fun _ _ _ _ _ _ => nofun, fun _ _ _ => nofun, fun _ _ _ => nofun,
      fun _ _ _ => nofun, fun _ _ _ _ => nofun⟩
  | succ bound h =>
    exact ⟨h.expressionAbove, h.continueAbove, h.parameterList, h.argumentList, h.statementHere,
      h.statementList⟩

/-- Whatever the text and its faults, names are words that are not reserved, numbers are numerals in
range with their values, operators are those of the language, and no block stands by itself. -/
theorem readText_wellFormed (options : Options) (file text : String) :
    wellFormedBlock (readText options file text).program := by
  rw [readText]
  split
  · next program after run =>
    have lexical := Parser.lexical_start options (.ofText file text)
    exact wellFormedBlock_iff.mpr
      ((forming _).statements .program run lexical)
  · exact trivial
  · exact trivial

end MonkeySyntax
