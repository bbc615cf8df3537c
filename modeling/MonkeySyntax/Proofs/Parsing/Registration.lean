import MonkeySyntax.Parsing.Command
import MonkeySyntax.Proofs.Parsing.Loop

/-! What registering rules does to a grammar. As long as no rule is registered for the end token and
none that leads back to the table, every text is read to its end, within steps that depend on the
number of its tokens alone. How tightly a kind binds and the rule that it continues by may be kept
in two tables: any registrations write them for the same kinds, so the loop over the operators of an
expression never finds the one without the other. -/
namespace MonkeySyntax

namespace Grammar

/-- The grammars that registrations lead to, one after the other. -/
inductive Registered : Grammar → Prop
  | standard : Registered standard
  | start {grammar : Grammar} {kind : Kind} {rule : StartRule} : Registered grammar →
      kind ≠ .eof → Registered (grammar.setStart kind rule)
  | continuation {grammar : Grammar} {kind : Kind} {strength : Precedence}
      {rule : ContinuationRule} : Registered grammar → kind ≠ .eof →
      Registered (grammar.setContinuation kind strength rule)
  | statement {grammar : Grammar} {kind : Kind} {rule : StatementRule} : Registered grammar →
      kind ≠ .eof → rule ≠ .any → Registered (grammar.setStatement kind rule)

theorem Registered.grounded {grammar : Grammar} (registered : grammar.Registered) :
    grammar.Grounded := by
  induction registered with
  | standard => exact grounded_standard
  | start _ other ih => exact ⟨(if_neg other.symm).trans ih.1, ih.2, ih.3, ih.4⟩
  | continuation _ other ih => exact ⟨ih.1, (if_neg other.symm).trans ih.2, ih.3, ih.4⟩
  | statement _ other direct ih =>
    refine ⟨ih.1, ih.2, (if_neg other.symm).trans ih.3, fun here => ?_⟩
    simp only [setStatement]
    split
    · exact fun any => direct (Option.some.inj any)
    · exact ih.4 here

end Grammar

/-- The parser stops at the end of the text, and no greater bound changes what it has read. -/
theorem readProgram_of_registered {grammar : Grammar} (registered : grammar.Registered)
    (options : Options) (cursor : Cursor) :
    let parser := { Parser.start options cursor with grammar := grammar }
    ∃ program after, parser.readProgram = .built program after ∧ after.current.kind = .eof ∧
      ∀ bound, 4 * cursor.tokens.length + 3 ≤ bound →
        (Parts.within bound).statements .program parser = .built program after := by
  intro parser
  have settled : parser.Settled := (Parser.settled_start options cursor).frame rfl
  have count : parser.remaining.length = cursor.tokens.length :=
    congrArg List.length (Parser.remaining_start options cursor)
  obtain ⟨program, after, run, ended⟩ :=
    Parser.readProgram_finishes registered.grounded settled
  refine ⟨program, after, run, ended, fun bound enough => ?_⟩
  rw [← count] at enough
  rw [Parser.statements_eq_readProgram registered.grounded settled enough, run]

/-- A brace that closes nothing starts an expression, and a name starts a binding. -/
def rebound : Grammar := (Grammar.standard.setStart .rbrace .unary).setStatement .ident .binding

set_option maxRecDepth 20000 in
theorem readProgram_of_registered_rebound :
    rebound.Registered ∧
    ∃ after,
      ({ Parser.start {} (.ofText "f" "\x7d 1; a b = 2") with grammar := rebound } :
        Parser).readProgram = .built
          [.expression (.unary "\x7d" (.integer 1 "1")), .binding "b" (.integer 2 "2")] after ∧
      after.current.kind = .eof ∧
      ∀ bound, 35 ≤ bound → (Parts.within bound).statements .program
        { Parser.start {} (.ofText "f" "\x7d 1; a b = 2") with grammar := rebound } = .built
          [.expression (.unary "\x7d" (.integer 1 "1")), .binding "b" (.integer 2 "2")] after := by
  have registered : rebound.Registered :=
    .statement (.start .standard (by decide)) (by decide) (by decide)
  obtain ⟨program, after, run, ended, stable⟩ :=
    readProgram_of_registered registered {} (.ofText "f" "\x7d 1; a b = 2")
  have read : program =
      [.expression (.unary "\x7d" (.integer 1 "1")), .binding "b" (.integer 2 "2")] := by
    cases run
    rfl
  subst read
  exact ⟨registered, after, run, ended, stable⟩

/-- How tightly kinds bind, and the rules by which they continue an expression. -/
structure Tables where
  strength : Kind → Option Precedence
  rule : Kind → Option ContinuationRule

namespace Tables

def empty : Tables := ⟨fun _ => none, fun _ => none⟩

def setStrength (kind : Kind) (strength : Precedence) (tables : Tables) : Tables :=
  { tables with strength := fun k => if k = kind then some strength else tables.strength k }

def setRule (kind : Kind) (rule : ContinuationRule) (tables : Tables) : Tables :=
  { tables with rule := fun k => if k = kind then some rule else tables.rule k }

/-- A registration writes one table and then the other. -/
def register (kind : Kind) (strength : Precedence) (rule : ContinuationRule) (tables : Tables) :
    Tables := (tables.setStrength kind strength).setRule kind rule

def standardEntries : List (Kind × Precedence × ContinuationRule) :=
  [(.eq, .equals, .binary), (.notEq, .equals, .binary), (.lt, .lessGreater, .binary),
    (.gt, .lessGreater, .binary), (.plus, .sum, .binary), (.minus, .sum, .binary),
    (.slash, .product, .binary), (.asterisk, .product, .binary), (.lparen, .call, .call)]

def standard : Tables :=
  standardEntries.foldl (fun tables entry => tables.register entry.1 entry.2.1 entry.2.2) empty

/-- What the loop over the operators of an expression can find at the kind ahead. -/
inductive Turn where
  | stop
  | extend (rule : ContinuationRule)
  /-- It binds tightly enough, but by no rule. -/
  | missing
  deriving DecidableEq

def turn (tables : Tables) (floor : Precedence) (kind : Kind) : Turn :=
  if kind ≠ .semicolon ∧ floor < (tables.strength kind).getD .lowest then
    match tables.rule kind with
    | some rule => .extend rule
    | none => .missing
  else .stop

def Turn.ofRule? : Option ContinuationRule → Turn
  | some rule => .extend rule
  | none => .stop

/-- The tables hold the entries of the grammar, taken apart. -/
structure Describe (tables : Tables) (grammar : Grammar) : Prop where
  strength (kind : Kind) : tables.strength kind = (grammar.continuation kind).map Prod.fst
  rule (kind : Kind) : tables.rule kind = (grammar.continuation kind).map Prod.snd

theorem describe_standard : standard.Describe .standard where
  strength kind := by cases kind <;> rfl
  rule kind := by cases kind <;> rfl

namespace Describe

variable {tables : Tables} {grammar : Grammar} (describe : tables.Describe grammar)
include describe

theorem register (kind : Kind) (strength : Precedence) (rule : ContinuationRule) :
    (tables.register kind strength rule).Describe
      (grammar.setContinuation kind strength rule) where
  strength k := by
    simp only [Tables.register, setRule, setStrength, Grammar.setContinuation]
    split
    · rfl
    · exact describe.strength k
  rule k := by
    simp only [Tables.register, setRule, setStrength, Grammar.setContinuation]
    split
    · rfl
    · exact describe.rule k

theorem isSome_rule (kind : Kind) :
    (tables.rule kind).isSome = (tables.strength kind).isSome := by
  rw [describe.rule, describe.strength, Option.isSome_map, Option.isSome_map]

/-- The loop goes on by the tables as it does by the grammar. -/
theorem turn_eq (floor : Precedence) (kind : Kind) :
    tables.turn floor kind = .ofRule? (grammar.tighter? floor kind) := by
  rw [turn, Grammar.tighter?, describe.rule, describe.strength]
  cases grammar.continuation kind with
  | none =>
    have loosest : ¬ floor < .lowest := Nat.not_lt_zero _
    exact if_neg fun more => loosest more.2
  | some entry =>
    simp only [Option.map_some, Option.getD_some]
    split <;> rfl

theorem turn_ne_missing (floor : Precedence) (kind : Kind) :
    tables.turn floor kind ≠ .missing := by
  rw [describe.turn_eq]
  cases grammar.tighter? floor kind <;> exact nofun

end Describe

end Tables

end MonkeySyntax
