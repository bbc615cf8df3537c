import MonkeySyntax.Proofs.Parsing.AppendOnlyDiagnostics

/-! Readings without a fault, over terminals alone. A reading names the phrase, the terminals from
its beginning on, the tree it gives and the terminals left behind its end. The grammar is arbitrary;
`room` counts the expressions that may still be opened one inside the other. The input of a phrase
begins with the current terminal or behind it, as the phrase has it. -/
namespace MonkeySyntax

/-- The terminals behind a semicolon, if one stands first. -/
def passSemicolon : List Terminal → List Terminal
  | [] => []
  | first :: rest => if first.kind = .semicolon then rest else first :: rest

theorem passSemicolon_length_le (input : List Terminal) :
    (passSemicolon input).length ≤ input.length := by
  cases input with
  | nil => exact Nat.le_refl _
  | cons first rest =>
    simp only [passSemicolon]
    split
    · exact Nat.le_succ _
    · exact Nat.le_refl _

/-- No rule at the end of the input, and no statement rule that leads back to the table. -/
structure Grammar.Grounded (grammar : Grammar) : Prop where
  start : grammar.start .eof = none
  continuation : grammar.continuation .eof = none
  statement : grammar.statement .eof = none
  direct (kind : Kind) : grammar.statement kind ≠ some .any

namespace Grammar.Grounded

variable {grammar : Grammar} {kind : Kind} (grounded : grammar.Grounded)
include grounded

theorem ne_eof_of_start {rule : StartRule} (found : grammar.start kind = some rule) :
    kind ≠ .eof := by
  rintro rfl
  rw [grounded.start] at found
  contradiction

theorem ne_eof_of_tighter {floor : Precedence} {rule : ContinuationRule}
    (found : grammar.tighter? floor kind = some rule) : kind ≠ .eof := by
  rintro rfl
  rw [tighter?, grounded.continuation] at found
  contradiction

theorem ne_eof_of_statement {rule : StatementRule}
    (found : grammar.statement kind = some rule) : kind ≠ .eof := by
  rintro rfl
  rw [grounded.statement] at found
  contradiction

theorem statementRule_ne_any (kind : Kind) : grammar.statementRule kind ≠ .any := by
  intro any
  cases found : grammar.statement kind with
  | none => simp [Grammar.statementRule, found] at any
  | some rule =>
    rw [Grammar.statementRule, found, Option.getD_some] at any
    exact grounded.direct kind (any ▸ found)

end Grammar.Grounded

theorem Grammar.grounded_standard : standard.Grounded where
  start := rfl
  continuation := rfl
  statement := rfl
  direct kind := by cases kind <;> decide

inductive Reads (grammar : Grammar) :
    {form : Form} → Nat → Phrase form → List Terminal → form.Tree → List Terminal → Prop where
  | identifier : Reads grammar room (.start .identifier) (first :: rest)
      (.identifier first.literal) rest
  | integer {number : Nat} :
      Text.numeralBelow? integerBound first.literal.toList = some number →
      Reads grammar room (.start .integer) (first :: rest) (.integer number first.literal) rest
  | boolean : Reads grammar room (.start .boolean) (first :: rest)
      (.boolean (first.kind = .trueWord)) rest
  | unary : Reads grammar room (.expression .unary) input operand rest →
      Reads grammar room (.start .unary) (first :: input) (.unary first.literal operand) rest
  | grouped : Reads grammar room (.expression .lowest) input value (close :: rest) →
      close.kind = .rparen → Reads grammar room (.start .grouped) (first :: input) value rest
  | conditional : opening.kind = .lparen →
      Reads grammar room (.expression .lowest) input condition (close :: brace :: middle) →
      close.kind = .rparen → brace.kind = .lbrace →
      Reads grammar room .block middle consequence rest → headKind rest ≠ .elseWord →
      Reads grammar room (.start .conditional) (first :: opening :: input)
        (.conditional condition consequence none) rest
  | alternative {word brace' : Terminal} {last : List Terminal} : opening.kind = .lparen →
      Reads grammar room (.expression .lowest) input condition (close :: brace :: middle) →
      close.kind = .rparen → brace.kind = .lbrace →
      Reads grammar room .block middle consequence (word :: brace' :: last) →
      word.kind = .elseWord → brace'.kind = .lbrace →
      Reads grammar room .block last alternative rest →
      Reads grammar room (.start .conditional) (first :: opening :: input)
        (.conditional condition consequence (some alternative)) rest
  | function : opening.kind = .lparen →
      Reads grammar room (.enclosed .parameters) input parameters (brace :: middle) →
      brace.kind = .lbrace → Reads grammar room .block middle body rest →
      Reads grammar room (.start .function) (first :: opening :: input)
        (.function parameters body) rest
  | binary : Reads grammar room (.expression (grammar.precedence first.kind)) input right rest →
      Reads grammar room (.extend left .binary) (first :: input)
        (.binary left first.literal right) rest
  | call : Reads grammar room (.enclosed .arguments) input list rest →
      Reads grammar room (.extend callee .call) (first :: input) (.call callee list) rest
  | expression : grammar.start first.kind = some rule →
      Reads grammar room (.start rule) (first :: input) left middle →
      Reads grammar room (.continuation floor left) middle value rest →
      Reads grammar (room + 1) (.expression floor) (first :: input) value rest
  | stop : grammar.tighter? floor (headKind rest) = none →
      Reads grammar room (.continuation floor left) rest left rest
  | extend : grammar.tighter? floor first.kind = some rule →
      Reads grammar room (.extend left rule) (first :: input) extended middle →
      Reads grammar room (.continuation floor extended) middle value rest →
      Reads grammar room (.continuation floor left) (first :: input) value rest
  | empty {items : Items item} : close.kind = .rparen →
      Reads grammar room (.enclosed items) (close :: rest) [] rest
  | full {items : Items item} : headKind input ≠ .rparen →
      Reads grammar room (.items items) input list (close :: rest) → close.kind = .rparen →
      Reads grammar room (.enclosed items) input list rest
  | lastParameter : first.kind = .ident → headKind rest ≠ .comma →
      Reads grammar room (.items .parameters) (first :: rest) [first.literal] rest
  | parameter : first.kind = .ident → comma.kind = .comma →
      Reads grammar room (.items .parameters) input names rest →
      Reads grammar room (.items .parameters) (first :: comma :: input) (first.literal :: names)
        rest
  | lastArgument : Reads grammar room (.expression .lowest) input argument rest →
      headKind rest ≠ .comma → Reads grammar room (.items .arguments) input [argument] rest
  | argument : Reads grammar room (.expression .lowest) input argument (comma :: middle) →
      comma.kind = .comma → Reads grammar room (.items .arguments) middle list rest →
      Reads grammar room (.items .arguments) input (argument :: list) rest
  | block : Reads grammar room (.statements .block) input list rest →
      Reads grammar room .block input list rest
  | binding {name sign : Terminal} : name.kind = .ident → sign.kind = .assign →
      Reads grammar room (.expression .lowest) input value middle → passSemicolon middle = rest →
      Reads grammar room (.statementBy .binding) (first :: name :: sign :: input)
        (.binding name.literal value) rest
  | bareReturn : Parts.endsReturn (headKind input) = true → passSemicolon input = rest →
      Reads grammar room (.statementBy .returning) (first :: input) (.returning none) rest
  | returning : Parts.endsReturn (headKind input) = false →
      Reads grammar room (.expression .lowest) input value middle → passSemicolon middle = rest →
      Reads grammar room (.statementBy .returning) (first :: input) (.returning (some value)) rest
  | expressionStatement : Reads grammar room (.expression .lowest) input value middle →
      passSemicolon middle = rest →
      Reads grammar room (.statementBy .expression) input (.expression value) rest
  | statement :
      Reads grammar room (.statementBy (grammar.statementRule (headKind input))) input value rest →
      Reads grammar room .statement input value rest
  | finish : first.kind = .eof → Reads grammar room (.statements extent) [first] [] [first]
  | close : close.kind = .rbrace →
      Reads grammar room (.statements .block) (close :: rest) [] rest
  | next : extent.endsAt (headKind input) = false →
      Reads grammar room .statement input value middle →
      Reads grammar room (.statements extent) middle list rest →
      Reads grammar room (.statements extent) input (value :: list) rest

/-- How many terminals a phrase takes at the least. -/
def Phrase.least : Phrase form → Nat
  | .continuation _ _ | .block | .statements _ => 0
  | _ => 1

theorem Reads.length_le {grammar : Grammar} {phrase : Phrase form} {value : form.Tree}
    {input rest : List Terminal} (reads : Reads grammar room phrase input value rest) :
    rest.length + phrase.least ≤ input.length := by
  induction reads with
  | binding _ _ _ passed ih | returning _ _ passed ih | expressionStatement _ passed ih =>
    subst passed
    have := passSemicolon_length_le
    simp only [Phrase.least, List.length_cons] at ih ⊢
    grind
  | bareReturn _ passed =>
    subst passed
    have := passSemicolon_length_le
    simp only [Phrase.least, List.length_cons]
    grind
  | _ => simp_all [Phrase.least] <;> omega

/-- More room than a reading needs does not change it. -/
theorem Reads.mono {grammar : Grammar} {phrase : Phrase form} {value : form.Tree}
    {input rest : List Terminal} {more : Nat}
    (reads : Reads grammar room phrase input value rest) (le : room ≤ more) :
    Reads grammar more phrase input value rest := by
  induction reads generalizing more with
  | expression begun _ _ ih ih' =>
    obtain ⟨more, rfl⟩ : ∃ n, more = n + 1 := ⟨more - 1, by omega⟩
    exact .expression begun (ih (Nat.le_of_succ_le_succ le)) (ih' (Nat.le_of_succ_le_succ le))
  | _ => constructor <;> first | assumption | (apply_assumption; assumption)

namespace Phrase

/-- The terminals that a parser offers to the phrase. -/
def input (parser : Parser) : Phrase form → List Terminal
  | .start _ | .expression _ | .extend _ _ | .statements _ | .statement | .statementBy _ =>
    parser.remainingTerminals
  | .continuation _ _ | .items _ | .enclosed _ | .block =>
    parser.followingTerminals

/-- A rule is only run on a token that the table gave it for, never on the end token. -/
def Ready (parser : Parser) : Phrase form → Prop
  | .start _ | .extend _ _ | .statementBy _ => parser.current.kind ≠ .eof
  | _ => True

theorem input_length_pos (phrase : Phrase form) (parser : Parser) :
    0 < (phrase.input parser).length := by
  have following : 0 < parser.followingTerminals.length := by
    simp only [Parser.followingTerminals, Parser.following]
    split <;> simp
  have remaining : 0 < parser.remainingTerminals.length := by
    simp only [Parser.remainingTerminals, Parser.remaining]
    split <;> simp
  cases phrase <;> assumption

end Phrase

namespace Parser

/-- The levels of nesting that are left. -/
def room (parser : Parser) : Nat := parser.options.maxDepth - parser.depth

structure Poised (grammar : Grammar) (room : Nat) (parser : Parser) : Prop where
  grammar : parser.grammar = grammar
  room : parser.room = room
  settled : parser.Settled

variable {grammar : Grammar} {levels : Nat} {parser : Parser}

theorem Poised.kept {after : Parser} (poised : parser.Poised grammar levels)
    (h : parser.AppendsOnly after) : after.Poised grammar levels where
  grammar := h.grammar.trans poised.grammar
  room := by
    rw [← poised.room, Parser.room, Parser.room, h.options, h.depth]
  settled := h.settled poised.settled

theorem Poised.advance (poised : parser.Poised grammar levels) :
    parser.advance.Poised grammar levels := poised.kept (appendsOnly_advance parser)

theorem Poised.built {bound : Nat} {phrase : Phrase form} {value : form.Tree} {after : Parser}
    (poised : parser.Poised grammar levels)
    (run : (Parts.within bound).parse phrase parser = .built value after) :
    after.Poised grammar levels := poised.kept ((Parts.neverSilent_within bound phrase).built run)

theorem Poised.enter (poised : parser.Poised grammar levels) (label : String) :
    (parser.enter label).Poised grammar levels :=
  ⟨poised.grammar, poised.room, poised.settled.frame rfl⟩

theorem Poised.deepen (poised : parser.Poised grammar (levels + 1)) :
    parser.depth < parser.options.maxDepth ∧ parser.deepen.Poised grammar levels := by
  have left : parser.options.maxDepth - parser.depth = levels + 1 := poised.room
  refine ⟨by omega, poised.grammar, ?_, poised.settled.frame rfl⟩
  change parser.options.maxDepth - (parser.depth + 1) = levels
  omega

end Parser

end MonkeySyntax
