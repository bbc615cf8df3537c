import MonkeySyntax.Proofs.Parsing.Completeness
import MonkeySyntax.Proofs.Parsing.Loop
import MonkeySyntax.Proofs.Parsing.Strays
import MonkeySyntax.Proofs.Scan.Terminals

/-! What stands behind a block. A fault inside a block is contained by it as long as braces go
astray in pairs only: then the block ends with the brace that closes it, and a binding behind it is
a statement of the program. If more closing braces have gone astray than opening ones, a block is
still open there, and it takes the binding in. -/
namespace MonkeySyntax

open MonkeySyntax.Parser

namespace Site

variable {site : Site} {start parser : Parser} {list : Program}

/-- The loop has still the binding ahead, or has lost it, or has come to it. -/
def Course (site : Site) (start parser : Parser) : Prop :=
  site.Onset 0 parser ∨ (site.Behind 0 parser ∧
    ∃ list here, start.Moment list here ∧ here.remaining = site.tail)

/-- One turn of the loop, whatever becomes of its statement. -/
theorem Course.next {after : Parser} (course : site.Course start parser)
    (moment : start.Moment list parser) (ends : (parser.run (·.statement)).EndsIn after)
    (dropped : Nat) : site.Course start { after with dropped := dropped }.advance := by
  have onward (behind : site.Behind 0 parser) :
      site.Behind 0 { after with dropped := dropped }.advance := by
    have there := ends.holds
      ((Parts.Uphold.within (site.behind 0) parser.bound).statement parser behind)
    exact (there.frame after.trace after.depth dropped).advance
  rcases course with onset | ⟨behind, found⟩
  · by_cases here : parser.remaining = site.tail
    · exact .inr ⟨onward (onset.behind here), list, parser, moment, here⟩
    · have clear := ends.holds
        ((Parts.stay_within site parser.bound).statement 0 parser (onset.reached here))
      exact .inl (clear.frame after.trace after.depth dropped).onset
  · exact .inr ⟨onward behind, found⟩

theorem Course.of_moment (onset : site.Onset 0 start) (moment : start.Moment list parser) :
    site.Course start parser := by
  induction moment with
  | first => exact .inl onset
  | @built list parser after statement moment _ run ih =>
    have ends : (parser.run (·.statement)).EndsIn after := run ▸ .built
    exact ih.next moment ends after.dropped
  | @dropped list parser after moment _ run ih =>
    have ends : (parser.run (·.statement)).EndsIn after := run ▸ .abandoned
    exact ih.next moment ends (after.dropped + 1)

/-- Where the binding is the next to be read, as many braces of one kind as of the other have gone
astray. -/
theorem Course.tally_eq (course : site.Course start parser)
    (here : parser.remainingTerminals = site.tail.map Token.terminal) :
    site.tally parser = 0 := by
  have length : parser.remaining.length = site.tail.length := by
    simpa [remainingTerminals] using congrArg List.length here
  rcases course with onset | ⟨behind, _⟩
  · have same := List.suffix_of_suffix_length_le onset.suffix site.tail_suffix
      (Nat.le_of_eq length)
    exact (onset.behind (same.eq_of_length length)).tally
  · exact behind.tally

/-- Either the loop comes to the binding with as many opening braces as closing ones astray, or more
closing ones have gone astray and it never comes to it. -/
theorem contained_or_missed (onset : site.Onset 0 start) {statement : Stmt} {rest : List Terminal}
    (reads : Reads Grammar.standard start.room (.statements .program)
      (site.tail.map Token.terminal) [statement] rest) :
    (∃ list final, start.readProgram = .built (list ++ [statement]) final ∧
      site.tally final = 0) ∨
    ∃ list final, start.readProgram = .built list final ∧ site.tally final < 0 ∧
      ∀ list parser, start.Moment list parser →
        parser.remainingTerminals ≠ site.tail.map Token.terminal := by
  have grounded : start.grammar.Grounded := onset.grammar ▸ Grammar.grounded_standard
  have resumed {list : Program} {parser : Parser} (moment : start.Moment list parser)
      (here : parser.remainingTerminals = site.tail.map Token.terminal) :
      ∃ final, start.readProgram = .built (list ++ [statement]) final ∧ site.tally final = 0 := by
    have poised : start.Poised .standard start.room := ⟨onset.grammar, rfl, onset.settled⟩
    have enough : 4 * (site.tail.map Token.terminal).length + (Phrase.statements .program).rank ≤
        parser.bound + 2 := by
      have enough := parser.enough_le_bound
      rw [← here, remainingTerminals, List.length_map]
      simp only [Phrase.rank]
      omega
    obtain ⟨final, run, _, quiet⟩ := reads.yields Grammar.grounded_standard enough parser
      (poised.kept (moment.kept keeps_appendsOnly)) trivial here
    refine ⟨final, moment.readProgram grounded onset.settled run, ?_⟩
    rw [tally, quiet]
    exact (Course.of_moment onset moment).tally_eq here
  obtain ⟨list, final, moment, ended⟩ := Moment.first.exists_last grounded onset.settled
  have whole := moment.readProgram_of_eof grounded onset.settled ended
  rcases Course.of_moment onset moment with onset' | ⟨_, list', here, there, same⟩
  · have swallowed := onset'.swallowed ended
    -- From a moment at the binding the loop would come to this same end, and with the braces even.
    refine .inr ⟨list, final, whole, swallowed.2, fun list' parser moment' here => ?_⟩
    obtain ⟨final', run, balanced⟩ := resumed moment' here
    rw [whole] at run
    cases run
    exact absurd balanced (Int.ne_of_lt swallowed.2)
  · obtain ⟨final', run, balanced⟩ := resumed there (congrArg (List.map Token.terminal) same)
    exact .inl ⟨list', final', run, balanced⟩

end Site

/-- Parentheses and braces close in the order opposite to that in which they open. -/
inductive Nested : List Terminal → Prop
  | nil : Nested []
  | other {first : Terminal} {rest : List Terminal} :
      first.kind ∉ [.lparen, .rparen, .lbrace, .rbrace] → Nested rest → Nested (first :: rest)
  | parentheses {opening closing : Terminal} {inside rest : List Terminal} :
      opening.kind = .lparen → closing.kind = .rparen → Nested inside → Nested rest →
      Nested (opening :: inside ++ closing :: rest)
  | braces {opening closing : Terminal} {inside rest : List Terminal} :
      opening.kind = .lbrace → closing.kind = .rbrace → Nested inside → Nested rest →
      Nested (opening :: inside ++ closing :: rest)

theorem Nested.balanced {terminals : List Terminal} (nested : Nested terminals) :
    MonkeySyntax.braces terminals = 0 := by
  induction nested with
  | nil => rfl
  | @other first rest apart _ ih =>
    rw [braces_cons, ih, Int.add_zero]
    generalize first.kind = kind at apart
    cases kind <;> first | rfl | simp at apart
  | parentheses opens closes _ _ ih ih' =>
    rw [List.cons_append, braces_cons, braces_append, braces_cons, opens, closes, ih, ih']
    rfl
  | braces opens closes _ _ ih ih' =>
    rw [List.cons_append, braces_cons, braces_append, braces_cons, opens, closes, ih, ih']
    rfl

def bindingTerminals : List Terminal :=
  [⟨.letWord, "let"⟩, ⟨.ident, "y"⟩, ⟨.assign, "="⟩, ⟨.int, "1"⟩, ⟨.semicolon, ";"⟩, ⟨.eof, ""⟩]

/-- The terminals of a block with a binding behind it. -/
theorem scan_block_binding (inner : String) :
    scan ("if (x) \x7b " ++ inner ++ " \x7d let y = 1;").toList =
      lex "if (x) \x7b ".toList ++ lex inner.toList ++ ⟨.rbrace, "\x7d"⟩ :: bindingTerminals := by
  have opened : Seam "if (x) \x7b ".toList (inner.toList ++ " \x7d let y = 1;".toList) := by
    refine .of_blank fun c ending => ?_
    rw [show "if (x) \x7b ".toList.getLast? = some ' ' by decide +kernel] at ending
    exact Option.some.inj ending ▸ rfl
  have closed : Seam inner.toList " \x7d let y = 1;".toList := by
    refine .to_blank fun c beginning => ?_
    rw [show " \x7d let y = 1;".toList.head? = some ' ' by decide +kernel] at beginning
    exact Option.some.inj beginning ▸ rfl
  have last : scan " \x7d let y = 1;".toList = ⟨.rbrace, "\x7d"⟩ :: bindingTerminals := by
    decide +kernel
  rw [String.toList_append, String.toList_append, List.append_assoc, scan_append opened,
    scan_append closed, last, List.append_assoc]

/-- The binding behind the block, as the tokens of the text show it. -/
theorem exists_site (file inner : String) : ∃ site : Site,
    (Cursor.ofText file ("if (x) \x7b " ++ inner ++ " \x7d let y = 1;")).tokens = site.tokens ∧
      site.tail.map Token.terminal = bindingTerminals := by
  let text := "if (x) \x7b " ++ inner ++ " \x7d let y = 1;"
  have scanned : (Cursor.ofText file text).tokens.map Token.terminal =
      lex "if (x) \x7b ".toList ++ lex inner.toList ++ ⟨.rbrace, "\x7d"⟩ :: bindingTerminals :=
    (Cursor.terminals_eq_scan _).trans (scan_block_binding inner)
  obtain ⟨front, others, split, -, behind⟩ := List.map_eq_append_iff.mp scanned
  obtain ⟨closing, tail, rfl, closes, behind⟩ := List.map_eq_cons_iff.mp behind
  obtain ⟨word, rest, rfl, begins, -⟩ := List.map_eq_cons_iff.mp behind
  have increasing := (Tokenization.of_cursor file text).increasing
  rw [split] at increasing
  have plain : ∀ token ∈ word :: rest, token.kind.brace = 0 := by
    intro token member
    have inside : token.terminal ∈ (word :: rest).map Token.terminal := List.mem_map_of_mem member
    rw [behind] at inside
    have all : ∀ terminal ∈ bindingTerminals, terminal.kind.brace = 0 := by decide
    exact all _ inside
  let site : Site :=
    { front, closing, word, rest, plain
      closes := congrArg Terminal.kind closes
      begins := congrArg Terminal.kind begins
      apart := List.pairwise_map.mpr (increasing.imp Nat.ne_of_lt) }
  exact ⟨site, split, behind⟩

/-- The binding is read as a statement wherever an expression may be. -/
theorem reads_binding {room : Nat} (some : 0 < room) :
    Reads Grammar.standard room (.statements .program) bindingTerminals
      [.binding "y" (.integer 1 "1")] [⟨.eof, ""⟩] := by
  have value : Reads Grammar.standard 1 (.expression .lowest)
      [⟨.int, "1"⟩, ⟨.semicolon, ";"⟩, ⟨.eof, ""⟩] (.integer 1 "1")
      [⟨.semicolon, ";"⟩, ⟨.eof, ""⟩] :=
    .expression rfl (.integer (by decide)) (.stop rfl)
  have one : Reads Grammar.standard 1 (.statements .program) bindingTerminals
      [.binding "y" (.integer 1 "1")] [⟨.eof, ""⟩] :=
    .next rfl (.statement (.binding rfl rfl value rfl)) (.finish rfl)
  exact one.mono some

/-- Behind a block whose text closes what it opens, a binding is the last statement of the program
if as many opening braces as closing ones go astray. Otherwise more closing ones do, and the binding
is never come to outside of blocks. -/
theorem readText_block_binding {options : Options} (file : String) {inner : String}
    (deep : 0 < options.maxDepth) (nested : Nested (lex inner.toList)) :
    let text := "if (x) \x7b " ++ inner ++ " \x7d let y = 1;"
    let tokens := (Cursor.ofText file text).tokens
    let read := readText options file text
    (strays .lbrace tokens read.diagnostics = strays .rbrace tokens read.diagnostics ∧
      read.program.getLast? = some (.binding "y" (.integer 1 "1"))) ∨
    (strays .lbrace tokens read.diagnostics < strays .rbrace tokens read.diagnostics ∧
      ∀ list parser, (Parser.start options (.ofText file text)).Moment list parser →
        parser.remainingTerminals ≠ scan "let y = 1;".toList) := by
  intro text tokens read
  obtain ⟨site, split, tail⟩ := exists_site file inner
  let start := Parser.start options (.ofText file text)
  have remaining : start.remaining = site.tokens := (remaining_start options _).trans split
  have onset : site.Onset 0 start := by
    have balance : braces start.remainingTerminals = 0 := by
      have opening : braces (lex "if (x) \x7b ".toList) = 1 := by decide +kernel
      rw [remainingTerminals, remaining_start]
      change braces (Cursor.ofText file text).terminals = 0
      rw [Cursor.terminals_eq_scan]
      change braces (scan text.toList) = 0
      rw [scan_block_binding, braces_append, braces_append, opening, nested.balanced]
      rfl
    refine ⟨⟨rfl, settled_start options _, remaining ▸ List.suffix_refl _⟩, .inl ⟨?_, ?_⟩⟩
    · exact remaining ▸ site.tail_suffix
    · rw [balance]
      rfl
  have reads : Reads Grammar.standard start.room (.statements .program)
      (site.tail.map Token.terminal) _ _ := tail ▸ reads_binding deep
  have binding : scan "let y = 1;".toList = bindingTerminals := by decide +kernel
  rw [binding, ← tail]
  have tally {program : Program} {final : Parser} (run : start.readProgram = .built program final) :
      read = final.parsed program ∧ (strays .lbrace tokens read.diagnostics : Int) -
        strays .rbrace tokens read.diagnostics = site.tally final := by
    have parsed : read = final.parsed program := readText_of_built run
    rw [parsed, Site.tally, ← split]
    exact ⟨rfl, rfl⟩
  rcases Site.contained_or_missed onset reads with
    ⟨list, final, run, balanced⟩ | ⟨list, final, run, fewer⟩
  · obtain ⟨parsed, count⟩ := tally run
    refine .inl ⟨by omega, ?_⟩
    rw [parsed]
    exact List.getLast?_concat
  · obtain ⟨parsed, count⟩ := tally run
    exact .inr ⟨by omega, fewer.2⟩

set_option maxRecDepth 20000 in
/-- A brace goes astray with the head of its function, and a closing one makes up for it. -/
theorem readText_block_binding_paired :
    Nested (lex "fn(2) \x7b 1 \x7d".toList) ∧
    (readText {} "f" "if (x) \x7b fn(2) \x7b 1 \x7d \x7d let y = 1;").diagnostics.map
        (fun d => (d.fault, d.offset)) =
      [(.unexpected .ident .int, 12), (.noStart .rparen, 13), (.noStart .lbrace, 15),
        (.noStart .rbrace, 21)] ∧
    (readText {} "f" "if (x) \x7b fn(2) \x7b 1 \x7d \x7d let y = 1;").program.getLast? =
      some (.binding "y" (.integer 1 "1")) := by
  have nested : Nested (lex "fn(2) \x7b 1 \x7d".toList) := by
    have terminals : lex "fn(2) \x7b 1 \x7d".toList =
        [⟨.function, "fn"⟩, ⟨.lparen, "("⟩, ⟨.int, "2"⟩, ⟨.rparen, ")"⟩, ⟨.lbrace, "\x7b"⟩,
          ⟨.int, "1"⟩, ⟨.rbrace, "\x7d"⟩] := by decide +kernel
    rw [terminals]
    have one : Nested [⟨.int, "1"⟩] := .other (by decide) .nil
    have two : Nested [⟨.int, "2"⟩] := .other (by decide) .nil
    exact .other (by decide) (.parentheses rfl rfl two (.braces rfl rfl one .nil))
  refine ⟨nested, rfl, ?_⟩
  have deep : 0 < ({} : Options).maxDepth := by decide
  rcases readText_block_binding "f" deep nested with ⟨_, last⟩ | ⟨fewer, _⟩
  · exact last
  · exact absurd fewer (by decide +kernel)

set_option maxRecDepth 20000 in
/-- An operator without an operand loses the brace behind it, and the block its end. -/
theorem not_forall_block_binding :
    ¬ ∀ inner : String, Nested (lex inner.toList) →
      (readText {} "shell" ("if (x) \x7b " ++ inner ++ " \x7d let y = 1;")).program.getLast? =
        some (.binding "y" (.integer 1 "1")) := by
  intro always
  have operator : lex "!".toList = [⟨.bang, "!"⟩] := by decide +kernel
  have nested : Nested (lex "!".toList) := by
    rw [operator]
    exact .other (by decide) .nil
  have swallowed : (readText {} "shell" ("if (x) \x7b " ++ "!" ++ " \x7d let y = 1;")).program =
      [.expression (.conditional (.identifier "x") [.binding "y" (.integer 1 "1")] none)] := rfl
  have last := always "!" nested
  rw [swallowed] at last
  cases last

end MonkeySyntax
