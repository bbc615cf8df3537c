import MonkeySyntax.Proofs.Language.Derivation
import MonkeySyntax.Proofs.Parsing.Variation
import MonkeySyntax.Proofs.Source.Terminals

/-! The end of the input. A block that is open there may as well be closed: braces change nothing as
long as there are no more of them than open blocks. And an expression whose blocks are closed may be
followed by a parenthesis instead, so parentheses around it cost one level of nesting and nothing
else. -/
namespace MonkeySyntax

open Grammar (standard)

def rbraces (count : Nat) : List Terminal := List.replicate count ⟨.rbrace, "\x7d"⟩

/-- The end token alone, or a parenthesis and anything behind it. -/
inductive Tail : List Terminal → Prop
  | eof {ended : Terminal} : ended.kind = .eof → Tail [ended]
  | rparen {close : Terminal} {rest : List Terminal} : close.kind = .rparen → Tail (close :: rest)

theorem Tail.headKind_rbraces {tail : List Terminal} (proper : Tail tail) (count : Nat) :
    headKind (rbraces count ++ tail) ∈ [.rbrace, .rparen, .eof] := by
  cases count with
  | succ count => exact .head _
  | zero =>
    cases proper with
    | eof ended => exact .tail _ (.tail _ (ended ▸ .head _))
    | rparen close => exact .tail _ (close ▸ .head _)

/-- What may stand for the end token inside so many open blocks: braces for some of them and then
the tail. If that is a parenthesis, the braces have to close all the blocks. -/
inductive Tailed (tail : List Terminal) (depth : Nat) : List Terminal → List Terminal → Prop
  | intro (used : List Terminal) {ended : Terminal} {count : Nat} : ended.kind = .eof →
      (∀ terminal ∈ used, terminal.kind ≠ .eof) → (count : Int) ≤ depth + braces used →
      (headKind tail ≠ .eof → (count : Int) = depth + braces used) →
      Tailed tail depth (used ++ [ended]) (used ++ (rbraces count ++ tail))

namespace Tailed

variable {tail : List Terminal} {depth count : Nat} {first ended : Terminal}
  {input rest other : List Terminal}

theorem exists_cons (tailed : Tailed tail depth input other) :
    ∃ first rest, input = first :: rest := by
  cases tailed with
  | @intro used => cases used <;> exact ⟨_, _, rfl⟩

theorem at_end (is : ended.kind = .eof) (few : count ≤ depth)
    (all : headKind tail ≠ .eof → count = depth) :
    Tailed tail depth [ended] (rbraces count ++ tail) := by
  refine .intro [] is nofun ?_ fun closes => ?_
  · rw [braces_nil]
    omega
  · rw [braces_nil, all closes, Int.add_zero]

/-- Both inputs begin alike, whatever that does to the number of open blocks; or the end is reached
and only braces and the tail are left. -/
theorem cases_head (tailed : Tailed tail depth (first :: rest) other) :
    (first.kind ≠ .eof ∧ ∃ rest', other = first :: rest' ∧
      ∀ inside : Nat, (inside : Int) = depth + first.kind.brace → Tailed tail inside rest rest') ∨
    first.kind = .eof ∧ rest = [] ∧ ∃ count, other = rbraces count ++ tail ∧ count ≤ depth ∧
      (headKind tail ≠ .eof → count = depth) := by
  generalize whole : first :: rest = input at tailed
  cases tailed with
  | @intro used ended count is apart few all =>
    cases used with
    | nil =>
      cases whole
      rw [braces_nil, Int.add_zero] at few all
      refine .inr ⟨is, rfl, count, rfl, Int.ofNat_le.mp few, fun closes => ?_⟩
      exact Int.ofNat.inj (all closes)
    | cons head used =>
      cases whole
      obtain ⟨proper, apart⟩ := List.forall_mem_cons.mp apart
      refine .inl ⟨proper, _, rfl, fun inside level => ?_⟩
      rw [braces_cons, ← Int.add_assoc, ← level] at few all
      exact .intro used is apart few all

theorem uncons {inside : Nat} (proper : first.kind ≠ .eof)
    (level : (inside : Int) = depth + first.kind.brace)
    (tailed : Tailed tail depth (first :: rest) other) :
    ∃ rest', other = first :: rest' ∧ Tailed tail inside rest rest' := by
  rcases tailed.cases_head with ⟨_, rest', same, more⟩ | ⟨is, _⟩
  · exact ⟨rest', same, more inside level⟩
  · exact absurd is proper

theorem of_eof (is : first.kind = .eof) (tailed : Tailed tail depth (first :: rest) other) :
    rest = [] ∧ ∃ count, other = rbraces count ++ tail ∧ count ≤ depth ∧
      (headKind tail ≠ .eof → count = depth) := by
  rcases tailed.cases_head with ⟨proper, _⟩ | ⟨_, ended⟩
  · exact absurd is proper
  · exact ended

end Tailed

open Tailed in
/-- Closing braces may be left out at the end of the input. -/
theorem variation_tailed {tail : List Terminal} (proper : Tail tail) :
    Variation (headKind tail = .eof) (Tailed tail) where
  inner inner given := given.uncons inner.2 (by rw [inner.1.1, Int.add_zero])
  opening is given := given.uncons (is ▸ nofun) (by rw [is]; rfl)
  closing is given := given.uncons (is ▸ nofun) (by rw [is, Kind.brace]; omega)
  unclosed {depth _ _} is given := by
    obtain ⟨_, count, rfl, few, all⟩ := given.of_eof is
    cases count with
    | zero =>
      -- Nothing closes the block, so the input has to end here too.
      cases proper with
      | @eof last ended =>
        have none : Tailed [last] depth _ (rbraces 0 ++ [last]) :=
          at_end is (Nat.zero_le depth) (absurd ended)
        exact ⟨_, none, fun _ => .finish ended⟩
      | rparen close => exact absurd (all (by rw [headKind_cons, close]; decide)) (by omega)
    | succ count =>
      exact ⟨rbraces count ++ tail, .at_end is (Nat.le_of_succ_le_succ few)
        fun closes => Nat.succ.inj (all closes), fun _ => .close rfl⟩
  ended within is given := by
    obtain ⟨_, count, rfl, few, _⟩ := given.of_eof is
    obtain rfl := Nat.le_zero.mp few
    cases proper with
    | eof ended => exact ⟨_, rfl, ended⟩
    | rparen close => rw [headKind_cons, close] at within; cases within
  stops given ends := by
    obtain ⟨first, rest, rfl⟩ := given.exists_cons
    rcases given.cases_head with ⟨_, _, rfl, _⟩ | ⟨_, _, count, rfl, _⟩
    · exact Kind.stops_of_endsReturn ends
    · exact .tail _ (proper.headKind_rbraces count)
  returns {depth _ _} within given ends := by
    obtain ⟨first, rest, rfl⟩ := given.exists_cons
    rcases given.cases_head with ⟨_, _, rfl, _⟩ | ⟨_, _, count, rfl, _, all⟩
    · exact ends
    · cases count with
      | succ count => rfl
      | zero =>
        -- The blocks around a statement are not all closed, so the input ends here too.
        have more : ¬ headKind tail ≠ .eof := fun closes => by
          have := all closes
          exact within.elim closes (by omega)
        have ended : headKind tail = .eof := Classical.not_not.mp more
        change Parts.endsReturn (headKind tail)
        rw [ended]
        rfl
  pass {depth _ _} within given := by
    obtain ⟨first, rest, rfl⟩ := given.exists_cons
    rcases given.cases_head with ⟨_, rest', rfl, more⟩ | ⟨is, _, count, rfl, _⟩
    · simp only [passSemicolon]
      split
      · next semicolon => exact more depth (by rw [semicolon]; rfl)
      · exact given
    · have apart : headKind (rbraces count ++ tail) ≠ .semicolon := by
        intro semicolon
        have member := proper.headKind_rbraces count
        rw [semicolon] at member
        exact absurd member (by decide)
      rw [passSemicolon_of_ne (by rw [headKind_cons, is]; decide), passSemicolon_of_ne apart]
      exact given

section

variable {options : Options} {file text : String}

theorem Takes.braces_le {due : Int} {tight : Prop} {input rest : List Terminal}
    (takes : Takes due tight input rest) : braces rest ≤ braces input + due := by
  cases takes with
  | closed used split balanced | cut used split _ balanced =>
    rw [split, braces_append]
    omega

theorem braces_lexed (file text : String) :
    braces (lexed text) = ((Cursor.ofText file text).tokens.countP (·.kind = .lbrace) : Int) -
      (Cursor.ofText file text).tokens.countP (·.kind = .rbrace) := by
  rw [← Cursor.braces_terminals, Cursor.terminals_ofText, braces_append]
  exact (Int.add_zero _).symm

theorem lexed_rbraces (text : String) (count : Nat) :
    lexed (text ++ String.ofList (List.replicate count '\x7d')) = lexed text ++ rbraces count := by
  induction count with
  | zero => simp [rbraces]
  | succ count ih =>
    have closing : Closing "\x7d" := ⟨_, rfl, by decide⟩
    have last : String.ofList ['\x7d'] = "\x7d" := rfl
    have one : lexed "\x7d" = [⟨.rbrace, "\x7d"⟩] := by decide
    rw [List.replicate_succ', String.ofList_append, last, ← String.append_assoc,
      lexed_of_closing _ closing, ih, one, rbraces, rbraces, List.replicate_succ',
      List.append_assoc]

/-- Blocks left open at the end of a program may be closed there, as many of them as one likes. -/
theorem readText_unclosed (options : Options) (file text : String)
    (quiet : (readText options file text).diagnostics = []) :
    (Cursor.ofText file text).tokens.countP (·.kind = .rbrace) ≤
        (Cursor.ofText file text).tokens.countP (·.kind = .lbrace) ∧
    ∀ count, count + (Cursor.ofText file text).tokens.countP (·.kind = .rbrace) ≤
        (Cursor.ofText file text).tokens.countP (·.kind = .lbrace) →
      (readText options file (text ++ String.ofList (List.replicate count '\x7d'))).program =
          (readText options file text).program ∧
        (readText options file (text ++ String.ofList (List.replicate count '\x7d'))).diagnostics =
          [] := by
  have counted := braces_lexed file text
  constructor
  · obtain ⟨_, reads⟩ := exists_reads quiet
    have takes := (reads.takes trivial).braces_le
    obtain ⟨_, ⟨last, ended, rfl, rfl⟩, _⟩ := reads.derives
    rw [Cursor.terminals_ofText, braces_append, braces_cons, ended] at takes
    have unclosed : 0 ≤ braces (lexed text) := by simpa [Kind.brace, Phrase.due] using takes
    omega
  · intro count few
    have ended : Tail [⟨.eof, ""⟩] := .eof rfl
    refine (variation_tailed ended).readText rfl quiet ?_
    rw [Cursor.terminals_ofText, Cursor.terminals_ofText, lexed_rbraces, List.append_assoc]
    exact .intro _ rfl (lex_kind_ne_eof _) (by omega) (absurd rfl)

set_option maxRecDepth 20000 in
/-- Of two blocks that are open behind a return, the inner one is closed. -/
theorem readText_unclosed_return :
    (readText { maxDepth := 3 } "f" "fn(x) \x7b if (x) \x7b return").diagnostics = [] ∧
    (readText { maxDepth := 3 } "f" ("fn(x) \x7b if (x) \x7b return" ++
        String.ofList (List.replicate 1 '\x7d'))).program =
      [.expression (.function ["x"]
        [.expression (.conditional (.identifier "x") [.returning none] none)])] ∧
    (readText { maxDepth := 3 } "f" ("fn(x) \x7b if (x) \x7b return" ++
        String.ofList (List.replicate 1 '\x7d'))).diagnostics = [] := by
  have quiet : (readText { maxDepth := 3 } "f" "fn(x) \x7b if (x) \x7b return").diagnostics = [] :=
    rfl
  have closes := (readText_unclosed { maxDepth := 3 } "f" _ quiet).2 1 (by decide)
  exact ⟨quiet, closes⟩

/-- A program of one expression is that expression and at most a semicolon. -/
theorem Reads.of_expression {room : Nat} {value : Expr} {input rest : List Terminal}
    (reads : Reads standard room (.statements .program) input [.expression value] rest) :
    ∃ last middle, last.kind = .eof ∧ Terminated middle [last] ∧
      Reads standard room (.expression .lowest) input value middle := by
  cases reads with
  | next _ statement others =>
    cases others with
    | finish ended =>
      cases statement with
      | statement reads =>
        generalize standard.statementRule (headKind input) = rule at reads
        cases reads with
        | expressionStatement given passed =>
          exact ⟨_, _, ended, terminated_iff.mpr passed, given⟩

theorem lexed_eq_map (file text : String) :
    lexed text = (Cursor.ofText file text).tokens.dropLast.map Token.terminal := by
  rw [List.map_dropLast, ← Cursor.terminals, Cursor.terminals_ofText, List.dropLast_concat]

theorem exists_reads_expression {value : Expr}
    (quiet : (readText options file text).diagnostics = [])
    (single : (readText options file text).program = [.expression value])
    (unended : ∀ last, (Cursor.ofText file text).tokens.dropLast.getLast? = some last →
      last.kind ≠ .semicolon) :
    ∃ last, last.kind = .eof ∧ Reads standard options.maxDepth (.expression .lowest)
      (lexed text ++ [⟨.eof, ""⟩]) value [last] := by
  obtain ⟨rest, reads⟩ := exists_reads quiet
  rw [single, Cursor.terminals_ofText] at reads
  obtain ⟨last, _, ended, terminated, given⟩ := reads.of_expression
  cases terminated with
  | bare => exact ⟨last, ended, given⟩
  | @semicolon sign _ is =>
    obtain ⟨used, split⟩ : ∃ used, lexed text ++ [⟨.eof, ""⟩] = used ++ [sign, last] := by
      cases given.takes trivial <;> exact ⟨_, ‹_›⟩
    have final : (lexed text).getLast? = some sign := by
      have short := congrArg (fun input : List Terminal => input.dropLast.getLast?) split
      simpa [List.dropLast_append_of_ne_nil] using short
    rw [lexed_eq_map file, List.getLast?_map, Option.map_eq_some_iff] at final
    obtain ⟨token, here, rfl⟩ := final
    exact absurd is (unended token here)

/-- Parentheses take one level of nesting. -/
theorem Reads.parenthesized {room : Nat} {value : Expr} (opening : Terminal) {close : Terminal}
    {input rest : List Terminal} (opened : opening.kind = .lparen) (closed : close.kind = .rparen)
    (reads : Reads standard room (.expression .lowest) input value (close :: rest))
    (stops : (headKind rest).Stops) :
    Reads standard (room + 1) (.expression .lowest) (opening :: input) value rest :=
  .expression (by rw [opened]; rfl) (.grouped reads closed)
    (.stop (Grammar.tighter?_of_stops stops _))

theorem lexed_parenthesized (text : String) :
    lexed ("(" ++ text ++ ")") = ⟨.lparen, "("⟩ :: (lexed text ++ [⟨.rparen, ")"⟩]) := by
  have opening : Opening "(" := ⟨_, rfl, by decide⟩
  have closing : Closing ")" := ⟨_, rfl, by decide⟩
  have one : lexed "(" = [⟨.lparen, "("⟩] := by decide
  have other : lexed ")" = [⟨.rparen, ")"⟩] := by decide
  rw [lexed_of_closing _ closing, lexed_of_opening opening, one, other]
  rfl

/-- Parentheses around a program of one expression change nothing, with one level more to spare. -/
theorem readText_parenthesized (options : Options) (file text : String) {value : Expr}
    (quiet : (readText options file text).diagnostics = [])
    (single : (readText options file text).program = [.expression value])
    (unended : ∀ last, (Cursor.ofText file text).tokens.dropLast.getLast? = some last →
      last.kind ≠ .semicolon)
    (balanced : (Cursor.ofText file text).tokens.countP (·.kind = .lbrace) =
      (Cursor.ofText file text).tokens.countP (·.kind = .rbrace)) :
    (readText { options with maxDepth := options.maxDepth + 1 } file ("(" ++ text ++ ")")).program =
        (readText options file text).program ∧
      (readText { options with maxDepth := options.maxDepth + 1 } file
        ("(" ++ text ++ ")")).diagnostics = [] := by
  obtain ⟨last, ended, reads⟩ := exists_reads_expression quiet single unended
  have counted := braces_lexed file text
  have given : Tailed [⟨.rparen, ")"⟩, ⟨.eof, ""⟩] 0 (lexed text ++ [⟨.eof, ""⟩])
      (lexed text ++ (rbraces 0 ++ [⟨.rparen, ")"⟩, ⟨.eof, ""⟩])) :=
    .intro _ rfl (lex_kind_ne_eof _) (by omega) fun _ => by omega
  obtain ⟨_, given, reads⟩ := (variation_tailed (.rparen rfl)).reads reads trivial rfl given
  obtain ⟨_, count, rfl, few, _⟩ := given.of_eof ended
  obtain rfl := Nat.le_zero.mp few
  have whole : Reads standard (options.maxDepth + 1) (.statements .program)
      (Cursor.ofText file ("(" ++ text ++ ")")).terminals [.expression value] [⟨.eof, ""⟩] := by
    have inside := Reads.parenthesized ⟨.lparen, "("⟩ rfl rfl reads (by decide)
    rw [Cursor.terminals_ofText, lexed_parenthesized, List.cons_append, List.append_assoc]
    exact .next rfl (.statement (.expressionStatement inside rfl)) (.finish rfl)
  rw [single]
  exact readText_of_reads whole

set_option maxRecDepth 20000 in
/-- An operand that ends with a block, at the least depth at which it is read. -/
theorem readText_parenthesized_function :
    (readText { maxDepth := 3 } "f" "!f(1) + fn() \x7b x; \x7d").diagnostics = [] ∧
    (readText { maxDepth := 4 } "f" ("(" ++ "!f(1) + fn() \x7b x; \x7d" ++ ")")).program =
      [.expression (.binary (.unary "!" (.call (.identifier "f") [.integer 1 "1"])) "+"
        (.function [] [.expression (.identifier "x")]))] ∧
    (readText { maxDepth := 4 } "f" ("(" ++ "!f(1) + fn() \x7b x; \x7d" ++ ")")).diagnostics =
      [] := by
  have quiet : (readText { maxDepth := 3 } "f" "!f(1) + fn() \x7b x; \x7d").diagnostics = [] := rfl
  have unended : ∀ last,
      (Cursor.ofText "f" "!f(1) + fn() \x7b x; \x7d").tokens.dropLast.getLast? = some last →
        last.kind ≠ .semicolon := by decide
  exact ⟨quiet, readText_parenthesized { maxDepth := 3 } "f" _ quiet rfl unended (by decide)⟩

end

end MonkeySyntax
