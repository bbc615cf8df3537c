import MonkeySyntax.Proofs.Diagnostic.Ledger
import MonkeySyntax.Proofs.Parsing.Termination

/-! The diagnostics of a whole text. Taking a token up, finding fault with it, expecting another one
ahead and going on after a failure each keep the account of what has been said, so the diagnostics
are a ledger of the tokens. Hence they come in the order of the text, each is true of the token at
its place, and no character that is not recognized goes unreported. -/
namespace MonkeySyntax

theorem Grammar.kind_of_start_integer {kind : Kind} (rule : standard.start kind = some .integer) :
    kind = .int := by
  cases kind <;> first | rfl | cases rule

namespace Parser

/-- The parser reads by the standard grammar and its diagnostics account for the tokens before the
upcoming ones. -/
structure Accounts (limit : Nat) (tokens : List Token) (count : Nat) (upcoming : List Token)
    (parser : Parser) : Prop where
  grammar : parser.grammar = .standard
  maxDepth : parser.options.maxDepth = limit
  settled : parser.Settled
  account : Account limit tokens count upcoming parser.diagnostics.toList

variable {limit count : Nat} {tokens upcoming : List Token} {parser : Parser}

/-- Whatever is found at the current token, it is done with afterwards. -/
theorem Accounts.pass (accounts : parser.Accounts limit tokens 1 parser.remaining)
    {late : List Diagnostic}
    (blames : ∀ diagnostic ∈ late, diagnostic.Blames limit parser.current)
    (found : ∀ diagnostic ∈ late, diagnostic.fault.isUnexpected = false)
    (once : late.length ≤ 1) (illegal : parser.current.kind = .illegal → late ≠ []) :
    Account limit tokens 0 parser.following (parser.diagnostics.toList ++ late) := by
  have account := accounts.account
  by_cases ended : parser.current.kind = .eof
  · rw [remaining, if_pos ended] at account
    rw [following_of_current accounts.settled ended]
    exact account.extend ended blames
  · rw [remaining, if_neg ended] at account
    exact account.pass ended parser.following_ne_nil blames found once illegal

/-- A rule of the standard grammar takes up no character that is not recognized. -/
theorem Known.ne_illegal (known : parser.Known) (standard : parser.grammar = .standard) :
    parser.current.kind ≠ .illegal := by
  intro illegal
  rw [Known, standard, illegal] at known
  exact absurd known (by decide)

theorem Finds.not_isUnexpected {fault : Fault} (finds : parser.Finds fault) :
    fault.isUnexpected = false := by
  cases finds <;> rfl

theorem Finds.fits {fault : Fault} (finds : parser.Finds fault)
    (standard : parser.grammar = .standard) (maxDepth : parser.options.maxDepth = limit)
    (numeral : parser.current.kind = .int → Text.isNumeral parser.current.literal.toList) :
    fault.Fits limit parser.current := by
  cases finds with
  | noStart none => exact .noStart (standard ▸ none)
  | integerRange rule large =>
    have kind := Grammar.kind_of_start_integer (standard ▸ rule)
    refine .integerRange kind (numeral kind) (Nat.le_of_not_lt fun small => ?_)
    simp [Text.numeralBelow?, numeral kind, small] at large
  | tooDeep => exact maxDepth ▸ .tooDeep

end Parser

open MonkeySyntax.Parser

/-- Accounts for every diagnostic; numerals are spelled by digits. -/
def TokenAssertions.blaming (limit : Nat) (tokens : List Token)
    (numerals : ∀ token ∈ tokens, token.kind = .int → Text.isNumeral token.literal.toList) :
    TokenAssertions where
  reached parser := parser.Accounts limit tokens 1 parser.remaining
  clear parser := parser.Accounts limit tokens 0 parser.following
  lost parser := parser.Accounts limit tokens 1 parser.following
  reached_frame _ h _ := ⟨h.grammar, h.maxDepth, h.settled.frame rfl, h.account⟩
  clear_frame _ h _ := ⟨h.grammar, h.maxDepth, h.settled.frame rfl, h.account⟩
  lost_frame _ h _ := ⟨h.grammar, h.maxDepth, h.settled.frame rfl, h.account⟩
  take h known := by
    have account := h.pass (List.forall_mem_nil _) (List.forall_mem_nil _) (Nat.zero_le _)
      fun illegal => absurd illegal (known.ne_illegal h.grammar)
    rw [List.append_nil] at account
    exact ⟨h.grammar, h.maxDepth, h.settled, account⟩
  advance h := ⟨h.grammar, h.maxDepth, h.settled.advance, by
    rw [remaining_advance]
    exact h.account.more⟩
  report {parser fault} h finds := by
    obtain ⟨rest, here⟩ := parser.remaining_eq_cons
    have member := (here ▸ h.account).mem
    have fits := finds.fits h.grammar h.maxDepth (numerals _ member)
    let found : Diagnostic := ⟨fault, parser.current.span.file, parser.current.span.start⟩
    have blames : ∀ diagnostic ∈ [found], diagnostic.Blames limit parser.current :=
      List.forall_mem_singleton.mpr ⟨rfl, rfl, fits⟩
    have account := h.pass blames (List.forall_mem_singleton.mpr finds.not_isUnexpected)
      (Nat.le_refl 1) fun _ => List.cons_ne_nil _ _
    refine ⟨h.grammar, h.maxDepth, h.settled.frame rfl, ?_⟩
    rw [Parser.report, toList_reportAt]
    exact account.more
  unexpected {parser kind} h other := by
    obtain ⟨rest, here⟩ := parser.following_eq_cons
    refine ⟨h.grammar, h.maxDepth, h.settled.frame rfl, ?_⟩
    have account := h.account
    rw [toList_reportAt]
    change Account limit tokens 1 parser.following _
    rw [here] at account ⊢
    exact account.hear ⟨rfl, rfl, .unexpected other⟩ rfl
  skip {parser} h met := by
    have proper : parser.ahead.kind ≠ .eof := by rw [met]; decide
    have legal : parser.ahead.kind ≠ .illegal := by rw [met]; decide
    have account := h.account
    rw [following_of_ne proper] at account
    have passed := account.pass proper parser.advance.following_ne_nil (List.forall_mem_nil _)
      (List.forall_mem_nil _) (Nat.zero_le _) fun illegal => absurd illegal legal
    rw [List.append_nil] at passed
    exact ⟨h.grammar, h.maxDepth, h.settled.advance, passed.more⟩
  recover h := ⟨h.grammar, h.maxDepth, h.settled.advance.frame rfl, by
    rw [remaining_advance]
    exact h.account⟩

/-- The diagnostics of a text are a ledger of its tokens. -/
theorem readText_ledger (options : Options) (file text : String) :
    Ledger options.maxDepth (Cursor.ofText file text).tokens
      (readText options file text).diagnostics := by
  let cursor := Cursor.ofText file text
  let parser := Parser.start options cursor
  have given := Tokenization.of_cursor file text
  have numerals : ∀ token ∈ cursor.tokens, token.kind = .int →
      Text.isNumeral token.literal.toList := fun token member number =>
    (given.spelled token member (by rw [number]; decide)).isNumeral number
  have some : cursor.tokens ≠ [] := remaining_start options cursor ▸ parser.remaining_ne_nil
  have reached : parser.Accounts options.maxDepth cursor.tokens 1 parser.remaining :=
    ⟨rfl, rfl, settled_start options cursor, by rw [remaining_start]; exact Account.start some⟩
  have grounded : parser.grammar.Grounded := Grammar.grounded_standard
  obtain ⟨program, after, run, ended⟩ := readProgram_finishes grounded reached.settled
  have upholds := (Parts.Uphold.within (.blaming options.maxDepth cursor.tokens numerals)
    parser.bound).statements .program parser reached
  change (parser.readProgram).Meets _ _ _ at upholds
  rw [run] at upholds
  -- Only the end token is left, so the account covers all tokens.
  have account := upholds.account
  rw [following_of_current upholds.settled ended] at account
  rw [readText_of_built run]
  exact account.ledger ended

section

variable {options : Options} {file text : String} {diagnostic : Diagnostic}

theorem file_of_diagnostic (member : diagnostic ∈ (readText options file text).diagnostics) :
    diagnostic.file = file := by
  obtain ⟨token, here, blames⟩ := (readText_ledger options file text).blames diagnostic member
  exact blames.file.trans ((Tokenization.of_cursor file text).within token here)

/-- No diagnostic is about a place past the end of the text. -/
theorem offset_le_of_diagnostic (member : diagnostic ∈ (readText options file text).diagnostics) :
    diagnostic.offset ≤ text.length := by
  obtain ⟨token, here, blames⟩ := (readText_ledger options file text).blames diagnostic member
  obtain ⟨start, stop⟩ := (Tokenization.of_cursor file text).span_le here
  rw [blames.offset, ← String.length_toList]
  exact Nat.le_trans start stop

/-- The offsets of the diagnostics of a text keep their values as words of 32 bits. -/
theorem offset_toUInt32 (short : text.length < 4294967296)
    (member : diagnostic ∈ (readText options file text).diagnostics) :
    diagnostic.offset.toUInt32.toNat = diagnostic.offset :=
  Nat.mod_eq_of_lt (Nat.lt_of_le_of_lt (offset_le_of_diagnostic member) short)

/-- There is a diagnostic of each character that is not recognized. -/
theorem exists_diagnostic_of_illegal {token : Token}
    (member : token ∈ (Cursor.ofText file text).tokens) (illegal : token.kind = .illegal) :
    ∃ diagnostic ∈ (readText options file text).diagnostics,
      diagnostic.offset = token.span.start := by
  have given := Tokenization.of_cursor file text
  have remarks := (readText_ledger options file text).filter_offset given.increasing member
  obtain ⟨early, late, same, verdict⟩ := remarks.verdict (by rw [illegal]; decide)
  obtain ⟨diagnostic, found⟩ := List.exists_mem_of_ne_nil late (verdict.illegal illegal)
  have here := List.mem_append_right early found
  rw [← same, List.mem_filter] at here
  exact ⟨diagnostic, here.1, of_decide_eq_true here.2⟩

end

/-- Diagnostics come in the order of the text, each is true of a token at its offset, and a token
before the end is blamed at most once because another was expected and then at most once because of
what it is. -/
theorem readText_diagnostics_blame (options : Options) (file text : String) :
    (readText options file text).diagnostics.Pairwise (fun one later => one.offset ≤ later.offset) ∧
    (∀ diagnostic ∈ (readText options file text).diagnostics, diagnostic.file = file ∧
      ∃ token ∈ (Cursor.ofText file text).tokens,
        diagnostic.offset = token.span.start ∧ diagnostic.fault.Fits options.maxDepth token) ∧
    ∀ token ∈ (Cursor.ofText file text).tokens, token.kind ≠ .eof → ∃ early late,
      (readText options file text).diagnostics.filter (·.offset = token.span.start) =
        early ++ late ∧
      early.length ≤ 1 ∧ (∀ diagnostic ∈ early, diagnostic.fault.isUnexpected) ∧
      late.length ≤ 1 ∧ ∀ diagnostic ∈ late, diagnostic.fault.isUnexpected = false := by
  have given := Tokenization.of_cursor file text
  have ledger := readText_ledger options file text
  refine ⟨ledger.ordered given.increasing, fun diagnostic member => ?_,
    fun token member proper => ?_⟩
  · obtain ⟨token, here, blames⟩ := ledger.blames diagnostic member
    exact ⟨blames.file.trans (given.within token here), token, here, blames.offset, blames.fits⟩
  · obtain ⟨early, late, same, verdict⟩ :=
      (ledger.filter_offset given.increasing member).verdict proper
    exact ⟨early, late, same, verdict.expected_once, verdict.expected, verdict.found_once,
      verdict.found⟩

/-- Each character that is not recognized is blamed for what it is, or because it is nested too
deeply, exactly once. -/
theorem readText_illegal_blamed (options : Options) (file text : String) :
    (∀ token ∈ (Cursor.ofText file text).tokens, token.kind = .illegal → ∃ early diagnostic,
      (readText options file text).diagnostics.filter (·.offset = token.span.start) =
        early ++ [diagnostic] ∧
      early.length ≤ 1 ∧ (∀ other ∈ early, other.fault.isUnexpected) ∧
      (diagnostic.fault = .noStart .illegal ∨ diagnostic.fault = .tooDeep options.maxDepth)) ∧
    ∀ diagnostic ∈ (readText options file text).diagnostics,
      diagnostic.fault = .noStart .illegal →
        ∃ token ∈ (Cursor.ofText file text).tokens, token.kind = .illegal ∧
          diagnostic.file = token.span.file ∧ diagnostic.offset = token.span.start := by
  have given := Tokenization.of_cursor file text
  have ledger := readText_ledger options file text
  refine ⟨fun token member illegal => ?_, fun diagnostic member nothing => ?_⟩
  · have remarks := ledger.filter_offset given.increasing member
    obtain ⟨early, late, same, verdict⟩ := remarks.verdict (by rw [illegal]; decide)
    obtain ⟨diagnostic, rfl⟩ : ∃ diagnostic, late = [diagnostic] :=
      List.length_eq_one_iff.mp (Nat.le_antisymm verdict.found_once
        (List.length_pos_iff.mpr (verdict.illegal illegal)))
    have fits := (remarks.blames diagnostic (by rw [same]; simp)).fits
    have found := verdict.found diagnostic (.head _)
    refine ⟨early, diagnostic, same, verdict.expected_once, verdict.expected, ?_⟩
    generalize diagnostic.fault = fault at fits found
    cases fits with
    | noStart => exact .inl (congrArg _ illegal)
    | unexpected => cases found
    | integerRange number => rw [illegal] at number; cases number
    | tooDeep => exact .inr rfl
  · obtain ⟨token, here, blames⟩ := ledger.blames diagnostic member
    have fits := blames.fits
    rw [nothing] at fits
    refine ⟨token, here, ?_, blames.file, blames.offset⟩
    generalize illegal : Kind.illegal = kind at fits
    cases fits
    rfl

set_option maxRecDepth 20000 in
example : (readText {} "f" "fn(x, @)").diagnostics.map (fun d => (d.fault, d.offset)) =
    [(.unexpected .ident .illegal, 6), (.noStart .illegal, 6), (.noStart .rparen, 7)] := rfl

end MonkeySyntax
