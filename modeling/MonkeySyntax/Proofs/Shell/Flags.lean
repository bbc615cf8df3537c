import MonkeySyntax.Proofs.Console.Transcript
import MonkeySyntax.Proofs.Diagnostic.Blame
import MonkeySyntax.Proofs.Parsing.Tracing
import MonkeySyntax.Proofs.Shell.Paths
import MonkeySyntax.Proofs.Text.Places

/-! What the flags add to a run on a file. Each adds lines of its own, before or after what the run
writes without flags, and none changes how the run ends: the tokens are read a second time by a
cursor of their own, and the parser never asks its trace. A report that cannot be written is a panic
with flags and without. -/
namespace MonkeySyntax.Shell

/-- The lines that flags have written before the result, from the tokens and from the trace. -/
def linesBefore (flags : List Flag) (durations : Durations) (tokens : List Token)
    (trace : List String) : List String :=
  (if .tokens ∈ flags then tokens.map Token.line else []) ++
    (if .tokens ∈ flags ∧ .timings ∈ flags then ["Tokenized in " ++ durations.tokens] else []) ++
    (if .timings ∈ flags then ["Parsed in " ++ durations.parse] else []) ++
    if .trace ∈ flags then trace else []

/-- The lines that flags have written after the result. -/
def linesAfter (flags : List Flag) (durations : Durations) (faults : List Diagnostic) :
    List String :=
  if .timings ∈ flags ∧ faults = [] then ["Total time: " ++ durations.total] else []

/-- Lines as they are written, each with its line feed. -/
def printed (lines : List String) : String := String.join (lines.map (· ++ "\n"))

theorem printed_append (lines more : List String) :
    printed (lines ++ more) = printed lines ++ printed more := by
  rw [printed, List.map_append, String.join_append]
  rfl

theorem printed_singleton (line : String) : printed [line] = line ++ "\n" := by
  simp [printed]

theorem printed_if (given : Prop) [Decidable given] (lines : List String) :
    printed (if given then lines else []) = if given then printed lines else "" := by
  split <;> rfl

theorem tokenLines_eq (name text : String) :
    tokenLines name text = printed ((Cursor.ofText name text).tokens.map Token.line) := by
  rw [printed, List.map_map]
  rfl

theorem printed_linesBefore (flags : List Flag) (durations : Durations) (tokens : List Token)
    (trace : List String) :
    printed (linesBefore flags durations tokens trace) =
      (if .tokens ∈ flags then
        printed (tokens.map Token.line) ++
          if .timings ∈ flags then "Tokenized in " ++ durations.tokens ++ "\n" else ""
      else "") ++
      (if .timings ∈ flags then "Parsed in " ++ durations.parse ++ "\n" else "") ++
      if .trace ∈ flags then printed trace else "" := by
  simp only [linesBefore, printed_append, printed_if, printed_singleton]
  by_cases listed : .tokens ∈ flags
  · simp only [listed, if_true, true_and]
  · simp only [listed, if_false, false_and, String.empty_append]

theorem printed_linesAfter (flags : List Flag) (durations : Durations) (faults : List Diagnostic) :
    printed (linesAfter flags durations faults) =
      if faults.isEmpty then
        if .timings ∈ flags then "Total time: " ++ durations.total ++ "\n" else ""
      else "" := by
  simp only [linesAfter, printed_if, printed_singleton, List.isEmpty_iff]
  by_cases clean : faults = []
  · simp only [clean, and_true, if_true]
  · simp only [clean, and_false, if_false]

theorem readText_options (flags : List Flag) (name text : String) :
    readText (options flags) name text =
      { readText {} name text with
        trace := if .trace ∈ flags then (readText { trace := true } name text).trace else [] } := by
  rw [options, readText_traced]
  simp only [decide_eq_true_eq]

theorem fileOutput_eq (flags : List Flag) (durations : Durations) (name text : String) :
    fileOutput flags durations name text (readText (options flags) name text) =
      printed (linesBefore flags durations (Cursor.ofText name text).tokens
        (readText { trace := true } name text).trace) ++
      result (readText {} name text) text ++
      printed (linesAfter flags durations (readText {} name text).diagnostics) := by
  rw [readText_options, printed_linesBefore, printed_linesAfter, ← printed_if, ← tokenLines_eq]
  rfl

section

variable {text : String}

theorem reports_append {before : List Diagnostic} (fit : ∀ d ∈ before, d.fits text)
    (rest : List Diagnostic) :
    reports text (before ++ rest) =
      (String.join (before.map (·.report text)) ++ (reports text rest).1,
        (reports text rest).2) := by
  induction before with
  | nil => simp
  | cons diagnostic before ih =>
    obtain ⟨fits, fit⟩ := List.forall_mem_cons.mp fit
    simp only [List.cons_append, reports, Diagnostic.report?, fits, if_true, ih fit, List.map_cons,
      String.join_cons, String.append_assoc]

theorem reports_of_fit {diagnostics : List Diagnostic} (fit : ∀ d ∈ diagnostics, d.fits text) :
    reports text diagnostics = (String.join (diagnostics.map (·.report text)), true) := by
  simpa [reports] using reports_append fit []

theorem reports_of_wide {before : List Diagnostic} {diagnostic : Diagnostic}
    (fit : ∀ d ∈ before, d.fits text) (wide : diagnostic.fits text = false)
    (after : List Diagnostic) :
    reports text (before ++ diagnostic :: after) =
      (String.join (before.map (·.report text)), false) := by
  rw [reports_append fit]
  simp [reports, Diagnostic.report?, wide]

/-- All reports are written exactly if all fields are narrow enough. -/
theorem reports_snd {diagnostics : List Diagnostic} :
    (reports text diagnostics).2 = true ↔ ∀ d ∈ diagnostics, d.fits text := by
  induction diagnostics with
  | nil => simp [reports]
  | cons diagnostic rest ih =>
    rw [List.forall_mem_cons, ← ih]
    cases fits : diagnostic.fits text <;> simp [reports, Diagnostic.report?, fits]

end

section

variable {path text : String} {content : ByteArray} {alarm : String}

/-- What is written has no part in how a run ends. -/
theorem conclude_output (alarm : String) (parsed : Parsed) (text : String)
    (output output' : ByteArray) :
    conclude alarm parsed text output' =
      { conclude alarm parsed text output with output := output' } := by
  simp only [conclude]
  split
  · rfl
  · split <;> rfl

theorem output_conclude (alarm : String) (parsed : Parsed) (text : String) (output : ByteArray) :
    (conclude alarm parsed text output).output = output := by
  rw [conclude_output alarm parsed text .empty]

theorem runFile_eq (flags : List Flag) (durations : Durations) (alarm : String)
    (decoded : String.fromUTF8? content = some text) :
    let name := reportedName path
    let parsed := readText {} name text
    runFile flags durations alarm path content = conclude alarm parsed text
      ((printed (linesBefore flags durations (Cursor.ofText name text).tokens
            (readText { trace := true } name text).trace)).toUTF8 ++
          (result parsed text).toUTF8 ++
          (printed (linesAfter flags durations parsed.diagnostics)).toUTF8) := by
  simp only [runFile, decoded]
  rw [fileOutput_eq, toUTF8_append, toUTF8_append, readText_options]
  rfl

theorem runFile_plain (durations : Durations) (alarm : String)
    (decoded : String.fromUTF8? content = some text) :
    let parsed := readText {} (reportedName path) text
    runFile [] durations alarm path content =
      conclude alarm parsed text (result parsed text).toUTF8 := by
  rw [runFile_eq [] durations alarm decoded]
  simp [linesBefore, linesAfter, printed]

end

/-- A run on a file that can be read is the run without flags and what the flags add: lines before
the result for the tokens, the times and the trace, and one behind it for the whole time if nothing
was at fault. Neither the code nor the result depends on them. The result is the canonical text, or
the reports of all faults by the name behind the last slash of the path; but the first report that
cannot be written ends the run with a panic, behind the reports before it. -/
theorem perform_flags {path text : String} {content : ByteArray} (surroundings : Surroundings)
    (other : Durations) (found : surroundings.fetch path = .ok content)
    (decoded : String.fromUTF8? content = some text) :
    ∃ name tokens, EndsWith path name ∧
      (∀ tree : FileTree, surroundings.fetch = tree.read → name ∉ ["", ".", ".."]) ∧
      (Cursor.ofText name text).Drains tokens ∧
      let parsed := readText {} name text
      let traced := readText { trace := true } name text
      let plain := perform { surroundings with durations := other } ⟨[], some path⟩
      (∀ diagnostic ∈ parsed.diagnostics, diagnostic.file = name) ∧
      ((∀ diagnostic ∈ parsed.diagnostics, diagnostic.fits text) →
        plain = ⟨if parsed.diagnostics = [] then 0 else 1,
          (if parsed.diagnostics = [] then renderAll parsed.program ++ "\n"
            else String.join (parsed.diagnostics.map (·.report text))).toUTF8, ""⟩) ∧
      (∀ before diagnostic after, parsed.diagnostics = before ++ diagnostic :: after →
        (∀ earlier ∈ before, earlier.fits text) → diagnostic.fits text = false →
        plain = ⟨101, (String.join (before.map (·.report text))).toUTF8, surroundings.alarm⟩) ∧
      ∀ flags, perform surroundings ⟨flags, some path⟩ = ⟨plain.code,
        (printed (linesBefore flags surroundings.durations tokens traced.trace)).toUTF8 ++
          plain.output ++
          (printed (linesAfter flags surroundings.durations parsed.diagnostics)).toUTF8,
        plain.errors⟩ := by
  have performed (flags : List Flag) (durations : Durations) :
      perform { surroundings with durations } ⟨flags, some path⟩ =
        runFile flags durations surroundings.alarm path content := by
    simp only [perform, found]
  have plain := (performed [] other).trans (runFile_plain other surroundings.alarm decoded)
  refine ⟨reportedName path, (Cursor.ofText (reportedName path) text).tokens,
    endsWith_reportedName path, fun tree same => ?_, Cursor.drains_tokens _,
    fun _ => file_of_diagnostic, fun fit => ?_, fun before diagnostic after same fit wide => ?_,
    fun flags => ?_⟩
  · rw [same] at found
    exact FileTree.reportedName_of_read found
  · rw [plain, result, conclude, reports_of_fit fit]
    simp only [List.isEmpty_iff, if_true]
    split <;> rfl
  · have some : before ++ diagnostic :: after ≠ [] := by simp
    rw [plain, result, conclude, same, reports_of_wide fit wide]
    simp only [List.isEmpty_iff, some, if_false, Bool.false_eq_true, panicCode]
  · rw [plain, output_conclude]
    exact ((performed flags surroundings.durations).trans
      (runFile_eq flags surroundings.durations surroundings.alarm decoded)).trans
      (conclude_output ..)

set_option maxRecDepth 20000 in
/-- All three flags on a text that is at fault in its second line. -/
theorem perform_flags_all :
    let tree := FileTree.ofList [("sub/x.monkey", "y;\n  )".toUTF8)]
    let surroundings : Surroundings :=
      { fetch := tree.read, input := .empty, user := none, durations := ⟨"1ms", "2ms", "4ms"⟩ }
    tree.read "sub/x.monkey" = .ok "y;\n  )".toUTF8 ∧
    String.fromUTF8? "y;\n  )".toUTF8 = some "y;\n  )" ∧
    perform surroundings ⟨[.timings, .trace, .tokens], some "sub/x.monkey"⟩ = ⟨1,
      ("IDENT (y)\n" ++ "SEMICOLON ()\n" ++ "RPAREN ()\n" ++ "EOF ()\n" ++ "Tokenized in 1ms\n" ++
        "Parsed in 2ms\n" ++
        "BEGIN parse_expression_statement\n" ++ "\tBEGIN parse_expression\n" ++
        "\tEND parse_expression\n" ++ "END parse_expression_statement\n" ++
        "BEGIN parse_expression_statement\n" ++ "\tBEGIN parse_expression\n" ++
        "\tEND parse_expression\n" ++ "END parse_expression_statement\n" ++
        "Error: NoPrefixParseFn (An expression cannot start with RPAREN)\n" ++ "-> x.monkey\n" ++
        "  |\n" ++ "2 | )\n" ++ "  | ^\n").toUTF8, ""⟩ := by
  intro tree surroundings
  have found : tree.read "sub/x.monkey" = .ok "y;\n  )".toUTF8 := by
    rw [FileTree.read, show "sub/x.monkey".startsWith "/" = false by decide +kernel]
    rfl
  have decoded : String.fromUTF8? "y;\n  )".toUTF8 = some "y;\n  )" := fromUTF8?_toUTF8 _
  refine ⟨found, decoded, ?_⟩
  obtain ⟨name, tokens, ends, _, drains, _, plain, _, added⟩ :=
    perform_flags surroundings ⟨"", "", ""⟩ found decoded
  obtain rfl : name = "x.monkey" := EndsWith.unique ends (endsWith_reportedName "sub/x.monkey")
  have faults : (readText {} "x.monkey" "y;\n  )").diagnostics =
      [⟨.noStart .rparen, "x.monkey", 5⟩] := rfl
  simp only [faults] at plain added
  rw [added, plain (by decide), ← drains.tokens]
  simp only [reduceCtorEq, if_false, ← toUTF8_append]
  exact congrArg (fun text : String => (⟨1, text.toUTF8, ""⟩ : Exit)) (by decide +kernel)

/-- A word of so many letters and, directly behind it, a character that is not recognized. -/
def longLine (count : Nat) : String := String.ofList (List.replicate count 'a' ++ ['@'])

theorem illegal_mem_longLine (file : String) {count : Nat} (some : count ≠ 0) :
    ⟨.illegal, "@", file, count, count + 1⟩ ∈ (Cursor.ofText file (longLine count)).tokens := by
  have word : Spells _ (List.replicate count 'a') := .word (by simpa using some) fun c member => by
    rw [List.eq_of_mem_replicate member]
    decide
  have ends : Ends (List.replicate count 'a') ['@'] := by
    rintro c ⟨⟩ (⟨-, letter⟩ | ⟨-, digit⟩ | ⟨-, equal⟩)
    · exact absurd letter (by decide)
    · exact absurd digit (by decide)
    · exact absurd equal (by decide)
  have single : Spells .illegal ['@'] := .illegal (by decide) (by decide) (by decide) (by decide)
  have first : (⟨file, 0, [] ++ (List.replicate count 'a' ++ ['@'])⟩ : Cursor).tokens = _ :=
    Cursor.tokens_of_lexeme nofun word ends
  have second : (⟨file, count, [] ++ (['@'] ++ [])⟩ : Cursor).tokens = _ :=
    Cursor.tokens_of_lexeme nofun single nofun
  simp only [List.nil_append, List.length_nil, Nat.add_zero, Nat.zero_add, List.length_replicate]
    at first
  rw [Cursor.ofText, longLine, String.toList_ofList, first]
  refine .tail _ ?_
  rw [show ['@'] = [] ++ (['@'] ++ []) from rfl, second]
  exact .head _

theorem not_fits_longLine {diagnostic : Diagnostic} {count : Nat} (far : 65535 ≤ count)
    (there : diagnostic.offset = count) : diagnostic.fits (longLine count) = false := by
  have plain : ∀ c ∈ List.replicate count 'a', (c == '\n') = false := by
    intro c member
    rw [List.eq_of_mem_replicate member]
    decide
  have placed : Text.place? (longLine count).toList diagnostic.offset =
      some ⟨1, List.replicate count 'a' ++ ['@'], count⟩ := by
    rw [longLine, String.toList_ofList, Text.place?, Text.lines,
      Text.piecesAfter_final plain (by decide), there]
    simp [Text.placeAmong]
  obtain ⟨more, rfl⟩ : ∃ more, count = more + 1 := ⟨count - 1, by omega⟩
  rw [Diagnostic.fits, placed, Option.all_some, decide_eq_false_iff_not, Diagnostic.hyphens,
    List.replicate_succ, List.cons_append, List.takeWhile_cons_of_neg (by decide)]
  simp only [Diagnostic.widestField, List.length_nil]
  omega

theorem perform_code_of_wide {surroundings : Surroundings} {path text : String}
    {diagnostic : Diagnostic} (found : surroundings.fetch path = .ok text.toUTF8)
    (member : diagnostic ∈ (readText {} (reportedName path) text).diagnostics)
    (wide : diagnostic.fits text = false) : (perform surroundings ⟨[], some path⟩).code = 101 := by
  have faulty := List.ne_nil_of_mem member
  have panics : ¬ (reports text (readText {} (reportedName path) text).diagnostics).2 = true :=
    fun all => absurd (reports_snd.mp all diagnostic member) (Bool.eq_false_iff.mp wide)
  simp only [perform, found]
  rw [runFile_plain _ _ (fromUTF8?_toUTF8 text), conclude, if_neg (by simpa using faulty),
    if_neg panics, panicCode]

/-- A run on a file that can be read may end with a code of its own: of a fault that is too far to
the right there is no report, and the run ends with a panic. -/
theorem not_forall_perform_code : ¬ ∀ (surroundings : Surroundings) (path text : String),
    surroundings.fetch path = .ok text.toUTF8 →
    (perform surroundings ⟨[], some path⟩).code =
      if (readText {} (reportedName path) text).diagnostics = [] then 0 else 1 := by
  intro claimed
  obtain ⟨diagnostic, member, there⟩ := exists_diagnostic_of_illegal
    (illegal_mem_longLine (reportedName "x.monkey") (Nat.succ_ne_zero 65534)) rfl
  have wide := not_fits_longLine (Nat.le_refl 65535) there
  let surroundings : Surroundings :=
    { fetch := fun _ => .ok (longLine 65535).toUTF8, input := .empty, user := none,
      durations := ⟨"", "", ""⟩ }
  have told := claimed surroundings "x.monkey" (longLine 65535) rfl
  rw [perform_code_of_wide rfl member wide, if_neg (List.ne_nil_of_mem member)] at told
  cases told

end MonkeySyntax.Shell
