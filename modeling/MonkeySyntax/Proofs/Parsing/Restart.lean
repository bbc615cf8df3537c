import MonkeySyntax.Proofs.Parsing.Loop
import MonkeySyntax.Proofs.Scan.Shift

/-! Statements leave nothing behind but what they record. Whenever the loop that reads a program
looks whether to go on, the window is the one that opens on the text from the current token on, and
depth and trace level are those of the beginning; so the rest is read as a text of its own would be,
its offsets counted from the current token. -/
namespace MonkeySyntax

section Shift

variable (count : Nat)

def Diagnostic.shift (diagnostic : Diagnostic) : Diagnostic :=
  { diagnostic with offset := diagnostic.offset + count }

def Window.shift (window : Window) : Window :=
  ⟨window.current.shift count, window.ahead.shift count, window.cursor.shift count⟩

theorem Window.shift_advance (window : Window) :
    (window.shift count).advance = window.advance.shift count := by
  simp only [Window.shift, advance, Cursor.next_shift]

theorem Cursor.window_shift (cursor : Cursor) :
    (cursor.shift count).window = cursor.window.shift count := by
  simp only [window, Window.shift, next_shift]

end Shift

/-- The trace has these lines before those of the other. -/
structure Trace.Continues (lines : List String) (trace other : Trace) : Prop where
  enabled : trace.enabled = other.enabled
  level : trace.level = other.level
  log : trace.log.toList = lines ++ other.log.toList

namespace Trace.Continues

variable {lines : List String} {trace other : Trace}

theorem enter (h : trace.Continues lines other) (label : String) :
    (trace.enter label).Continues lines (other.enter label) := by
  unfold Trace.enter
  rw [h.enabled, h.level]
  split
  · exact ⟨rfl, rfl, by simp [h.log]⟩
  · exact h

theorem leave (h : trace.Continues lines other) (label : String) :
    (trace.leave label).Continues lines (other.leave label) := by
  unfold Trace.leave
  rw [h.enabled, h.level]
  split
  · exact ⟨rfl, rfl, by simp [h.log]⟩
  · exact h

end Trace.Continues

namespace Parser

/-- The parser stands where the other does, further on in a text, with more recorded before. -/
structure Continues (count : Nat) (earlier : List Diagnostic) (lines : List String)
    (parser other : Parser) : Prop where
  window : parser.window = other.window.shift count
  grammar : parser.grammar = other.grammar
  options : parser.options = other.options
  depth : parser.depth = other.depth
  trace : parser.trace.Continues lines other.trace
  diagnostics : parser.diagnostics.toList =
    earlier ++ other.diagnostics.toList.map (·.shift count)

section

variable {count : Nat} {earlier : List Diagnostic} {lines : List String} {parser other : Parser}

theorem Continues.reportAt (h : Continues count earlier lines parser other) (token : Token)
    (fault : Fault) : Continues count earlier lines (parser.reportAt (token.shift count) fault)
      (other.reportAt token fault) :=
  ⟨h.window, h.grammar, h.options, h.depth, h.trace, by
    simp [Parser.reportAt, h.diagnostics, Token.shift, Span.shift, Diagnostic.shift]⟩

theorem simulation_continues : Simulation (Continues count earlier lines) where
  current h := congrArg (Token.terminal ∘ Window.current) h.window
  ahead h := congrArg (Token.terminal ∘ Window.ahead) h.window
  grammar h := h.grammar
  depth h := h.depth
  limit h := congrArg Options.maxDepth h.options
  advance {parser other} h := by
    refine ⟨?_, h.grammar, h.options, h.depth, h.trace, h.diagnostics⟩
    rw [window_advance, window_advance, h.window, Window.shift_advance]
  drop h := ⟨h.window, h.grammar, h.options, h.depth, h.trace, h.diagnostics⟩
  reportCurrent {parser other} fault h := by
    have here : parser.current = other.current.shift count := congrArg Window.current h.window
    rw [here]
    exact h.reportAt other.current fault
  reportAhead {parser other} fault h := by
    have here : parser.ahead = other.ahead.shift count := congrArg Window.ahead h.window
    rw [here]
    exact h.reportAt other.ahead fault
  enter label h := ⟨h.window, h.grammar, h.options, h.depth, h.trace.enter label, h.diagnostics⟩
  leave label h := ⟨h.window, h.grammar, h.options, h.depth, h.trace.leave label, h.diagnostics⟩
  deepen h := ⟨h.window, h.grammar, h.options, congrArg (· + 1) h.depth, h.trace, h.diagnostics⟩
  surface h := ⟨h.window, h.grammar, h.options, congrArg (· - 1) h.depth, h.trace, h.diagnostics⟩

end

end Parser

/-- The cursor stands in the text at its offset. -/
def Cursor.Within (text : List Char) (cursor : Cursor) : Prop :=
  cursor.rest = text.drop cursor.offset

namespace Cursor

variable {text : List Char} {cursor : Cursor}

theorem Within.forward (within : cursor.Within text) (count : Nat) :
    (cursor.forward count).Within text := by
  rw [Within, Cursor.forward, within, List.drop_drop]

theorem Within.next (within : cursor.Within text) : cursor.next.2.Within text :=
  (within.forward _).forward _

theorem takeWhile_drop_takeWhile (p : Char → Bool) (text : List Char) :
    (text.drop (text.takeWhile p).length).takeWhile p = [] := by
  induction text with
  | nil => rfl
  | cons c text ih => by_cases here : p c <;> simp [here, ih]

/-- Blanks before a token do not matter to it. -/
theorem next_skipBlanks (cursor : Cursor) : cursor.skipBlanks.next = cursor.next := by
  have again : cursor.skipBlanks.skipBlanks = cursor.skipBlanks := by
    rw [skipBlanks, skipBlanks, Cursor.forward, Cursor.forward]
    simp [takeWhile_drop_takeWhile]
  rw [next, again, next]

/-- The window on a text from the first token on is the window on what is left of the text. -/
theorem window_eq_shift {file : String} (within : cursor.Within text) (named : cursor.file = file) :
    cursor.window = (ofText file (String.ofList
      (text.drop cursor.next.1.span.start))).window.shift cursor.next.1.span.start := by
  have here : cursor.skipBlanks = (ofText file (String.ofList
      (text.drop cursor.next.1.span.start))).shift cursor.next.1.span.start := by
    have inside : cursor.skipBlanks.rest = text.drop cursor.skipBlanks.offset := within.forward _
    rw [ofText, shift, String.toList_ofList, Nat.zero_add, ← named]
    change cursor.skipBlanks =
      ⟨cursor.file, cursor.skipBlanks.offset, text.drop cursor.skipBlanks.offset⟩
    rw [← inside]
    rfl
  rw [← window_shift, ← here, window, window, next_skipBlanks]

end Cursor

namespace Parser

/-- The window moves along the text, and opens anew at each place. -/
theorem exists_cursor {options : Options} {file text : String} {parser : Parser}
    (moves : (start options (.ofText file text)).MovesForward parser) :
    ∃ cursor : Cursor, cursor.file = file ∧ cursor.Within text.toList ∧
      parser.window = cursor.window := by
  obtain ⟨count, moved⟩ := moves.window
  rw [moved]
  clear moved
  induction count with
  | zero => exact ⟨.ofText file text, rfl, rfl, rfl⟩
  | succ count ih =>
    obtain ⟨cursor, named, within, same⟩ := ih
    refine ⟨cursor.next.2, named, within.next, ?_⟩
    rw [Function.iterate_succ_apply', same, Cursor.advance_window]

theorem Moment.continues {options : Options} {file text : String} {list : Program}
    {parser : Parser} (moment : (start options (.ofText file text)).Moment list parser) :
    parser.Continues parser.current.span.start parser.diagnostics.toList parser.trace.log.toList
      (start options (.ofText file
        (String.ofList (text.toList.drop parser.current.span.start)))) := by
  have kept := moment.kept keeps_appendsOnly
  have moves := moment.kept keeps_movesForward
  obtain ⟨cursor, named, within, same⟩ := exists_cursor moves
  have current : parser.current = cursor.next.1 := congrArg Window.current same
  refine ⟨?_, kept.grammar, kept.options, kept.depth, ⟨moves.enabled, moves.level, ?_⟩, ?_⟩
  · rw [same, current, Cursor.window_eq_shift within named]
    rfl
  · exact (List.append_nil _).symm
  · exact (List.append_nil _).symm

end Parser

/-- What is read and recorded from any moment on is what a fresh parser reads and records of the
text from the current token on, with offsets counted from there. -/
theorem readText_of_moment {options : Options} {file text : String} {list : Program}
    {parser : Parser} (moment : (Parser.start options (.ofText file text)).Moment list parser) :
    let offset := parser.current.span.start
    let whole := readText options file text
    let rest := readText options file (String.ofList (text.toList.drop offset))
    whole.program = list ++ rest.program ∧
      whole.diagnostics = parser.diagnostics.toList ++ rest.diagnostics.map (·.shift offset) ∧
      whole.trace = parser.trace.log.toList ++ rest.trace := by
  intro offset whole rest
  let fresh := Parser.start options (.ofText file (String.ofList (text.toList.drop offset)))
  have related : parser.Continues offset _ _ fresh := moment.continues
  have kept := moment.kept Parser.keeps_appendsOnly
  have settled := Parser.settled_start options (.ofText file text)
  have grounded : parser.grammar.Grounded := kept.grammar ▸ Grammar.grounded_standard
  obtain ⟨program, after, run, _⟩ := Parser.readProgram_finishes grounded (kept.settled settled)
  have all := moment.readProgram Grammar.grounded_standard settled run
  -- The two runs have the same bound, since as many characters remain.
  have cursor : parser.cursor = fresh.cursor.shift offset := congrArg Window.cursor related.window
  have same : parser.bound = fresh.bound := by
    rw [Parser.bound, Parser.bound, cursor, related.options]
    rfl
  have follows := Parser.simulation_continues.within (Nat.le_of_eq same) (.statements .program)
    parser fresh related
  change Outcome.Follows _ parser.readProgram fresh.readProgram at follows
  rw [run] at follows
  generalize fresh_run : fresh.readProgram = outcome at follows
  cases follows with
  | @built _ _ final ends =>
    have whole_eq : whole = after.parsed (list ++ program) := readText_of_built all
    have rest_eq : rest = final.parsed program := readText_of_built fresh_run
    rw [whole_eq, rest_eq]
    exact ⟨rfl, ends.diagnostics, ends.trace.log⟩

def shallow : Options := { trace := true, maxDepth := 1 }

set_option maxRecDepth 20000 in
/-- The first statement is given up at its third token, and the second is as deep as allowed. -/
theorem readText_of_moment_resumed : ∃ parser : Parser,
    (Parser.start shallow (.ofText "f" "let x 1; y")).Moment [.expression (.integer 1 "1")] parser ∧
    (readText shallow "f" "let x 1; y").program =
      [.expression (.integer 1 "1")] ++ (readText shallow "f" "y").program ∧
    (readText shallow "f" "let x 1; y").diagnostics =
      [⟨.unexpected .assign .int, "f", 6⟩] ++
        (readText shallow "f" "y").diagnostics.map (·.shift 9) ∧
    (readText shallow "f" "let x 1; y").trace =
      parser.trace.log.toList ++ (readText shallow "f" "y").trace := by
  obtain ⟨parser, moment, place, blamed⟩ : ∃ parser : Parser,
      (Parser.start shallow (.ofText "f" "let x 1; y")).Moment [.expression (.integer 1 "1")]
        parser ∧ parser.current.span.start = 9 ∧
      parser.diagnostics.toList = [⟨.unexpected .assign .int, "f", 6⟩] := by
    refine ⟨_, .built (.dropped .first (by decide) rfl) (by decide) rfl, ?_, ?_⟩
    · decide
    · rfl
  have left : String.ofList ("let x 1; y".toList.drop 9) = "y" := rfl
  obtain ⟨program, diagnostics, trace⟩ := readText_of_moment moment
  rw [place, left] at program trace
  rw [place, left, blamed] at diagnostics
  exact ⟨parser, moment, program, diagnostics, trace⟩

end MonkeySyntax
