import MonkeySyntax.Console.Conversation
import MonkeySyntax.Proofs.Text.Lines

/-! What a session shows. Nothing is carried from one line to the next, so a session on lines and
then more input shows what each line comes to by itself and then what a session on the rest shows.
A line that takes leave, or that is not text, ends the session, whatever follows it. -/
namespace MonkeySyntax

theorem toUTF8_append (text more : String) : (text ++ more).toUTF8 = text.toUTF8 ++ more.toUTF8 :=
  String.toByteArray_append

theorem fromUTF8?_toUTF8 (text : String) : String.fromUTF8? text.toUTF8 = some text :=
  dif_pos text.isValidUTF8

theorem Sink.writeEach_unlimited (texts : List String) (written : ByteArray) :
    (Sink.mk none written).writeEach texts =
      (true, ⟨none, written ++ (String.join texts).toUTF8⟩) := by
  induction texts generalizing written with
  | nil => simp [writeEach]
  | cons text rest ih =>
    simp only [writeEach, write_unlimited, ih, String.join_cons, toUTF8_append,
      ByteArray.append_assoc]

namespace Console

open Text

/-- Every line of the input is ended by a line feed. -/
def Ended (input : ByteArray) : Prop :=
  input.data.toList = [] ∨ input.data.toList.getLast? = some lineFeed

/-- What is shown for a line for which the session stays: the prompt, the trace, and the canonical
text or else a message for each fault. -/
def exchange (options : Options) (line : String) : String :=
  let parsed := readText options Cursor.defaultFile line
  prompt ++ String.join (parsed.trace.map (· ++ "\n")) ++
    if parsed.diagnostics = [] then renderAll parsed.program ++ "\n"
    else face ++ "Woops! We ran into some monkey business here!\n" ++ " parser errors:\n" ++
      String.join (parsed.diagnostics.map fun d => "\t" ++ d.fault.message ++ "\n")

def transcript (options : Options) (lines : List String) : String :=
  String.join (lines.map (exchange options))

theorem exchange_eq (options : Options) (line : String) :
    exchange options line = prompt ++ String.join (answer options line) := by
  simp only [exchange, answer, traceLines, complaint, List.isEmpty_iff, String.join_append,
    String.append_assoc]
  split
  · rw [String.join_cons, String.join_nil, String.append_empty]
  · simp only [String.join_cons]

theorem linesOf_append {first : ByteArray} (ended : Ended first) (rest : ByteArray) :
    linesOf (first ++ rest) = linesOf first ++ linesOf rest := by
  rw [linesOf, ByteArray.data_append, Array.toList_append]
  rcases ended with none | last
  · simp [linesOf, none, piecesAfter]
  · obtain ⟨front, all⟩ := List.getLast?_eq_some_iff.mp last
    rw [linesOf, linesOf, all, piecesAfter_append rfl, List.map_append]

section

variable {options : Options}

theorem turn_toUTF8 (line : String) :
    turn options line.toUTF8 =
      if isFarewell line then .finished else .answered (answer options line) := by
  rw [turn, fromUTF8?_toUTF8]

theorem converse_nil (written : ByteArray) :
    converse options [] ⟨none, written⟩ = (none, ⟨none, written ++ prompt.toUTF8⟩) := rfl

theorem converse_cons (line : ByteArray) (rest : List ByteArray) (written : ByteArray) :
    converse options (line :: rest) ⟨none, written⟩ =
      match turn options line with
      | .undecodable => (some .undecodable, ⟨none, written ++ prompt.toUTF8⟩)
      | .finished => (none, ⟨none, written ++ (prompt ++ farewell).toUTF8⟩)
      | .answered texts =>
        converse options rest ⟨none, written ++ (prompt ++ String.join texts).toUTF8⟩ := by
  cases taken : turn options line <;>
    simp only [converse, taken, Sink.write_unlimited, Sink.writeEach_unlimited, toUTF8_append,
      ByteArray.append_assoc]

/-- Lines for which the session stays are shown one after the other. -/
theorem converse_lines {lines : List String} (stays : ∀ line ∈ lines, isFarewell line = false)
    (rest : List ByteArray) (written : ByteArray) :
    converse options (lines.map String.toUTF8 ++ rest) ⟨none, written⟩ =
      converse options rest ⟨none, written ++ (transcript options lines).toUTF8⟩ := by
  induction lines generalizing written with
  | nil => simp [transcript]
  | cons line lines ih =>
    have here : turn options line.toUTF8 = .answered (answer options line) := by
      rw [turn_toUTF8, stays line (.head _)]
      rfl
    rw [List.map_cons, List.cons_append, converse_cons, here]
    simp only [ih fun other member => stays other (.tail _ member), ← exchange_eq, transcript,
      List.map_cons, String.join_cons, toUTF8_append, ByteArray.append_assoc]

/-- What has been shown before does not matter to what follows. -/
theorem converse_written (lines : List ByteArray) (written : ByteArray) :
    converse options lines ⟨none, written⟩ =
      ((converse options lines (.empty none)).1,
        ⟨none, written ++ (converse options lines (.empty none)).2.written⟩) := by
  have empty : Sink.empty none = ⟨none, .empty⟩ := rfl
  induction lines generalizing written with
  | nil => simp [empty, converse_nil]
  | cons line rest ih =>
    rw [empty, converse_cons, converse_cons]
    cases turn options line with
    | undecodable => simp
    | finished => simp
    | answered texts =>
      simp only [ih (written ++ _), ih (prompt ++ String.join texts).toUTF8,
        ByteArray.empty_append, ByteArray.append_assoc]

end

/-- A session on lines for which it stays shows their transcript, then a prompt, and is not at
fault. More input only adds what a session on it alone shows, and its result. But behind a line that
takes leave, and behind one that is not text, more input adds nothing. -/
theorem run_lines (options : Options) {first : ByteArray} {lines : List String}
    (ended : Ended first) (decoded : linesOf first = lines.map String.toUTF8)
    (stays : ∀ line ∈ lines, isFarewell line = false) :
    run options first (.empty none) =
      (none, ⟨none, (transcript options lines ++ prompt).toUTF8⟩) ∧
    (∀ rest, run options (first ++ rest) (.empty none) =
      ((run options rest (.empty none)).1,
        ⟨none, (transcript options lines).toUTF8 ++
          (run options rest (.empty none)).2.written⟩)) ∧
    ∀ last rest, Ended last → linesOf last = [last] →
      (∀ line, last = line.toUTF8 → isFarewell line →
        run options (first ++ last ++ rest) (.empty none) =
          (none, ⟨none, (transcript options lines ++ prompt ++ farewell).toUTF8⟩)) ∧
      (String.fromUTF8? last = none →
        run options (first ++ last ++ rest) (.empty none) =
          (some .undecodable, ⟨none, (transcript options lines ++ prompt).toUTF8⟩)) := by
  have shown (more : List ByteArray) :
      converse options (lines.map String.toUTF8 ++ more) (.empty none) =
        converse options more ⟨none, (transcript options lines).toUTF8⟩ := by
    rw [Sink.empty, converse_lines stays, ByteArray.empty_append]
  refine ⟨?_, fun rest => ?_, fun last rest ended' line =>
    ⟨fun text same leaves => ?_, fun bad => ?_⟩⟩
  · have alone := shown []
    rw [List.append_nil, converse_nil, ← decoded] at alone
    rw [run, alone, toUTF8_append]
  · rw [run, linesOf_append ended, decoded, shown, converse_written]
    rfl
  · rw [run, ByteArray.append_assoc, linesOf_append ended, linesOf_append ended', line, decoded,
      shown, List.singleton_append, converse_cons, same, turn_toUTF8, if_pos leaves]
    simp [ByteArray.append_assoc]
  · rw [run, ByteArray.append_assoc, linesOf_append ended, linesOf_append ended', line, decoded,
      shown, List.singleton_append, converse_cons, turn, bad]
    simp

set_option maxRecDepth 20000 in
/-- A line at fault is answered and the session goes on, until it is told to end. -/
theorem run_lines_faulty :
    Ended "let 1;\nx\n".toUTF8 ∧
    linesOf "let 1;\nx\n".toUTF8 = ["let 1;\n", "x\n"].map String.toUTF8 ∧
    run {} ("let 1;\nx\n".toUTF8 ++ "\tquit \n".toUTF8 ++ ⟨#[255]⟩) (.empty none) =
      (none, ⟨none, (">> " ++ face ++ "Woops! We ran into some monkey business here!\n" ++
        " parser errors:\n" ++ "\texpected next token to be IDENT, got INT instead\n" ++
        ">> x\n" ++ ">> Exiting...\n").toUTF8⟩) := by
  have ended : Ended "let 1;\nx\n".toUTF8 := .inr (by decide +kernel)
  have ended' : Ended "\tquit \n".toUTF8 := .inr (by decide +kernel)
  have decoded : linesOf "let 1;\nx\n".toUTF8 = ["let 1;\n", "x\n"].map String.toUTF8 := by
    decide +kernel
  have stays : ∀ line ∈ ["let 1;\n", "x\n"], isFarewell line = false := by decide +kernel
  have session := run_lines {} ended decoded stays
  refine ⟨ended, decoded, ?_⟩
  rw [(session.2.2 _ ⟨#[255]⟩ ended' (by decide +kernel)).1 "\tquit \n" rfl (by decide +kernel)]
  rfl

end Console

end MonkeySyntax
