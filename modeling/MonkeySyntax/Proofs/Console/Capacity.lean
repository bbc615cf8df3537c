import MonkeySyntax.Proofs.Console.Transcript

/-! Sessions with an output that fills up. The lines alone settle what a session writes, in which
order, and how it ends; an output only decides how much of that is written. So an output of limited
capacity shows as many bytes as it has room for of what is shown without a limit, and a session that
writes more ends there. -/
namespace MonkeySyntax

theorem extract_append_of_le {bytes : ByteArray} {count : Nat} (le : count ≤ bytes.size)
    (more : ByteArray) : (bytes ++ more).extract 0 count = bytes.extract 0 count := by
  rw [ByteArray.extract_append, Nat.zero_sub, Nat.sub_eq_zero_of_le le, ByteArray.extract_same,
    ByteArray.append_empty]

theorem extract_of_size_le {bytes : ByteArray} {count : Nat} (le : bytes.size ≤ count) :
    bytes.extract 0 count = bytes := by
  have whole := ByteArray.extract_zero_max_size (a := bytes) (i := count)
  rwa [Nat.max_eq_left le] at whole

namespace Sink

/-- Texts are taken as one, up to the byte at which the sink is full. -/
theorem writeEach_limited (texts : List String) {capacity : Nat} {written : ByteArray}
    (fits : written.size ≤ capacity) :
    (Sink.mk (some capacity) written).writeEach texts =
      (decide ((written ++ (String.join texts).toUTF8).size ≤ capacity),
        ⟨some capacity, (written ++ (String.join texts).toUTF8).extract 0 capacity⟩) := by
  induction texts generalizing written with
  | nil =>
    have nothing : written ++ (String.join []).toUTF8 = written := ByteArray.append_empty
    rw [nothing, decide_eq_true fits, extract_of_size_le fits]
    rfl
  | cons text rest ih =>
    rw [String.join_cons, toUTF8_append, ← ByteArray.append_assoc]
    by_cases room : (written ++ text.toUTF8).size ≤ capacity
    · simp only [writeEach, write, room, decide_true, extract_of_size_le room, ih room]
    · -- The sink is full within this text, so it takes nothing of the rest.
      have full := Nat.le_of_not_le room
      have excess : ¬ (written ++ text.toUTF8 ++ (String.join rest).toUTF8).size ≤ capacity := by
        rw [ByteArray.size_append]
        omega
      simp only [writeEach, write, room, excess, decide_false, extract_append_of_le full]

end Sink

namespace Console

/-- What a session on the lines writes, text by text, and how it ends if all of it is taken. -/
def script (options : Options) : List ByteArray → List String × Option Failure
  | [] => ([prompt], none)
  | line :: rest =>
    match turn options line with
    | .undecodable => ([prompt], some .undecodable)
    | .finished => ([prompt, farewell], none)
    | .answered texts =>
      (prompt :: (texts ++ (script options rest).1), (script options rest).2)

/-- Writes the texts to the sink, and ends at the first one that is refused. -/
def play (script : List String × Option Failure) (sink : Sink) : Option Failure × Sink :=
  match sink.writeEach script.1 with
  | (true, after) => (script.2, after)
  | (false, after) => (some .full, after)

section

variable (result : Option Failure) (sink : Sink)

theorem play_cons (text : String) (texts : List String) :
    play (text :: texts, result) sink =
      match sink.write text with
      | (true, after) => play (texts, result) after
      | (false, after) => (some .full, after) := by
  rw [play, Sink.writeEach]
  rcases sink.write text with ⟨_ | _, after⟩ <;> rfl

theorem play_append (texts more : List String) :
    play (texts ++ more, result) sink =
      match sink.writeEach texts with
      | (true, after) => play (more, result) after
      | (false, after) => (some .full, after) := by
  induction texts generalizing sink with
  | nil => rfl
  | cons text rest ih =>
    rw [List.cons_append, play_cons, Sink.writeEach]
    rcases sink.write text with ⟨_ | _, after⟩
    · rfl
    · exact ih after

end

/-- Whatever the output, a session writes its script to it. -/
theorem converse_eq_play (options : Options) (lines : List ByteArray) (sink : Sink) :
    converse options lines sink = play (script options lines) sink := by
  induction lines generalizing sink with
  | nil =>
    rw [converse, script, play_cons]
    rfl
  | cons line rest ih =>
    rw [converse, script]
    -- An output that refuses the prompt ends the session before the line is looked at.
    cases turn options line with
    | undecodable =>
      rw [play_cons]
      rcases sink.write prompt with ⟨_ | _, prompted⟩ <;> rfl
    | finished =>
      rw [play_cons]
      rcases sink.write prompt with ⟨_ | _, prompted⟩
      · rfl
      · exact (play_cons none prompted farewell []).symm
    | answered texts =>
      rw [play_cons]
      rcases sink.write prompt with ⟨_ | _, prompted⟩
      · rfl
      · simp only [ih]
        exact (play_append (script options rest).2 prompted texts _).symm

/-- An output without a limit shows the whole script. -/
theorem play_unlimited (script : List String × Option Failure) :
    play script (.empty none) = (script.2, ⟨none, (String.join script.1).toUTF8⟩) := by
  rw [play, Sink.empty, Sink.writeEach_unlimited, ByteArray.empty_append]

theorem play_limited (script : List String × Option Failure) (capacity : Nat) :
    play script (.empty (some capacity)) =
      if (String.join script.1).toUTF8.size ≤ capacity then
        (script.2, ⟨some capacity, (String.join script.1).toUTF8⟩)
      else (some .full, ⟨some capacity, (String.join script.1).toUTF8.extract 0 capacity⟩) := by
  rw [play, Sink.empty, Sink.writeEach_limited _ (Nat.zero_le _), ByteArray.empty_append]
  by_cases room : (String.join script.1).toUTF8.size ≤ capacity
  · simp only [room, decide_true, if_true, extract_of_size_le room]
  · simp only [room, decide_false, if_false]

/-- With room for so many bytes a session shows that many of the bytes that it shows without a
limit. If these are all, it ends as it does without a limit, and otherwise the write that does not
fit is its fault. -/
theorem run_limited (options : Options) (input : ByteArray) (capacity : Nat) :
    ∃ result shown, run options input (.empty none) = (result, ⟨none, shown⟩) ∧
      (shown.size ≤ capacity →
        run options input (.empty (some capacity)) = (result, ⟨some capacity, shown⟩)) ∧
      (capacity < shown.size → ∃ failure, failure.name = "WriteZero" ∧
        run options input (.empty (some capacity)) =
          (some failure, ⟨some capacity, shown.extract 0 capacity⟩)) := by
  let written := script options (linesOf input)
  refine ⟨written.2, (String.join written.1).toUTF8, ?_, fun room => ?_, fun excess => ?_⟩
  · rw [run, converse_eq_play, play_unlimited]
  · rw [run, converse_eq_play, play_limited, if_pos room]
  · refine ⟨.full, rfl, ?_⟩
    rw [run, converse_eq_play, play_limited, if_neg (Nat.not_le_of_lt excess)]

/-- With room for five bytes the answer just fits and the next prompt does not; with three bytes
more the session ends as it would anyway. -/
theorem run_limited_prompt :
    ">> x\n>> ".toUTF8.size ≤ 8 ∧ 5 < ">> x\n>> ".toUTF8.size ∧
    run {} "x\n".toUTF8 (.empty none) = (none, ⟨none, ">> x\n>> ".toUTF8⟩) ∧
    run {} "x\n".toUTF8 (.empty (some 8)) = (none, ⟨some 8, ">> x\n>> ".toUTF8⟩) ∧
    ∃ failure, failure.name = "WriteZero" ∧
      run {} "x\n".toUTF8 (.empty (some 5)) = (some failure, ⟨some 5, ">> x\n".toUTF8⟩) := by
  have unlimited : run {} "x\n".toUTF8 (.empty none) = (none, ⟨none, ">> x\n>> ".toUTF8⟩) := rfl
  refine ⟨by decide, by decide, unlimited, ?_, ?_⟩
  · obtain ⟨_, _, alone, whole, -⟩ := run_limited {} "x\n".toUTF8 8
    cases unlimited.symm.trans alone
    exact whole (by decide)
  · obtain ⟨_, _, alone, -, cut⟩ := run_limited {} "x\n".toUTF8 5
    cases unlimited.symm.trans alone
    exact cut (by decide)

end Console

end MonkeySyntax
