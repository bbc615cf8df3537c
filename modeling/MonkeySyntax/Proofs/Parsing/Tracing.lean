import Mathlib.Data.List.Forall2
import MonkeySyntax.Proofs.Parsing.Depth
import MonkeySyntax.Proofs.Parsing.Driving

/-! A trace is kept beside a parser and never asked. Whatever commands a parser is given, in
whatever order, one that keeps no trace follows one that does: it returns when the other returns,
gives the same replies, and stands at the same place with the same diagnostics and the same grammar
after each command. So what is read of a text is the same but for the trace itself. -/
namespace MonkeySyntax.Parser

/-- Each of the commands returns, with these replies and these states behind them. -/
inductive Runs : Parser → List Command → List (Reply × Parser) → Prop
  | nil {parser : Parser} : Runs parser [] []
  | cons {before after : Parser} {command : Command} {commands : List Command} {reply : Reply}
      {steps : List (Reply × Parser)} : before.Performs command reply after →
      Runs after commands steps → Runs before (command :: commands) ((reply, after) :: steps)

/-- What a command comes to with a trace and without one. -/
structure Untraced (traced untraced : Reply × Parser) : Prop where
  reply : untraced.1 = traced.1
  window : untraced.2.window = traced.2.window
  diagnostics : untraced.2.diagnostics = traced.2.diagnostics
  grammar : untraced.2.grammar = traced.2.grammar
  log : untraced.2.trace.log = #[]

theorem Retraced.symm {one other : Parser} (same : one.Retraced other) : other.Retraced one := by
  obtain ⟨_, _, rfl⟩ := same
  exact ⟨one.trace, one.options.trace, rfl⟩

theorem retraced_start (traced traced' : Bool) (limit : Nat) (cursor : Cursor) :
    (start ⟨traced, limit⟩ cursor).Retraced (start ⟨traced', limit⟩ cursor) :=
  ⟨_, traced', rfl⟩

/-- A trace that is not kept is not touched. -/
theorem keeps_silent :
    KeptBySteps fun before after => before.trace.enabled = false → after.trace = before.trace where
  refl _ _ := rfl
  trans here there off := by
    have same := here off
    rw [there (by rwa [same]), same]
  advance _ _ := rfl
  drop _ _ := rfl
  reportAt _ _ _ _ := rfl
  traced label _ _ inside off := by
    have entered := Trace.enter_of_disabled off label
    have same := (inside (by rwa [enter, entered])).trans entered
    rw [leave, same, Trace.leave_of_disabled off]
  nested inside off := inside off

theorem Performs.silent {before after : Parser} {command : Command} {reply : Reply}
    (performs : before.Performs command reply after) (off : before.trace.enabled = false) :
    after.trace = before.trace := by
  obtain ⟨-, same⟩ | ⟨_, -, rfl⟩ := performs.keeps keeps_silent
  · exact same off
  · rfl

theorem answer_related {S : Parser → Parser → Prop} {tell : Option α → Reply}
    {outcome outcome' : Outcome α} {reply : Reply} {after : Parser}
    (follows : outcome.Follows S outcome') (told : answer tell outcome = some (reply, after)) :
    ∃ after', answer tell outcome' = some (reply, after') ∧ S after after' := by
  cases follows with
  | built related =>
    cases told
    exact ⟨_, rfl, related⟩
  | abandoned related =>
    cases told
    exact ⟨_, rfl, related⟩
  | unfinished => cases told

theorem Retraced.expect {one other : Parser} (same : one.Retraced other) (kind : Kind) :
    (other.expect kind).1 = (one.expect kind).1 ∧
      (one.expect kind).2.Retraced (other.expect kind).2 := by
  obtain ⟨trace, traced, rfl⟩ := same
  by_cases met : one.ahead.kind = kind
  · simp only [Parser.expect, met, if_true]
    exact ⟨trivial, trace, traced, rfl⟩
  · simp only [Parser.expect, met, if_false]
    exact ⟨trivial, trace, traced, rfl⟩

theorem Performs.retraced {one other after : Parser} {command : Command} {reply : Reply}
    (performs : one.Performs command reply after) (same : one.Retraced other) :
    ∃ after', other.Performs command reply after' ∧ after.Retraced after' := by
  obtain ⟨bound, run⟩ := performs
  rw [Command.on] at run
  -- A command either has a phrase read or is carried out at once.
  split at run
  · next form phrase tell reading =>
    have follows := simulation_retraced.within (Nat.le_refl bound) phrase one other same
    obtain ⟨after', told, related⟩ := answer_related follows run
    exact ⟨after', ⟨bound, by rwa [Command.on, reading]⟩, related⟩
  · next reading =>
    suffices ∃ after', other.perform command = some (reply, after') ∧ after.Retraced after' by
      obtain ⟨after', told, related⟩ := this
      exact ⟨after', performs_of_perform told, related⟩
    cases command with
    | expect kind =>
      cases run
      obtain ⟨met, related⟩ := same.expect kind
      exact ⟨_, by rw [perform, met], related⟩
    | advance | report | setStart | setContinuation | setStatement =>
      cases run
      obtain ⟨trace, traced, rfl⟩ := same
      exact ⟨_, rfl, trace, traced, rfl⟩
    | program | block | expression | start | extend | statement => cases reading

theorem Runs.retraced {one other : Parser} {commands : List Command} {steps : List (Reply × Parser)}
    (runs : one.Runs commands steps) (same : one.Retraced other) :
    ∃ steps', other.Runs commands steps' := by
  induction runs generalizing other with
  | nil => exact ⟨[], .nil⟩
  | cons performs _ ih =>
    obtain ⟨after', performs', related⟩ := performs.retraced same
    obtain ⟨steps', runs'⟩ := ih related
    exact ⟨_, .cons performs' runs'⟩

theorem Untraced.of_retraced {one other : Parser} {reply : Reply} (same : one.Retraced other)
    (empty : other.trace.log = #[]) : Untraced (reply, one) (reply, other) := by
  obtain ⟨_, _, rfl⟩ := same
  exact ⟨rfl, rfl, rfl, rfl, empty⟩

theorem Runs.untraced {one other : Parser} {commands : List Command}
    {steps steps' : List (Reply × Parser)} (runs : one.Runs commands steps)
    (runs' : other.Runs commands steps') (same : one.Retraced other)
    (off : other.trace.enabled = false) (empty : other.trace.log = #[]) :
    List.Forall₂ Untraced steps steps' := by
  induction runs generalizing other steps' with
  | nil =>
    cases runs'
    exact .nil
  | cons performs _ ih =>
    obtain _ | ⟨performs', runs'⟩ := runs'
    obtain ⟨_, performed, related⟩ := performs.retraced same
    cases performed.unique performs'
    have silent := performs'.silent off
    have still := (congrArg Trace.log silent).trans empty
    exact .cons (.of_retraced related still) (ih runs' related (by rw [silent, off]) still)

/-- Tracing does not interfere. Whatever a parser is told to do, it returns with a trace exactly
when it returns without one. After each command the replies, the windows, the diagnostics and the
grammars are equal, and the log of the trace that is not kept is empty. -/
theorem runs_untraced (limit : Nat) (file text : String) (commands : List Command) :
    ((∃ steps, (start ⟨true, limit⟩ (.ofText file text)).Runs commands steps) ↔
      ∃ steps, (start ⟨false, limit⟩ (.ofText file text)).Runs commands steps) ∧
    ∀ steps steps', (start ⟨true, limit⟩ (.ofText file text)).Runs commands steps →
      (start ⟨false, limit⟩ (.ofText file text)).Runs commands steps' →
      List.Forall₂ Untraced steps steps' := by
  have same := retraced_start true false limit (.ofText file text)
  refine ⟨⟨?_, ?_⟩, fun steps steps' runs runs' => runs.untraced runs' same rfl rfl⟩
  · rintro ⟨steps, runs⟩
    exact runs.retraced same
  · rintro ⟨steps, runs⟩
    exact runs.retraced same.symm

set_option maxRecDepth 20000 in
/-- A rule is run on a token that it is not for, a rule is registered, and the rest is read. -/
theorem runs_untraced_registered :
    ∃ steps steps',
      (start ⟨true, 2⟩ (.ofText "f" "let -1; 2 )")).Runs
        [.start .conditional, .setContinuation .int .sum .call, .expect .minus, .program] steps ∧
      (start ⟨false, 2⟩ (.ofText "f" "let -1; 2 )")).Runs
        [.start .conditional, .setContinuation .int .sum .call, .expect .minus, .program] steps' ∧
      List.Forall₂ Untraced steps steps' ∧
      steps.map (·.2.trace.log.size) = [0, 0, 0, 20] ∧
      steps'.map (·.2.diagnostics.size) = [1, 1, 1, 2] := by
  have traced : (start ⟨true, 2⟩ (.ofText "f" "let -1; 2 )")).Runs
      [.start .conditional, .setContinuation .int .sum .call, .expect .minus, .program] _ :=
    .cons (performs_of_perform rfl) <| .cons (performs_of_perform rfl) <|
      .cons (performs_of_perform rfl) <| .cons (performs_of_perform rfl) .nil
  have untraced : (start ⟨false, 2⟩ (.ofText "f" "let -1; 2 )")).Runs
      [.start .conditional, .setContinuation .int .sum .call, .expect .minus, .program] _ :=
    .cons (performs_of_perform rfl) <| .cons (performs_of_perform rfl) <|
      .cons (performs_of_perform rfl) <| .cons (performs_of_perform rfl) .nil
  exact ⟨_, _, traced, untraced, (runs_untraced _ _ _ _).2 _ _ traced untraced, rfl, rfl⟩

end MonkeySyntax.Parser

namespace MonkeySyntax

/-- A parser that keeps no trace has none to show. -/
theorem readText_silent (limit : Nat) (file text : String) :
    (readText ⟨false, limit⟩ file text).trace = [] := by
  let start := Parser.start ⟨false, limit⟩ (.ofText file text)
  obtain ⟨program, after, run, _⟩ :=
    Parser.readProgram_finishes Grammar.grounded_standard (Parser.settled_start ⟨false, limit⟩ _)
  have ends : start.readProgram.EndsIn after := by
    rw [run]
    exact .built
  have silent := ends.holds
    (Parts.keeps_within Parser.keeps_silent start.bound (.statements .program) start)
  rw [readText_of_built run]
  exact congrArg (·.log.toList) (silent rfl)

/-- Whether a trace is asked for decides about the trace alone. -/
theorem readText_traced (traced : Bool) (limit : Nat) (file text : String) :
    readText ⟨traced, limit⟩ file text =
      { readText ⟨false, limit⟩ file text with
        trace := if traced then (readText ⟨true, limit⟩ file text).trace else [] } := by
  cases traced with
  | false => rw [if_neg Bool.false_ne_true, ← readText_silent limit file text]
  | true =>
    obtain ⟨program, diagnostics⟩ := readText_retraced true false limit file text
    simp only [if_true, ← program, ← diagnostics]

end MonkeySyntax
