import Mathlib.Logic.Function.Iterate
import MonkeySyntax.Proofs.Parsing.Contract
import MonkeySyntax.Proofs.Parsing.AppendOnlyDiagnostics

/-! Where a phrase leaves a parser, built or given up. A relation between the states before and
after that every primitive step keeps is kept by every phrase. One such relation says that the
window only ever moves forward over the tokens and that what a phrase begins in the trace it also
ends. -/
namespace MonkeySyntax

/-- Kept from the state before a step to any state that the step reaches. -/
structure Parser.KeptBySteps (Q : Parser → Parser → Prop) : Prop where
  refl (parser : Parser) : Q parser parser
  trans {first second third : Parser} : Q first second → Q second third → Q first third
  advance (parser : Parser) : Q parser parser.advance
  drop (parser : Parser) : Q parser parser.drop
  reportAt (token : Token) (fault : Fault) (parser : Parser) :
    Q parser (parser.reportAt token fault)
  traced (label : String) {before after : Parser} :
    Q (before.enter label) after → Q before (after.leave label)
  nested {before after : Parser} : Q before.deepen after → Q before after.surface

section

variable {Q : Parser → Parser → Prop}

/-- Wherever the run ends, it keeps the relation. -/
def Parse.Keeps (Q : Parser → Parser → Prop) (step : Parse α) : Prop :=
  ∀ before, (step before).Meets (fun _ => Q before) (Q before) True

theorem Parser.KeptBySteps.congruence (keeps : Parser.KeptBySteps Q) :
    Parse.Congruence fun step _ => step.Keeps Q where
  unfinished _ _ := trivial
  pure _ before := Parse.meets_pure.mpr (keeps.refl before)
  bind first rest before := Parse.meets_bind.mpr <| (first before).imp
    (fun value middle there => (rest value middle).imp (fun _ _ => keeps.trans there)
      fun _ => keeps.trans there)
    fun _ there => there
  view _ := keeps.refl
  advance := keeps.advance
  drop := keeps.drop
  fail fault before := Parse.meets_fail.mpr (keeps.reportAt before.current fault before)
  expect _ before := Parse.meets_expect.mpr
    ⟨fun _ => keeps.advance before, fun _ => keeps.reportAt before.ahead _ before⟩
  attempt step before := Parse.meets_attempt.mpr (step before)
  ensuring last step before := Parse.meets_ensuring.mpr <| (step before).imp
    (fun _ middle there => (last middle).imp (fun _ _ => keeps.trans there)
      fun _ => keeps.trans there)
    fun middle there => (last middle).imp (fun _ _ => keeps.trans there) fun _ => keeps.trans there
  traced label _ _ step before := Parse.meets_traced.mpr <|
    (step (before.enter label)).imp (fun _ _ => keeps.traced label) fun _ => keeps.traced label
  nested step before := Parse.meets_nested.mpr
    ⟨fun _ => (step before.deepen).imp (fun _ _ => keeps.nested) fun _ => keeps.nested,
      fun _ => keeps.reportAt before.current _ before⟩

theorem Parts.keeps_within (keeps : Parser.KeptBySteps Q) (bound : Nat) (phrase : Phrase form) :
    ((Parts.within bound).parse phrase).Keeps Q :=
  keeps.congruence.parse (keeps.congruence.within (Nat.le_refl bound)) phrase

end

theorem Window.advance_trans {first second third : Window}
    (here : ∃ count, second = advance^[count] first)
    (there : ∃ count, third = advance^[count] second) : ∃ count, third = advance^[count] first := by
  obtain ⟨count, rfl⟩ := here
  obtain ⟨more, rfl⟩ := there
  exact ⟨more + count, (Function.iterate_add_apply _ _ _ _).symm⟩

namespace Parser

theorem keeps_appendsOnly : KeptBySteps AppendsOnly where
  refl := AppendsOnly.refl
  trans := AppendsOnly.trans
  advance := appendsOnly_advance
  drop := appendsOnly_drop
  reportAt := appendsOnly_reportAt
  traced _ _ _ := AppendsOnly.traced
  nested := AppendsOnly.nested

structure MovesForward (before after : Parser) : Prop where
  window : ∃ count, after.window = Window.advance^[count] before.window
  level : after.trace.level = before.trace.level
  enabled : after.trace.enabled = before.trace.enabled

theorem level_leave {before after : Parser} {label : String}
    (moves : (before.enter label).MovesForward after) :
    (after.leave label).trace.level = before.trace.level ∧
      (after.leave label).trace.enabled = before.trace.enabled := by
  obtain ⟨_, level, enabled⟩ := moves
  simp only [enter, Trace.enter] at level enabled
  simp only [leave, Trace.leave]
  cases on : before.trace.enabled <;> simp_all

theorem keeps_movesForward : KeptBySteps MovesForward where
  refl _ := ⟨⟨0, rfl⟩, rfl, rfl⟩
  trans h k := ⟨Window.advance_trans h.window k.window, k.level.trans h.level,
    k.enabled.trans h.enabled⟩
  advance _ := ⟨⟨1, rfl⟩, rfl, rfl⟩
  drop _ := ⟨⟨0, rfl⟩, rfl, rfl⟩
  reportAt _ _ _ := ⟨⟨0, rfl⟩, rfl, rfl⟩
  traced _ _ _ h := ⟨h.window, (level_leave h).1, (level_leave h).2⟩
  nested h := ⟨h.window, h.level, h.enabled⟩

end Parser

end MonkeySyntax
