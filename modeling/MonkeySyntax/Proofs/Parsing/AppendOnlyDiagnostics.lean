import MonkeySyntax.Proofs.Parsing.Congruence
import MonkeySyntax.Proofs.Parsing.Window

/-! What every phrase keeps, whether it is built or given up: grammar, options and depth stay, the
window stays settled, and diagnostics are only appended. Giving up is never silent: it appends at
least one diagnostic, so a run without a new one has built all that it attempted. -/
namespace MonkeySyntax

namespace Parser

theorem toList_reportAt (token : Token) (fault : Fault) (parser : Parser) :
    (parser.reportAt token fault).diagnostics.toList =
      parser.diagnostics.toList ++ [⟨fault, token.span.file, token.span.start⟩] :=
  Array.toList_push

structure AppendsOnly (before after : Parser) : Prop where
  grammar : after.grammar = before.grammar
  options : after.options = before.options
  depth : after.depth = before.depth
  settled : before.Settled → after.Settled
  diagnostics : before.diagnostics.toList <+: after.diagnostics.toList

namespace AppendsOnly

theorem refl (parser : Parser) : parser.AppendsOnly parser :=
  ⟨rfl, rfl, rfl, id, List.prefix_refl _⟩

theorem trans {first second third : Parser} (h : first.AppendsOnly second)
    (k : second.AppendsOnly third) : first.AppendsOnly third where
  grammar := k.grammar.trans h.grammar
  options := k.options.trans h.options
  depth := k.depth.trans h.depth
  settled := k.settled ∘ h.settled
  diagnostics := h.diagnostics.trans k.diagnostics

theorem size_le {before after : Parser} (h : before.AppendsOnly after) :
    before.diagnostics.size ≤ after.diagnostics.size := by
  simpa only [Array.length_toList] using h.diagnostics.length_le

theorem traced {before after : Parser} {label : String}
    (h : (before.enter label).AppendsOnly after) : before.AppendsOnly (after.leave label) :=
  ⟨h.grammar, h.options, h.depth, fun settled => (h.settled (settled.frame rfl)).frame rfl,
    h.diagnostics⟩

theorem nested {before after : Parser} (h : before.deepen.AppendsOnly after) :
    before.AppendsOnly after.surface where
  grammar := h.grammar
  options := h.options
  depth := by
    change after.depth - 1 = before.depth
    rw [h.depth]
    exact Nat.add_sub_cancel _ 1
  settled settled := (h.settled (settled.frame rfl)).frame rfl
  diagnostics := h.diagnostics

end AppendsOnly

theorem appendsOnly_advance (parser : Parser) : parser.AppendsOnly parser.advance :=
  ⟨rfl, rfl, rfl, Settled.advance, List.prefix_refl _⟩

theorem appendsOnly_drop (parser : Parser) : parser.AppendsOnly parser.drop :=
  ⟨rfl, rfl, rfl, fun settled => settled.frame rfl, List.prefix_refl _⟩

theorem appendsOnly_reportAt (token : Token) (fault : Fault) (parser : Parser) :
    parser.AppendsOnly (parser.reportAt token fault) where
  grammar := rfl
  options := rfl
  depth := rfl
  settled h := h.frame rfl
  diagnostics := by simp [reportAt]

end Parser

/-- Where a run may have got from a state. -/
def Outcome.NeverSilent (before : Parser) : Outcome α → Prop
  | .built _ after => before.AppendsOnly after
  | .abandoned after => before.AppendsOnly after ∧ before.diagnostics.size < after.diagnostics.size
  | .unfinished => True

def Parse.NeverSilent (step : Parse α) : Prop := ∀ before, (step before).NeverSilent before

namespace Parse.NeverSilent

theorem built {step : Parse α} (speaks : step.NeverSilent) {before after : Parser} {value : α}
    (run : step before = .built value after) : before.AppendsOnly after := by
  have here := speaks before
  rwa [run] at here

theorem abandoned {step : Parse α} (speaks : step.NeverSilent) {before after : Parser}
    (run : step before = .abandoned after) :
    before.AppendsOnly after ∧ before.diagnostics.size < after.diagnostics.size := by
  have here := speaks before
  rwa [run] at here

end Parse.NeverSilent

theorem Outcome.NeverSilent.after {before middle : Parser} {change : Parser → Parser}
    {outcome : Outcome α} (speaks : outcome.NeverSilent middle)
    (size : middle.diagnostics.size = before.diagnostics.size)
    (back : ∀ after, middle.AppendsOnly after → before.AppendsOnly (change after))
    (kept : ∀ after, (change after).diagnostics = after.diagnostics) :
    (outcome.after change).NeverSilent before := by
  cases outcome with
  | built value final => exact back final speaks
  | abandoned final =>
    refine ⟨back final speaks.1, ?_⟩
    rw [kept, ← size]
    exact speaks.2
  | unfinished => trivial

namespace Parse

open MonkeySyntax.Parser

theorem neverSilent_bind {step : Parse α} {next : α → Parse β} (first : step.NeverSilent)
    (rest : ∀ value, (next value).NeverSilent) : (step >>= next).NeverSilent := by
  intro before
  rw [bind_apply]
  cases run : step before with
  | built value middle =>
    have here := first.built run
    have there := rest value middle
    simp only
    cases ended : next value middle with
    | built value after =>
      rw [ended] at there
      exact here.trans there
    | abandoned after =>
      rw [ended] at there
      exact ⟨here.trans there.1, Nat.lt_of_le_of_lt here.size_le there.2⟩
    | unfinished => trivial
  | abandoned after => exact first.abandoned run
  | unfinished => trivial

theorem neverSilent_fail (fault : Fault) : (fail fault : Parse α).NeverSilent := by
  intro before
  refine ⟨appendsOnly_reportAt _ _ _, ?_⟩
  change _ < (before.diagnostics.push _).size
  rw [Array.size_push]
  omega

theorem neverSilent_expect (kind : Kind) : (expect kind).NeverSilent := by
  intro before
  by_cases met : before.ahead.kind = kind
  · rw [expect_of_eq met]
    exact appendsOnly_advance before
  · rw [expect_of_ne met]
    refine ⟨appendsOnly_reportAt _ _ _, ?_⟩
    change _ < (before.diagnostics.push _).size
    rw [Array.size_push]
    omega

theorem neverSilent_attempt {step : Parse α} (speaks : step.NeverSilent) :
    step.attempt.NeverSilent := by
  intro before
  have here := speaks before
  rw [attempt]
  cases run : step before with
  | built value after =>
    rw [run] at here
    exact here
  | abandoned after =>
    rw [run] at here
    exact here.1
  | unfinished => trivial

theorem neverSilent_ensuring {last : Parse Unit} {step : Parse α} (closing : last.NeverSilent)
    (speaks : step.NeverSilent) : (ensuring last step).NeverSilent := by
  intro before
  simp only [ensuring, bind_apply, attempt]
  cases run : step before with
  | built value middle =>
    have here := speaks.built run
    simp only
    cases ended : last middle with
    | built _ after => exact here.trans (closing.built ended)
    | abandoned after =>
      have there := closing.abandoned ended
      exact ⟨here.trans there.1, Nat.lt_of_le_of_lt here.size_le there.2⟩
    | unfinished => trivial
  | abandoned middle =>
    have here := speaks.abandoned run
    simp only
    cases ended : last middle with
    | built _ after =>
      have there := closing.built ended
      exact ⟨here.1.trans there, Nat.lt_of_lt_of_le here.2 there.size_le⟩
    | abandoned after =>
      have there := closing.abandoned ended
      exact ⟨here.1.trans there.1, Nat.lt_trans here.2 there.2⟩
    | unfinished => trivial
  | unfinished => trivial

theorem neverSilent_traced (label : String) {step : Parse α} (speaks : step.NeverSilent) :
    (traced label step).NeverSilent := by
  intro before
  exact (speaks (before.enter label)).after rfl (fun _ => AppendsOnly.traced) fun _ => rfl

theorem neverSilent_nested {step : Parse α} (speaks : step.NeverSilent) :
    step.nested.NeverSilent := by
  intro before
  have inner : (if before.options.maxDepth < before.depth + 1
      then fail (.tooDeep before.options.maxDepth) before.deepen
      else step before.deepen).NeverSilent before.deepen := by
    split
    · exact neverSilent_fail _ _
    · exact speaks _
  exact inner.after rfl (fun _ => AppendsOnly.nested) fun _ => rfl

theorem neverSilent_congruence : Congruence fun step _ => step.NeverSilent where
  unfinished _ _ := trivial
  pure _ := AppendsOnly.refl
  bind := neverSilent_bind
  view _ := AppendsOnly.refl
  advance := appendsOnly_advance
  drop := appendsOnly_drop
  fail := neverSilent_fail
  expect := neverSilent_expect
  attempt := neverSilent_attempt
  ensuring := neverSilent_ensuring
  traced label := neverSilent_traced label
  nested := neverSilent_nested

end Parse

theorem Parts.neverSilent_within (bound : Nat) (phrase : Phrase form) :
    ((Parts.within bound).parse phrase).NeverSilent :=
  have parts := Parse.neverSilent_congruence.within (Nat.le_refl bound)
  Parse.neverSilent_congruence.parse parts phrase

end MonkeySyntax
