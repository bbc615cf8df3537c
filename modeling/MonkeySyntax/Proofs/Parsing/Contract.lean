import MonkeySyntax.Proofs.Parsing.Phrase

/-! Contracts of steps: what holds of the value and the state that a run builds, of the state in
which it gives up, and when its recursion is cut off. A contract whose last part is true leaves
unfinished runs out; one whose last part is false says that the run finishes. Each combinator has
one equivalence, which turns a contract of the whole into contracts of its parts, each from the
state it is run in. -/
namespace MonkeySyntax

def Outcome.Meets (goal : α → Parser → Prop) (loss : Parser → Prop) (cut : Prop) :
    Outcome α → Prop
  | .built value after => goal value after
  | .abandoned after => loss after
  | .unfinished => cut

theorem Outcome.Meets.imp {goal goal' : α → Parser → Prop} {loss loss' : Parser → Prop}
    {cut : Prop} {outcome : Outcome α} (meets : outcome.Meets goal loss cut)
    (built : ∀ value after, goal value after → goal' value after)
    (abandoned : ∀ after, loss after → loss' after) : outcome.Meets goal' loss' cut := by
  cases outcome with
  | built value after => exact built value after meets
  | abandoned after => exact abandoned after meets
  | unfinished => exact meets

/-- What holds wherever a run comes to an end adds to any contract. -/
theorem Outcome.Meets.and {goal goal' : α → Parser → Prop} {loss loss' : Parser → Prop}
    {cut : Prop} {outcome : Outcome α} (meets : outcome.Meets goal loss cut)
    (meets' : outcome.Meets goal' loss' True) :
    outcome.Meets (fun value after => goal value after ∧ goal' value after)
      (fun after => loss after ∧ loss' after) cut := by
  cases outcome with
  | built value after => exact ⟨meets, meets'⟩
  | abandoned after => exact ⟨meets, meets'⟩
  | unfinished => exact meets

namespace Parse

variable {goal : α → Parser → Prop} {loss : Parser → Prop} {cut : Prop} {step : Parse α}
  {before : Parser}

theorem meets_pure {value : α} : ((pure value : Parse α) before).Meets goal loss cut ↔
    goal value before := Iff.rfl

theorem meets_bind {next : α → Parse β} {goal : β → Parser → Prop} :
    ((step >>= next) before).Meets goal loss cut ↔
      (step before).Meets (fun value after => (next value after).Meets goal loss cut) loss cut := by
  rw [bind_apply]
  cases step before <;> exact Iff.rfl

theorem meets_fail {fault : Fault} : ((fail fault : Parse α) before).Meets goal loss cut ↔
    loss (before.report fault) := Iff.rfl

theorem meets_expect {kind : Kind} {goal : Unit → Parser → Prop} :
    (expect kind before).Meets goal loss cut ↔
      (before.ahead.kind = kind → goal () before.advance) ∧
      (before.ahead.kind ≠ kind →
        loss (before.reportAt before.ahead (.unexpected kind before.ahead.kind))) := by
  by_cases met : before.ahead.kind = kind
  · simp [expect_of_eq met, met, Outcome.Meets]
  · simp [expect_of_ne met, met, Outcome.Meets]

theorem meets_expect_bind {kind : Kind} {next : Unit → Parse β} {goal : β → Parser → Prop} :
    ((expect kind >>= next) before).Meets goal loss cut ↔
      (before.ahead.kind = kind → (next () before.advance).Meets goal loss cut) ∧
      (before.ahead.kind ≠ kind →
        loss (before.reportAt before.ahead (.unexpected kind before.ahead.kind))) := by
  rw [meets_bind, meets_expect]

theorem meets_attempt {goal : Option α → Parser → Prop} :
    (attempt step before).Meets goal loss cut ↔
      (step before).Meets (fun value => goal (some value)) (goal none) cut := by
  rw [attempt]
  cases step before <;> exact Iff.rfl

theorem meets_ensuring {last : Parse Unit} :
    (ensuring last step before).Meets goal loss cut ↔
      (step before).Meets (fun value after => (last after).Meets (fun _ => goal value) loss cut)
        (fun after => (last after).Meets (fun _ => loss) loss cut) cut := by
  rw [ensuring, meets_bind, meets_attempt]
  simp only [meets_bind]
  exact Iff.rfl

theorem meets_traced {label : String} : (traced label step before).Meets goal loss cut ↔
    (step (before.enter label)).Meets (fun value after => goal value (after.leave label))
      (fun after => loss (after.leave label)) cut := by
  rw [traced]
  cases step (before.enter label) <;> exact Iff.rfl

theorem meets_nested : (nested step before).Meets goal loss cut ↔
    (before.depth < before.options.maxDepth →
      (step before.deepen).Meets (fun value after => goal value after.surface)
        (fun after => loss after.surface) cut) ∧
    (before.options.maxDepth ≤ before.depth →
      loss (before.report (.tooDeep before.options.maxDepth))) := by
  by_cases room : before.depth < before.options.maxDepth
  · have shallow : ¬ before.options.maxDepth ≤ before.depth := Nat.not_le.mpr room
    rw [nested_of_lt room]
    simp only [room, shallow, true_imp_iff, false_imp_iff, and_true]
    cases step before.deepen <;> exact Iff.rfl
  · have deep : before.options.maxDepth < before.depth + 1 := by omega
    simp only [room, Nat.not_lt.mp room, true_imp_iff, false_imp_iff, true_and, nested, deep,
      if_true]
    exact Iff.rfl

end Parse

end MonkeySyntax
