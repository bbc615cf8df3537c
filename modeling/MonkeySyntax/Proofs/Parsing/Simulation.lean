import MonkeySyntax.Proofs.Parsing.Congruence

/-! Two runs side by side. A relation between parsers that show the same terminals and have the same
room, and that every primitive step preserves, is preserved by every phrase: the two runs build the
same value or both give up. The first run may be cut off earlier than the second; over equal parsers
this says that a greater bound on the recursion never changes what a finished run has given. -/
namespace MonkeySyntax

structure Parser.Simulation (S : Parser → Parser → Prop) : Prop where
  current {one other : Parser} : S one other → one.current.terminal = other.current.terminal
  ahead {one other : Parser} : S one other → one.ahead.terminal = other.ahead.terminal
  grammar {one other : Parser} : S one other → one.grammar = other.grammar
  depth {one other : Parser} : S one other → one.depth = other.depth
  limit {one other : Parser} : S one other → one.options.maxDepth = other.options.maxDepth
  advance {one other : Parser} : S one other → S one.advance other.advance
  drop {one other : Parser} : S one other → S one.drop other.drop
  reportCurrent {one other : Parser} (fault : Fault) : S one other →
    S (one.reportAt one.current fault) (other.reportAt other.current fault)
  reportAhead {one other : Parser} (fault : Fault) : S one other →
    S (one.reportAt one.ahead fault) (other.reportAt other.ahead fault)
  enter {one other : Parser} (label : String) : S one other →
    S (one.enter label) (other.enter label)
  leave {one other : Parser} (label : String) : S one other →
    S (one.leave label) (other.leave label)
  deepen {one other : Parser} : S one other → S one.deepen other.deepen
  surface {one other : Parser} : S one other → S one.surface other.surface

/-- The first run is cut off, or both come to the same end in related states. -/
inductive Outcome.Follows (S : Parser → Parser → Prop) : Outcome α → Outcome α → Prop
  | built {value : α} {one other : Parser} : S one other →
      Follows S (.built value one) (.built value other)
  | abandoned {one other : Parser} : S one other → Follows S (.abandoned one) (.abandoned other)
  | unfinished {outcome : Outcome α} : Follows S .unfinished outcome

def Parse.Follows (S : Parser → Parser → Prop) (step step' : Parse α) : Prop :=
  ∀ one other, S one other → (step one).Follows S (step' other)

theorem Outcome.Follows.after {S T : Parser → Parser → Prop} {change : Parser → Parser}
    {outcome outcome' : Outcome α} (follows : outcome.Follows S outcome')
    (keeps : ∀ {one other}, S one other → T (change one) (change other)) :
    (outcome.after change).Follows T (outcome'.after change) := by
  cases follows with
  | built h => exact .built (keeps h)
  | abandoned h => exact .abandoned (keeps h)
  | unfinished => exact .unfinished

namespace Parse.Follows

variable {S : Parser → Parser → Prop}

theorem bind {step step' : Parse α} {next next' : α → Parse β} (first : step.Follows S step')
    (rest : ∀ value, (next value).Follows S (next' value)) :
    (step >>= next).Follows S (step' >>= next') := by
  intro one other related
  have here := first one other related
  rw [bind_apply, bind_apply]
  generalize step one = outcome, step' other = outcome' at here
  cases here with
  | built h => exact rest _ _ _ h
  | abandoned h => exact .abandoned h
  | unfinished => exact .unfinished

theorem attempt {step step' : Parse α} (follows : step.Follows S step') :
    step.attempt.Follows S step'.attempt := by
  intro one other related
  have here := follows one other related
  rw [Parse.attempt, Parse.attempt]
  generalize step one = outcome, step' other = outcome' at here
  cases here with
  | built h => exact .built h
  | abandoned h => exact .built h
  | unfinished => exact .unfinished

theorem ensuring {last last' : Parse Unit} {step step' : Parse α} (closing : last.Follows S last')
    (follows : step.Follows S step') :
    (Parse.ensuring last step).Follows S (Parse.ensuring last' step') := by
  refine bind (attempt follows) fun found => bind closing fun _ => ?_
  cases found with
  | none => exact fun _ _ related => .abandoned related
  | some value => exact fun _ _ related => .built related

end Parse.Follows

namespace Parser.Simulation

variable {S : Parser → Parser → Prop} (s : Simulation S)
include s

theorem fail (fault : Fault) : (Parse.fail fault : Parse α).Follows S (Parse.fail fault) :=
  fun _ _ related => .abandoned (s.reportCurrent fault related)

theorem expect (kind : Kind) : (Parse.expect kind).Follows S (Parse.expect kind) := by
  intro one other related
  have same : one.ahead.kind = other.ahead.kind := congrArg Terminal.kind (s.ahead related)
  by_cases met : one.ahead.kind = kind
  · rw [Parse.expect_of_eq met, Parse.expect_of_eq (same ▸ met)]
    exact .built (s.advance related)
  · rw [Parse.expect_of_ne met, Parse.expect_of_ne (same ▸ met), same]
    exact .abandoned (s.reportAhead _ related)

theorem nested {step step' : Parse α} (follows : step.Follows S step') :
    step.nested.Follows S step'.nested := by
  intro one other related
  simp only [Parse.nested, s.limit related, s.depth related]
  refine Outcome.Follows.after ?_ s.surface
  split
  · exact s.fail _ _ _ (s.deepen related)
  · exact follows _ _ (s.deepen related)

theorem congruence : Parse.Congruence fun step step' => step.Follows S step' where
  unfinished _ _ _ _ := .unfinished
  pure _ _ _ := .built
  bind := Parse.Follows.bind
  view see one other related := by
    have current := s.current related
    have ahead := s.ahead related
    have grammar := s.grammar related
    simp only [Parse.read, current, ahead, grammar]
    exact .built related
  advance _ _ related := .built (s.advance related)
  drop _ _ related := .built (s.drop related)
  fail := s.fail
  expect := s.expect
  attempt := Parse.Follows.attempt
  ensuring := Parse.Follows.ensuring
  traced label _ _ follows one other related :=
    (follows _ _ (s.enter label related)).after (s.leave label)
  nested := s.nested

theorem within {bound bound' : Nat} (le : bound ≤ bound') (phrase : Phrase form) :
    ((Parts.within bound).parse phrase).Follows S ((Parts.within bound').parse phrase) :=
  s.congruence.parse (s.congruence.within le) phrase

end Parser.Simulation

theorem Parser.simulation_eq : Simulation Eq where
  current h := by rw [h]
  ahead h := by rw [h]
  grammar h := by rw [h]
  depth h := by rw [h]
  limit h := by rw [h]
  advance h := by rw [h]
  drop h := by rw [h]
  reportCurrent _ h := by rw [h]
  reportAhead _ h := by rw [h]
  enter _ h := by rw [h]
  leave _ h := by rw [h]
  deepen h := by rw [h]
  surface h := by rw [h]

/-- Of two bounds under which a run finishes, neither matters. -/
theorem Parts.within_eq {phrase : Phrase form} {parser : Parser} {bound bound' : Nat}
    (finished : (within bound).parse phrase parser ≠ .unfinished)
    (finished' : (within bound').parse phrase parser ≠ .unfinished) :
    (within bound).parse phrase parser = (within bound').parse phrase parser := by
  have grows {less more : Nat} (le : less ≤ more)
      (finished : (within less).parse phrase parser ≠ .unfinished) :
      (within less).parse phrase parser = (within more).parse phrase parser := by
    have follows := Parser.simulation_eq.within le phrase parser parser rfl
    generalize (within less).parse phrase parser = outcome,
      (within more).parse phrase parser = outcome' at follows finished
    cases follows with
    | built same => rw [same]
    | abandoned same => rw [same]
    | unfinished => exact absurd rfl finished
  rcases Nat.le_total bound bound' with le | le
  · exact grows le finished
  · exact (grows le finished').symm

end MonkeySyntax
