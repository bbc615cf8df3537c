import MonkeySyntax.Proofs.Parsing.OutcomeRelations
import MonkeySyntax.Proofs.Parsing.Termination

/-! One diagnostic for each statement left out. A phrase that is built has appended as many
diagnostics as statements were left out of the blocks inside it, and a phrase that is given up one
more; this one is charged to the statement that is then left out in its turn. So the diagnostics of
a text count its dropped statements, at every level of nesting. -/
namespace MonkeySyntax

/-- Diagnostics have been appended, one for each statement dropped and a surplus of others. -/
def Parser.Charges (surplus : Nat) (before after : Parser) : Prop :=
  ∃ new drops, after.diagnostics.toList = before.diagnostics.toList ++ new ∧
    after.dropped = before.dropped + drops ∧ new.length = drops + surplus

namespace Parser.Charges

variable {surplus extra : Nat} {before middle after : Parser}

theorem refl (parser : Parser) : parser.Charges 0 parser :=
  ⟨[], 0, (List.append_nil _).symm, rfl, rfl⟩

theorem trans (first : before.Charges surplus middle) (second : middle.Charges extra after) :
    before.Charges (surplus + extra) after := by
  obtain ⟨new, drops, same, dropped, count⟩ := first
  obtain ⟨new', drops', same', dropped', count'⟩ := second
  refine ⟨new ++ new', drops + drops', ?_, by omega, ?_⟩
  · rw [same', same, List.append_assoc]
  · rw [List.length_append]
    omega

theorem reportAt (token : Token) (fault : Fault) (parser : Parser) :
    parser.Charges 1 (parser.reportAt token fault) :=
  ⟨[⟨fault, token.span.file, token.span.start⟩], 0, Array.toList_push, rfl, rfl⟩

/-- What a phrase given up has in surplus is the diagnostic of the statement dropped for it. -/
theorem drop (charges : before.Charges 1 after) : before.Charges 0 after.drop := by
  obtain ⟨new, drops, same, dropped, count⟩ := charges
  refine ⟨new, drops + 1, same, ?_, count⟩
  change after.dropped + 1 = _
  omega

end Parser.Charges

open MonkeySyntax.Parser

/-- A surplus of one diagnostic if the step is given up, and of none otherwise. -/
theorem Parser.outcomeRelations_charges : OutcomeRelations (Charges 0) (Charges 1) where
  refl := .refl
  trans := .trans
  lose := .trans
  advance := .refl
  reportAt := .reportAt
  skip := id
  drop := .drop
  traced _ := id
  traced_lost _ := id
  expression _ := id
  expression_lost _ := id
  refused {before} _ := .reportAt before.current (.tooDeep before.options.maxDepth) before

theorem Parser.run_charges (parser : Parser) (phrase : Phrase form) :
    (parser.run (·.parse phrase)).Meets (fun _ => parser.Charges 0) (parser.Charges 1) True :=
  outcomeRelations_charges.parse parser.bound phrase parser

/-- A run of the loop on its own drops as many statements as it records diagnostics. -/
theorem Parser.length_diagnostics_of_built {start after : Parser} {program : Program}
    (run : start.readProgram = .built program after) (fresh : start.diagnostics = #[])
    (none : start.dropped = 0) : after.diagnostics.toList.length = after.dropped := by
  have charges : start.readProgram.Meets _ _ True := start.run_charges (.statements .program)
  rw [run] at charges
  obtain ⟨new, drops, same, dropped, count⟩ := charges
  rw [same, fresh, List.nil_append, count, dropped, none]
  omega

/-- The diagnostics of a text are as many as its dropped statements, and every phrase read from any
state appends one for each statement dropped inside it and one more exactly if it is given up; only
a circular grammar or a window that was never opened on a text can leave it unfinished. -/
theorem diagnostics_charge_drops (options : Options) (file text : String) :
    (∃ program after,
      (Parser.start options (.ofText file text)).readProgram = .built program after ∧
      readText options file text = after.parsed program ∧
      (readText options file text).diagnostics.length = after.dropped ∧
      ((readText options file text).diagnostics = [] ↔ after.dropped = 0)) ∧
    ∀ (parser : Parser) {form : Form} (phrase : Phrase form),
      (parser.run (·.parse phrase)).Meets (fun _ => parser.Charges 0) (parser.Charges 1)
        (¬ (parser.grammar.Grounded ∧ parser.Settled)) := by
  constructor
  · let start := Parser.start options (.ofText file text)
    have grounded : start.grammar.Grounded := Grammar.grounded_standard
    obtain ⟨program, after, run, _⟩ := readProgram_finishes grounded (settled_start options _)
    have parsed := readText_of_built run
    have counted : (readText options file text).diagnostics.length = after.dropped := by
      rw [parsed]
      exact length_diagnostics_of_built run rfl rfl
    refine ⟨program, after, run, parsed, counted, ?_⟩
    rw [← counted, List.length_eq_zero_iff]
  · intro parser form phrase
    have meets := parser.run_charges phrase
    generalize ran : parser.run (·.parse phrase) = outcome at meets
    cases outcome with
    | built value after => exact meets
    | abandoned after => exact meets
    | unfinished => exact fun ⟨grounded, settled⟩ => run_ne_unfinished grounded settled phrase ran

set_option maxRecDepth 20000 in
example : (readText {} "f" "if (x) { let 1; fn(2 } y").diagnostics.map
      (fun d => (d.fault, d.offset)) =
    [(.unexpected .ident .int, 13), (.unexpected .ident .int, 19)] := rfl

end MonkeySyntax
