import MonkeySyntax.Proofs.Parsing.Termination

/-! A program is read by a loop: until the end token is the current one, a statement is read and one
token is passed. The bound that the rules run under drops from turn to turn, but since all bounds
that are enough give the same, each turn can be taken to start afresh. -/
namespace MonkeySyntax

/-- The run comes to an end in the state, built or given up. -/
inductive Outcome.EndsIn (after : Parser) : Outcome α → Prop
  | built {value : α} : EndsIn after (.built value after)
  | abandoned : EndsIn after (.abandoned after)

theorem Outcome.EndsIn.holds {P : Parser → Prop} {after : Parser} {outcome : Outcome α}
    (ends : outcome.EndsIn after) (meets : outcome.Meets (fun _ => P) P True) : P after := by
  cases ends with
  | built => exact meets
  | abandoned => exact meets

namespace Parser

open Parse

variable {parser : Parser}

section

variable (grounded : parser.grammar.Grounded) (settled : parser.Settled) {bound : Nat}
include grounded settled

theorem statement_eq_run (enough : 4 * parser.remaining.length + 2 ≤ bound) :
    (Parts.within bound).statement parser = parser.run (·.statement) := by
  have finished {bound : Nat} (enough : 4 * parser.remaining.length + 2 ≤ bound) :
      (Parts.within bound).parse .statement parser ≠ .unfinished :=
    statement_finishes grounded settled enough
  exact Parts.within_eq (finished enough) (finished (Nat.le_of_succ_le parser.enough_le_bound))

theorem statements_eq_readProgram (enough : 4 * parser.remaining.length + 3 ≤ bound) :
    (Parts.within bound).statements .program parser = parser.readProgram := by
  have finished {bound : Nat} (enough : 4 * parser.remaining.length + 3 ≤ bound) :
      (Parts.within bound).parse (.statements .program) parser ≠ .unfinished := by
    obtain ⟨_, _, run, _⟩ := statements_finish grounded settled .program enough
    change (Parts.within bound).statements .program parser ≠ .unfinished
    rw [run]
    exact nofun
  exact Parts.within_eq (finished enough) (finished parser.enough_le_bound)

end

/-- A bound that suffices for a text suffices for it under whatever options. -/
theorem statements_start (options : Options) {cursor : Cursor} {bound : Nat}
    (enough : 4 * cursor.tokens.length + 3 ≤ bound) :
    (Parts.within bound).statements .program (start options cursor) =
      (start options cursor).readProgram :=
  statements_eq_readProgram Grammar.grounded_standard (settled_start options cursor)
    (by rwa [remaining_start])

theorem KeptBySteps.run_statement {Q : Parser → Parser → Prop} (keeps : KeptBySteps Q)
    {after : Parser} (ends : (parser.run (·.statement)).EndsIn after) : Q parser after :=
  ends.holds (Parts.keeps_within keeps parser.bound .statement parser)

/-- The rest of the program is read from a settled state with fewer tokens. -/
theorem readProgram_rest (grounded : parser.grammar.Grounded) (settled : parser.Settled)
    (more : parser.current.kind ≠ .eof) {bound : Nat} (enough : 4 * parser.remaining.length ≤ bound)
    {after : Parser} (ends : (parser.run (·.statement)).EndsIn after) :
    (Parts.within bound).statements .program after.advance = after.advance.readProgram ∧
      (Parts.within bound).statements .program after.drop.advance =
        after.drop.advance.readProgram := by
  have kept := keeps_appendsOnly.run_statement ends
  have few := (keeps_descends.run_statement ends settled).2
  have grounded' : after.advance.grammar.Grounded := kept.grammar ▸ grounded
  have settled' := (kept.settled settled).advance
  have enough' : 4 * after.advance.remaining.length + 3 ≤ bound := by
    rw [length_remaining more] at enough
    rw [remaining_advance]
    omega
  -- Leaving a statement out changes nothing that the rest depends on.
  have dropped : after.drop.advance.Settled := settled'.frame rfl
  have droppedGrounded : after.drop.advance.grammar.Grounded := grounded'
  exact ⟨statements_eq_readProgram grounded' settled' enough',
    statements_eq_readProgram droppedGrounded dropped enough'⟩

/-- A turn of the loop. The rest is read from behind the statement, whether or not it was built. -/
theorem readProgram_eq_built (grounded : parser.grammar.Grounded) (settled : parser.Settled)
    {program : Program} {final : Parser} :
    parser.readProgram = .built program final ↔
      (parser.current.kind = .eof ∧ [] = program ∧ parser = final) ∨
      parser.current.kind ≠ .eof ∧
        ((∃ statement after rest, parser.run (·.statement) = .built statement after ∧
            after.advance.readProgram = .built rest final ∧ statement :: rest = program) ∨
          ∃ after, parser.run (·.statement) = .abandoned after ∧
            after.drop.advance.readProgram = .built program final) := by
  obtain ⟨bound, same⟩ : ∃ bound, parser.bound = bound + 1 := ⟨parser.bound - 1, by
    have := parser.enough_le_bound
    omega⟩
  have enough := parser.enough_le_bound
  rw [same] at enough
  have unfolded : parser.readProgram = (Parts.within bound).statementList .program parser := by
    rw [readProgram, run, same]
    rfl
  have goes : Extent.program.endsAt parser.current.kind = false ↔ parser.current.kind ≠ .eof := by
    rw [Ne, ← Extent.endsAt_program_iff, Bool.not_eq_true]
  rw [unfolded, Parts.statementList_eq_built, Extent.endsAt_program_iff, goes,
    statement_eq_run grounded settled (by omega)]
  refine or_congr_right (and_congr_right fun more => or_congr ?_ ?_)
  · refine exists_congr fun statement => exists_congr fun after => exists_congr fun rest => ?_
    refine and_congr_right fun run => ?_
    rw [(readProgram_rest grounded settled more (by omega) (run ▸ .built)).1]
  · refine exists_congr fun after => and_congr_right fun run => ?_
    rw [(readProgram_rest grounded settled more (by omega) (run ▸ .abandoned)).2]

/-- The states in which the loop that reads a program looks whether to go on, with the statements
built by then. -/
inductive Moment (start : Parser) : Program → Parser → Prop
  | first : Moment start [] start
  | built {list : Program} {parser after : Parser} {statement : Stmt} : Moment start list parser →
      parser.current.kind ≠ .eof → parser.run (·.statement) = .built statement after →
      Moment start (list ++ [statement]) after.advance
  | dropped {list : Program} {parser after : Parser} : Moment start list parser →
      parser.current.kind ≠ .eof → parser.run (·.statement) = .abandoned after →
      Moment start list after.drop.advance

namespace Moment

variable {start : Parser} {list : Program}

theorem kept {Q : Parser → Parser → Prop} (keeps : KeptBySteps Q)
    (moment : Moment start list parser) : Q start parser := by
  induction moment with
  | first => exact keeps.refl start
  | @built list parser after statement _ _ run ih =>
    have ends : (parser.run (·.statement)).EndsIn after := run ▸ .built
    exact keeps.trans (keeps.trans ih (keeps.run_statement ends)) (keeps.advance after)
  | @dropped list parser after _ _ run ih =>
    have ends : (parser.run (·.statement)).EndsIn after := run ▸ .abandoned
    have dropped := keeps.trans (keeps.trans ih (keeps.run_statement ends)) (keeps.drop after)
    exact keeps.trans dropped (keeps.advance after.drop)

/-- From any moment on, what is read then comes behind what has been built. -/
theorem readProgram (moment : Moment start list parser) (grounded : start.grammar.Grounded)
    (settled : start.Settled) {rest : Program} {final : Parser}
    (run : parser.readProgram = .built rest final) :
    start.readProgram = .built (list ++ rest) final := by
  induction moment generalizing rest with
  | first => exact run
  | @built list parser after statement moment more step ih =>
    have kept := moment.kept keeps_appendsOnly
    rw [List.append_assoc, List.singleton_append]
    refine ih ((readProgram_eq_built (kept.grammar ▸ grounded) (kept.settled settled)).mpr ?_)
    exact .inr ⟨more, .inl ⟨statement, after, rest, step, run, rfl⟩⟩
  | @dropped list parser after moment more step ih =>
    have kept := moment.kept keeps_appendsOnly
    refine ih ((readProgram_eq_built (kept.grammar ▸ grounded) (kept.settled settled)).mpr ?_)
    exact .inr ⟨more, .inr ⟨after, step, run⟩⟩

/-- From any moment on the loop goes on to the end of the input. -/
theorem exists_last (moment : Moment start list parser)
    (grounded : start.grammar.Grounded) (settled : start.Settled) :
    ∃ list final, Moment start list final ∧ final.current.kind = .eof := by
  -- A turn passes a token even where its statement fails, so fewer tokens remain behind it.
  induction count : parser.remaining.length using Nat.strongRecOn generalizing list parser with
  | _ _ ih =>
    subst count
    by_cases ended : parser.current.kind = .eof
    · exact ⟨list, parser, moment, ended⟩
    · have kept := moment.kept keeps_appendsOnly
      have grounded' : parser.grammar.Grounded := kept.grammar ▸ grounded
      have settled' := kept.settled settled
      have shorter {after : Parser} (ends : (parser.run (·.statement)).EndsIn after) :
          after.following.length < parser.remaining.length :=
        length_remaining ended ▸ Nat.lt_succ_of_le (keeps_descends.run_statement ends settled').2
      cases run : parser.run (·.statement) with
      | built statement after =>
        have ends : (parser.run (·.statement)).EndsIn after := run ▸ .built
        exact ih _ (remaining_advance after ▸ shorter ends) (moment.built ended run) rfl
      | abandoned after =>
        have ends : (parser.run (·.statement)).EndsIn after := run ▸ .abandoned
        have fewer := shorter ends
        rw [← remaining_advance] at fewer
        exact ih _ fewer (moment.dropped ended run) rfl
      | unfinished =>
        exact absurd run (statement_finishes grounded' settled'
          (Nat.le_of_succ_le parser.enough_le_bound))

theorem readProgram_of_eof (moment : Moment start list parser)
    (grounded : start.grammar.Grounded) (settled : start.Settled)
    (ended : parser.current.kind = .eof) : start.readProgram = .built list parser := by
  have kept := moment.kept keeps_appendsOnly
  have here : parser.readProgram = .built [] parser :=
    (readProgram_eq_built (kept.grammar ▸ grounded) (kept.settled settled)).mpr
      (.inl ⟨ended, rfl, rfl⟩)
  have whole := moment.readProgram grounded settled here
  rwa [List.append_nil] at whole

end Moment

end Parser

end MonkeySyntax
