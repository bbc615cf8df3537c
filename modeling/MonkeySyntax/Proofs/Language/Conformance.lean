import MonkeySyntax.Proofs.Language.Derivation
import MonkeySyntax.Proofs.Parsing.Soundness

/-! The standard parser against the grammar. The depth limit is the only thing the grammar does not
know of; a limit of as many levels as there are tokens is never reached. -/
namespace MonkeySyntax

open Grammar (standard)

/-- The terminals of a program have a reading exactly when the grammar derives them. -/
theorem reads_iff_derives {room : Nat} {input : List Terminal} (deep : input.length ≤ room)
    (program : Program) :
    (∃ rest, Reads standard room (.statements .program) input program rest) ↔
      Derives .program input program [] := by
  constructor
  · rintro ⟨rest, reads⟩
    obtain ⟨middle, ⟨last, ended, rfl, rfl⟩, derives⟩ := reads.derives
    exact .program derives ended
  · intro derives
    exact derives.read room deep

theorem readProgram_iff_derives (options : Options) (file text : String)
    (deep : (Cursor.ofText file text).tokens.length ≤ options.maxDepth) :
    (∀ program, (∃ after,
        (Parser.start options (.ofText file text)).readProgram = .built program after ∧
          after.diagnostics = #[]) ↔
      Derives .program (Cursor.ofText file text).terminals program []) ∧
    ∀ program other, Derives .program (Cursor.ofText file text).terminals program [] →
      Derives .program (Cursor.ofText file text).terminals other [] → program = other := by
  have few : (Cursor.ofText file text).terminals.length ≤ options.maxDepth := by
    rwa [Cursor.terminals, List.length_map]
  have conforms (program : Program) :=
    (quiet_iff_reads Grammar.grounded_standard options (.ofText file text) program).trans
      (reads_iff_derives few program)
  refine ⟨conforms, fun program other derives derives' => ?_⟩
  obtain ⟨after, run, _⟩ := (conforms program).mpr derives
  obtain ⟨after', run', _⟩ := (conforms other).mpr derives'
  rw [run] at run'
  cases run'
  rfl

set_option maxRecDepth 20000 in
theorem readProgram_iff_derives_conditional :
    (Cursor.ofText "" "if (!a) { f(b, 1) }").tokens.length ≤ 256 ∧
    Derives .program (Cursor.ofText "" "if (!a) { f(b, 1) }").terminals
      [.expression (.conditional (.unary "!" (.identifier "a"))
        [.expression (.call (.identifier "f") [.identifier "b", .integer 1 "1"])] none)] [] := by
  have deep : (Cursor.ofText "" "if (!a) { f(b, 1) }").tokens.length ≤ 256 := by decide
  exact ⟨deep, ((readProgram_iff_derives {} "" "if (!a) { f(b, 1) }" deep).1 _).mp ⟨_, rfl, rfl⟩⟩

end MonkeySyntax
