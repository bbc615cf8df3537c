import MonkeySyntax.Proofs.Parsing.Checked
import MonkeySyntax.Proofs.Scan.Stream

/-! What holds of a parser that is driven by commands, in whatever order, on whatever tokens, with
whatever rules registered on the way. It stands at a place of the text and never goes back, it is at
no depth between commands, and what it has recorded stays. -/
namespace MonkeySyntax

namespace Parser

/-- The phrase that a command has read, and how it replies what became of it. -/
def Command.reading? :
    Command → Option ((form : Form) × Phrase form × (Option form.Tree → Reply))
  | .program => some ⟨_, .statements .program, (.program <| ·.getD [])⟩
  | .block => some ⟨_, .block, (.block <| ·.getD [])⟩
  | .expression floor => some ⟨_, .expression floor, .expression⟩
  | .start rule => some ⟨_, .start rule, .expression⟩
  | .extend left rule => some ⟨_, .extend left rule, .expression⟩
  | .statement rule => some ⟨_, .statementBy rule, .statement⟩
  | _ => none

/-- What a command does when the rules that it runs are these. -/
def Command.on (parts : Parts) (parser : Parser) (command : Command) : Option (Reply × Parser) :=
  match command.reading? with
  | some ⟨_, phrase, tell⟩ => answer tell (parts.parse phrase parser)
  | none => parser.perform command

/-- The command returns, however long the rules run. -/
def Performs (before : Parser) (command : Command) (reply : Reply) (after : Parser) : Prop :=
  ∃ bound, command.on (.within bound) before = some (reply, after)

theorem performs_of_perform {before after : Parser} {command : Command} {reply : Reply}
    (run : before.perform command = some (reply, after)) : before.Performs command reply after :=
  ⟨before.bound, by cases command <;> exact run⟩

/-- However far the rules are let run, a command that returns comes to one thing. -/
theorem Performs.unique {before after after' : Parser} {command : Command} {reply reply' : Reply}
    (performs : before.Performs command reply after)
    (performs' : before.Performs command reply' after') : (reply, after) = (reply', after') := by
  obtain ⟨bound, run⟩ := performs
  obtain ⟨bound', run'⟩ := performs'
  rw [Command.on] at run run'
  split at run
  · next form phrase tell reading =>
    simp only [reading] at run'
    have finished {bound : Nat} {given : Reply × Parser}
        (told : answer tell ((Parts.within bound).parse phrase before) = some given) :
        (Parts.within bound).parse phrase before ≠ .unfinished := by
      intro cut
      rw [cut] at told
      cases told
    rw [Parts.within_eq (finished run) (finished run')] at run
    exact Option.some.inj (run.symm.trans run')
  · next reading =>
    simp only [reading] at run'
    exact Option.some.inj (run.symm.trans run')

theorem endsIn_of_answer {tell : Option α → Reply} {outcome : Outcome α} {reply : Reply}
    {after : Parser} (told : answer tell outcome = some (reply, after)) : outcome.EndsIn after := by
  cases outcome with
  | built value parser =>
    cases told
    exact .built
  | abandoned parser =>
    cases told
    exact .abandoned
  | unfinished => cases told

/-- The change that a registration makes to the grammar. -/
def Command.change? : Command → Option (Grammar → Grammar)
  | .setStart kind rule => some (.setStart kind rule)
  | .setContinuation kind precedence rule => some (.setContinuation kind precedence rule)
  | .setStatement kind rule => some (.setStatement kind rule)
  | _ => none

/-- A command registers a rule and nothing else, or keeps whatever the rules keep. -/
theorem Performs.keeps {Q : Parser → Parser → Prop} (keeps : KeptBySteps Q) {before after : Parser}
    {command : Command} {reply : Reply} (performs : before.Performs command reply after) :
    (command.change? = none ∧ Q before after) ∨
      ∃ change, command.change? = some change ∧ after = before.regulate change := by
  obtain ⟨bound, run⟩ := performs
  rw [Command.on] at run
  cases reading : command.reading? with
  | some asked =>
    obtain ⟨form, phrase, tell⟩ := asked
    simp only [reading] at run
    have kept := (endsIn_of_answer run).holds (Parts.keeps_within keeps bound phrase before)
    refine .inl ⟨?_, kept⟩
    cases command <;> first | rfl | cases reading
  | none =>
    simp only [reading] at run
    cases command with
    | advance =>
      cases run
      exact .inl ⟨rfl, keeps.advance before⟩
    | report fault =>
      cases run
      exact .inl ⟨rfl, keeps.reportAt before.current fault before⟩
    | expect kind =>
      cases run
      refine .inl ⟨rfl, ?_⟩
      rw [Parser.expect]
      split
      · exact keeps.advance before
      · exact keeps.reportAt before.ahead _ before
    | setStart | setContinuation | setStatement =>
      cases run
      exact .inr ⟨_, rfl, rfl⟩
    | program | block | expression | start | extend | statement => cases reading

theorem answer_of_follows {tables : Tables} {tell : Option α → Reply} {outcome outcome' : Outcome α}
    (follows : outcome.Follows tables.Shared outcome') {given : Reply × Parser}
    (told : answer tell outcome = some given) : answer tell outcome' = some given := by
  cases follows with
  | built shared => rwa [← shared.1]
  | abandoned shared => rwa [← shared.1]
  | unfinished => cases told

/-- The checks of a parser that checks itself never fail. -/
theorem on_checked {tables : Tables} {before : Parser} (describe : tables.Describe before.grammar)
    {bound : Nat} {command : Command} {given : Reply × Parser}
    (run : command.on (.within bound) before = some given) :
    command.on (.checked tables bound) before = some given := by
  rw [Command.on] at run ⊢
  split at run
  · next form phrase tell _ =>
    exact answer_of_follows (tables.simulation_shared.congruence.parse
      (Parts.follows_checked tables bound) phrase before before ⟨rfl, describe⟩) run
  · exact run

structure Proceeds (before after : Parser) : Prop where
  window : ∃ count, after.window = Window.advance^[count] before.window
  depth : after.depth = before.depth
  diagnostics : before.diagnostics.toList <+: after.diagnostics.toList
  lines : before.trace.lines <+: after.trace.lines

theorem keeps_proceeds : KeptBySteps Proceeds where
  refl _ := ⟨⟨0, rfl⟩, rfl, List.prefix_refl _, List.prefix_refl _⟩
  trans h k := ⟨Window.advance_trans h.window k.window, k.depth.trans h.depth,
    h.diagnostics.trans k.diagnostics, h.lines.trans k.lines⟩
  advance _ := ⟨⟨1, rfl⟩, rfl, List.prefix_refl _, List.prefix_refl _⟩
  drop _ := ⟨⟨0, rfl⟩, rfl, List.prefix_refl _, List.prefix_refl _⟩
  reportAt token fault parser :=
    ⟨⟨0, rfl⟩, rfl, (appendsOnly_reportAt token fault parser).diagnostics, List.prefix_refl _⟩
  traced label _ _ h := ⟨h.window, h.depth, h.diagnostics,
    ((Trace.lines_enter _ label).trans h.lines).trans (Trace.lines_leave _ label)⟩
  nested h := ⟨h.window, congrArg (· - 1) h.depth, h.diagnostics, h.lines⟩

theorem Performs.proceeds {before after : Parser} {command : Command} {reply : Reply}
    (performs : before.Performs command reply after) : before.Proceeds after := by
  obtain ⟨-, proceeds⟩ | ⟨change, -, rfl⟩ := performs.keeps keeps_proceeds
  · exact proceeds
  · exact ⟨⟨0, rfl⟩, rfl, List.prefix_refl _, List.prefix_refl _⟩

/-- The window shows two tokens of the text, one behind the other, and the cursor is behind both. -/
structure StandsAt (source : Cursor) (index : Nat) (parser : Parser) : Prop where
  current : parser.current = source.tokenAt index
  ahead : parser.ahead = source.tokenAt (index + 1)
  cursor : parser.cursor = source.forward (source.tokenAt (index + 1)).span.stop

section

variable {file text : String} {index : Nat} {parser : Parser}

theorem standsAt_iff :
    parser.StandsAt (.ofText file text) index ↔
      parser.window = ((Cursor.ofText file text).past index).window := by
  rw [Cursor.window_past, Cursor.past_eq_forward file text (index + 1), window, Window.mk.injEq]
  exact ⟨fun stands => ⟨stands.current, stands.ahead, stands.cursor⟩, fun same =>
    ⟨same.1, same.2.1, same.2.2⟩⟩

theorem standsAt_start (options : Options) (file text : String) :
    (start options (.ofText file text)).StandsAt (.ofText file text) 0 :=
  standsAt_iff.mpr rfl

theorem Proceeds.standsAt {after : Parser} (proceeds : parser.Proceeds after)
    (stands : parser.StandsAt (.ofText file text) index) :
    ∃ later, index ≤ later ∧ after.StandsAt (.ofText file text) later := by
  obtain ⟨count, moved⟩ := proceeds.window
  rw [standsAt_iff.mp stands, Cursor.advance_window_past] at moved
  exact ⟨index + count, Nat.le_add_right _ _, standsAt_iff.mpr moved⟩

end

/-- The tables of strengths and rules after a command. -/
def Command.written (tables : Tables) : Command → Tables
  | .setContinuation kind precedence rule => tables.register kind precedence rule
  | _ => tables

/-- The states and tables that commands lead to from a fresh parser. -/
inductive Driven (start : Parser) : Parser → Tables → Prop
  | fresh : Driven start start .standard
  | perform {before after : Parser} {tables : Tables} {command : Command} {reply : Reply} :
      Driven start before tables → before.Performs command reply after →
      Driven start after (command.written tables)

/-- What holds of a parser between two commands. -/
structure Sound (source : Cursor) (tables : Tables) (parser : Parser) : Prop where
  stands : ∃ index, parser.StandsAt source index
  depth : parser.depth = 0
  /-- The tables say what the grammar says, so they are written for the same kinds. -/
  describe : tables.Describe parser.grammar
  keys (kind : Kind) : (tables.rule kind).isSome = (tables.strength kind).isSome
  present (floor : Precedence) (kind : Kind) : tables.turn floor kind ≠ .missing

/-- How a command leads from one state to the next. -/
structure Advances (source : Cursor) (tables : Tables) (command : Command) (reply : Reply)
    (before after : Parser) : Prop where
  stands {index : Nat} : before.StandsAt source index →
    ∃ later, index ≤ later ∧ after.StandsAt source later
  diagnostics : before.diagnostics.toList <+: after.diagnostics.toList
  lines : before.trace.lines <+: after.trace.lines
  /-- No level is taken back that is not there, and no operator is without its rule. -/
  checked : ∃ bound, command.on (.checked tables bound) before = some (reply, after)
  refused {kind : Kind} {index : Nat} : command = .expect kind → reply = .accepted false →
    before.StandsAt source index →
    after = before.reportAt (source.tokenAt (index + 1))
      (.unexpected kind (source.tokenAt (index + 1)).kind)

theorem Performs.describe {before after : Parser} {tables : Tables} {command : Command}
    {reply : Reply} (performs : before.Performs command reply after)
    (describe : tables.Describe before.grammar) :
    (command.written tables).Describe after.grammar := by
  obtain ⟨reads, appended⟩ | ⟨change, registers, rfl⟩ := performs.keeps keeps_appendsOnly
  · rw [appended.grammar]
    cases command with
    | setContinuation => cases reads
    | _ => exact describe
  · cases command with
    | setContinuation kind strength rule =>
      cases registers
      exact describe.register kind strength rule
    | setStart | setStatement =>
      cases registers
      exact ⟨describe.strength, describe.rule⟩
    | _ => cases registers

theorem Sound.of_describe {source : Cursor} {tables : Tables} {parser : Parser}
    (stands : ∃ index, parser.StandsAt source index) (depth : parser.depth = 0)
    (describe : tables.Describe parser.grammar) : parser.Sound source tables :=
  ⟨stands, depth, describe, describe.isSome_rule, describe.turn_ne_missing⟩

theorem Sound.advances {file text : String} {before after : Parser} {tables : Tables}
    {command : Command} {reply : Reply} (sound : before.Sound (.ofText file text) tables)
    (performs : before.Performs command reply after) :
    Advances (.ofText file text) tables command reply before after where
  stands := performs.proceeds.standsAt
  diagnostics := performs.proceeds.diagnostics
  lines := performs.proceeds.lines
  checked := performs.imp fun _ => on_checked sound.describe
  refused := by
    rintro kind index rfl rfl stands
    obtain ⟨bound, run⟩ := performs
    change some (Reply.accepted (before.expect kind).1, (before.expect kind).2) = _ at run
    rw [← stands.ahead]
    by_cases met : before.ahead.kind = kind
    · simp [Parser.expect, met] at run
    · simpa [Parser.expect, met, eq_comm] using run

/-- A command takes a sound state to a sound state. -/
theorem Sound.perform {file text : String} {before after : Parser} {tables : Tables}
    {command : Command} {reply : Reply} (sound : before.Sound (.ofText file text) tables)
    (performs : before.Performs command reply after) :
    after.Sound (.ofText file text) (command.written tables) := by
  obtain ⟨index, stands⟩ := sound.stands
  obtain ⟨later, -, there⟩ := performs.proceeds.standsAt stands
  exact .of_describe ⟨later, there⟩ (performs.proceeds.depth.trans sound.depth)
    (performs.describe sound.describe)

theorem Driven.sound {options : Options} {file text : String} {parser : Parser} {tables : Tables}
    (driven : Driven (start options (.ofText file text)) parser tables) :
    parser.Sound (.ofText file text) tables := by
  induction driven with
  | fresh =>
    exact .of_describe ⟨0, standsAt_start options file text⟩ rfl Tables.describe_standard
  | perform _ performs sound => exact sound.perform performs

theorem driven_advances {options : Options} {file text : String} {before after : Parser}
    {tables : Tables} {command : Command} {reply : Reply}
    (driven : Driven (start options (.ofText file text)) before tables)
    (performs : before.Performs command reply after) :
    before.Sound (.ofText file text) tables ∧
      Advances (.ofText file text) tables command reply before after ∧
      after.Sound (.ofText file text) (command.written tables) :=
  have sound := driven.sound
  ⟨sound, sound.advances performs, sound.perform performs⟩

set_option maxRecDepth 20000 in
/-- A rule is run on a token that it is not for, and a token is refused, while integers are
registered to continue expressions. -/
theorem driven_advances_refused :
    ∃ before after tables,
      Driven (start {} (.ofText "f" "let 1")) before tables ∧
      before.Performs (.expect .assign) (.accepted false) after ∧
      (∃ rule, tables.rule .int = some rule) ∧ before.diagnostics.size = 1 ∧
      before.Sound (.ofText "f" "let 1") tables ∧
      Advances (.ofText "f" "let 1") tables (.expect .assign) (.accepted false) before after ∧
      after.Sound (.ofText "f" "let 1") tables := by
  let fresh := start {} (.ofText "f" "let 1")
  let widened := fresh.regulate (.setContinuation .int .sum .call)
  let blamed := widened.reportAt widened.ahead (.unexpected .lparen .int)
  have registered : fresh.Performs (.setContinuation .int .sum .call) .done widened :=
    performs_of_perform rfl
  have misused : widened.Performs (.start .conditional) (.expression none) blamed :=
    performs_of_perform rfl
  have refused : blamed.Performs (.expect .assign) (.accepted false)
      (blamed.reportAt blamed.ahead (.unexpected .assign .int)) :=
    performs_of_perform rfl
  have driven := (Driven.fresh.perform registered).perform misused
  exact ⟨_, _, _, driven, refused, ⟨_, rfl⟩, rfl, driven_advances driven refused⟩

end Parser

end MonkeySyntax
