import MonkeySyntax.Proofs.Parsing.Depth
import MonkeySyntax.Proofs.Parsing.OutcomeRelations

/-! The lines of a trace are bracketed. Each line that ends something ends what was begun last and
not ended yet, under the same name and with the same indentation, which is one tab for everything
still open around it. A phrase leaves open what was open before it, whatever becomes of it, and the
depth of a parser counts the expressions that are open. -/
namespace MonkeySyntax

namespace Trace

/-- What the lines have begun and not ended, the innermost first. -/
inductive Open : List String → List String → Prop
  | nothing : Open [] []
  | begin {lines labels : List String} {label : String} : Open lines labels →
      Open (lines ++ [tabs labels.length ++ "BEGIN " ++ label]) (label :: labels)
  | finish {lines labels : List String} {label : String} : Open lines (label :: labels) →
      Open (lines ++ [tabs labels.length ++ "END " ++ label]) labels

/-- After any number of the lines, no more expressions are open than allowed. -/
def Bounded (limit : Nat) (lines : List String) : Prop :=
  ∀ count, ∃ labels, Open (lines.take count) labels ∧ labels.count "parse_expression" ≤ limit

theorem entry_begin (count : Nat) (label : String) :
    entry (tabs count ++ "BEGIN " ++ label) = ("BEGIN " ++ label).toList := by
  rw [String.append_assoc]
  exact entry_tabs count (by simp)

theorem entry_end (count : Nat) (label : String) :
    entry (tabs count ++ "END " ++ label) = ("END " ++ label).toList := by
  rw [String.append_assoc]
  exact entry_tabs count (by simp)

theorem begin_ne_end {count count' : Nat} {label label' : String} :
    tabs count ++ "BEGIN " ++ label ≠ tabs count' ++ "END " ++ label' := by
  intro same
  have said := congrArg entry same
  rw [entry_begin, entry_end] at said
  simp at said

theorem label_of_begin {count count' : Nat} {label label' : String}
    (same : tabs count ++ "BEGIN " ++ label = tabs count' ++ "BEGIN " ++ label') :
    label = label' := by
  have said := congrArg entry same
  rw [entry_begin, entry_begin, String.toList_inj] at said
  exact (String.append_right_inj _).mp said

namespace Open

variable {lines labels labels' : List String}

/-- The lines alone say what is open. -/
theorem unique (here : Open lines labels) (there : Open lines labels') : labels = labels' := by
  -- The last line tells by which rule it came there, since no line both begins and ends something.
  induction here generalizing labels' with
  | nothing =>
    generalize none : ([] : List String) = lines at there
    cases there with
    | nothing => rfl
    | begin | finish => simp at none
  | begin _ ih =>
    generalize all : _ ++ [_] = lines at there
    cases there with
    | nothing => simp at all
    | begin there =>
      obtain ⟨rfl, line⟩ := List.append_inj' all rfl
      rw [ih there, label_of_begin (List.head_eq_of_cons_eq line)]
    | finish there =>
      exact absurd (List.head_eq_of_cons_eq (List.append_inj' all rfl).2) begin_ne_end
  | finish _ ih =>
    generalize all : _ ++ [_] = lines at there
    cases there with
    | nothing => simp at all
    | begin there =>
      exact absurd (List.head_eq_of_cons_eq (List.append_inj' all rfl).2).symm begin_ne_end
    | finish there =>
      obtain ⟨rfl, -⟩ := List.append_inj' all rfl
      exact (List.cons.inj (ih there)).2

end Open

/-- A trace that is kept has these labels open, and has never had more expressions open than
allowed. -/
structure Brackets (limit : Nat) (labels : List String) (trace : Trace) : Prop where
  enabled : trace.enabled
  level : trace.level = labels.length
  opened : Open trace.lines labels
  few : labels.count "parse_expression" ≤ limit
  bounded : Bounded limit trace.lines

namespace Brackets

variable {limit : Nat} {labels : List String} {label line : String} {trace : Trace}

theorem bounded_push (brackets : trace.Brackets limit labels) {labels' : List String}
    (opened : Open (trace.lines ++ [line]) labels')
    (few : labels'.count "parse_expression" ≤ limit) : Bounded limit (trace.lines ++ [line]) := by
  intro count
  by_cases short : count ≤ trace.lines.length
  · rw [List.take_append_of_le_length short]
    exact brackets.bounded count
  · have all : (trace.lines ++ [line]).length ≤ count := by
      rw [List.length_append, List.length_singleton]
      omega
    rw [List.take_of_length_le all]
    exact ⟨labels', opened, few⟩

theorem enter (brackets : trace.Brackets limit labels)
    (few : (label :: labels).count "parse_expression" ≤ limit) :
    (trace.enter label).Brackets limit (label :: labels) := by
  have on := brackets.enabled
  have opened :
      Open (trace.lines ++ [tabs trace.level ++ "BEGIN " ++ label]) (label :: labels) := by
    rw [brackets.level]
    exact .begin brackets.opened
  have lines := lines_enter_of_enabled on label
  refine ⟨(enabled_enter trace label).trans on, ?_, lines ▸ opened, few,
    lines ▸ brackets.bounded_push opened few⟩
  rw [Trace.enter, if_pos on]
  exact congrArg (· + 1) brackets.level

theorem leave (brackets : trace.Brackets limit (label :: labels)) :
    (trace.leave label).Brackets limit labels := by
  have on := brackets.enabled
  have outer : trace.level - 1 = labels.length := by
    rw [brackets.level]
    rfl
  have opened : Open (trace.lines ++ [tabs (trace.level - 1) ++ "END " ++ label]) labels := by
    rw [outer]
    exact .finish brackets.opened
  have few : labels.count "parse_expression" ≤ limit :=
    Nat.le_trans List.count_le_count_cons brackets.few
  have lines := lines_leave_of_enabled on label
  refine ⟨(enabled_leave trace label).trans on, ?_, lines ▸ opened, few,
    lines ▸ brackets.bounded_push opened few⟩
  rw [Trace.leave, if_pos on]
  exact outer

end Brackets

end Trace

namespace Parser

/-- The parser is as deep as expressions are open. -/
structure Brackets (limit : Nat) (labels : List String) (parser : Parser) : Prop where
  trace : parser.trace.Brackets (limit + 1) labels
  depth : labels.count "parse_expression" = parser.depth
  allowed : parser.depth ≤ limit
  atLimit : parser.options.maxDepth = limit

/-- What was open is open again, however a phrase has ended. -/
def Rebrackets (before after : Parser) : Prop :=
  ∀ limit labels, before.Brackets limit labels → after.Brackets limit labels

theorem Rebrackets.traced {before after : Parser} {label : String}
    (other : label ≠ "parse_expression") (inside : (before.enter label).Rebrackets after) :
    before.Rebrackets (after.leave label) := by
  intro limit labels brackets
  have same : (label :: labels).count "parse_expression" = labels.count "parse_expression" :=
    List.count_cons_of_ne other
  have entered : (before.enter label).Brackets limit (label :: labels) :=
    ⟨brackets.trace.enter (same ▸ brackets.trace.few), same.trans brackets.depth, brackets.allowed,
      brackets.atLimit⟩
  have ended := inside limit _ entered
  exact ⟨ended.trace.leave, same.symm.trans ended.depth, ended.allowed, ended.atLimit⟩

theorem Rebrackets.expression {before after : Parser}
    (room : before.depth < before.options.maxDepth) (inside : before.opened.Rebrackets after) :
    before.Rebrackets after.closed := by
  intro limit labels brackets
  have more : ("parse_expression" :: labels).count "parse_expression" = before.depth + 1 := by
    rw [List.count_cons_self, brackets.depth]
  have allowed : before.depth + 1 ≤ limit := brackets.atLimit ▸ room
  have opened : before.opened.Brackets limit ("parse_expression" :: labels) :=
    ⟨brackets.trace.enter (by omega), more, allowed, brackets.atLimit⟩
  have ended := inside limit _ opened
  have depth : labels.count "parse_expression" + 1 = after.depth := by
    rw [← ended.depth, List.count_cons_self]
  have surfaced : labels.count "parse_expression" = after.depth - 1 := by omega
  exact ⟨ended.trace.leave, surfaced, Nat.le_trans (Nat.sub_le _ 1) ended.allowed, ended.atLimit⟩

/-- An expression that is refused was open in the trace all the same, one more than allowed. -/
theorem rebrackets_refused (before : Parser) : before.Rebrackets before.refused := by
  intro limit labels brackets
  have more : ("parse_expression" :: labels).count "parse_expression" ≤ limit + 1 := by
    rw [List.count_cons_self, brackets.depth]
    exact Nat.succ_le_succ brackets.allowed
  exact ⟨(brackets.trace.enter more).leave, brackets.depth, brackets.allowed, brackets.atLimit⟩

theorem outcomeRelations_rebrackets : OutcomeRelations Rebrackets Rebrackets where
  refl _ _ _ := id
  trans here there limit labels := there limit labels ∘ here limit labels
  lose here there limit labels := there limit labels ∘ here limit labels
  advance _ _ _ h := ⟨h.trace, h.depth, h.allowed, h.atLimit⟩
  reportAt _ _ _ _ _ h := ⟨h.trace, h.depth, h.allowed, h.atLimit⟩
  skip here limit labels before :=
    have h := here limit labels before
    ⟨h.trace, h.depth, h.allowed, h.atLimit⟩
  drop here limit labels before :=
    have h := here limit labels before
    ⟨h.trace, h.depth, h.allowed, h.atLimit⟩
  traced := .traced
  traced_lost := .traced
  expression := .expression
  expression_lost := .expression
  refused _ := rebrackets_refused _

theorem brackets_start (limit : Nat) (cursor : Cursor) :
    (start ⟨true, limit⟩ cursor).Brackets limit [] where
  trace :=
    ⟨rfl, rfl, .nothing, Nat.zero_le _, fun count =>
      ⟨[], by simpa [Trace.lines, start] using Trace.Open.nothing, Nat.zero_le _⟩⟩
  depth := rfl
  allowed := Nat.zero_le _
  atLimit := rfl

end Parser

/-- The trace of a text is well bracketed and leaves nothing open. After any number of its lines,
these say exactly what is open, and no more expressions are open than one above the depth
allowed. -/
theorem readText_trace_bracketed (limit : Nat) (file text : String) :
    Trace.Open (readText ⟨true, limit⟩ file text).trace [] ∧
    ∀ count, ∃ labels,
      (∀ labels', Trace.Open ((readText ⟨true, limit⟩ file text).trace.take count) labels' ↔
        labels' = labels) ∧
      labels.count "parse_expression" ≤ limit + 1 := by
  let start := Parser.start ⟨true, limit⟩ (.ofText file text)
  obtain ⟨program, after, run, _⟩ :=
    Parser.readProgram_finishes Grammar.grounded_standard (Parser.settled_start _ _)
  have ends := Parser.outcomeRelations_rebrackets.parse start.bound (.statements .program) start
  change start.readProgram.Meets _ _ True at ends
  rw [run] at ends
  have brackets := (ends limit [] (Parser.brackets_start limit _)).trace
  have parsed : (readText ⟨true, limit⟩ file text).trace = after.trace.lines := by
    rw [readText_of_built run]
    rfl
  rw [parsed]
  refine ⟨brackets.opened, fun count => ?_⟩
  obtain ⟨labels, opened, few⟩ := brackets.bounded count
  refine ⟨labels, fun labels' => ⟨fun opened' => opened'.unique opened, ?_⟩, few⟩
  rintro rfl
  exact opened

set_option maxRecDepth 20000 in
example : (readText ⟨true, 1⟩ "f" "-1").trace =
    ["BEGIN parse_expression_statement", "\tBEGIN parse_expression",
      "\t\tBEGIN parse_prefix_expression", "\t\t\tBEGIN parse_expression",
      "\t\t\tEND parse_expression", "\t\tEND parse_prefix_expression", "\tEND parse_expression",
      "END parse_expression_statement"] := rfl

end MonkeySyntax
