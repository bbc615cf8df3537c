import Mathlib.Data.Nat.Find
import MonkeySyntax.Proofs.Diagnostic.Blame
import MonkeySyntax.Proofs.Parsing.Fork

/-! The depth allowed is a threshold. Two runs that allow different depths are alike until the first
of them refuses an expression; there the trace of the second has one more expression open than the
first allows. So the least depth at which nothing is refused is the deepest nesting of expressions
in the trace, and from it on the depth allowed does not matter. -/
namespace MonkeySyntax

def Fault.isTooDeep : Fault → Bool
  | .tooDeep _ => true
  | _ => false

namespace Trace

/-- What a line says, without its indentation. -/
def entry (line : String) : List Char := line.toList.dropWhile (· = '\t')

/-- The expressions open behind a line. -/
def openBehind (before : Nat) (line : String) : Nat :=
  if entry line = "BEGIN parse_expression".toList then before + 1
  else if entry line = "END parse_expression".toList then before - 1
  else before

def openAfter (lines : List String) : Nat := lines.foldl openBehind 0

def nestingFrom : Nat → List String → Nat
  | before, [] => before
  | before, line :: lines => max before (nestingFrom (openBehind before line) lines)

/-- The most expressions open at once. -/
def nesting (lines : List String) : Nat := nestingFrom 0 lines

theorem nestingFrom_append (before : Nat) (lines more : List String) :
    nestingFrom before (lines ++ more) =
      max (nestingFrom before lines) (nestingFrom (lines.foldl openBehind before) more) := by
  induction lines generalizing before with
  | nil =>
    cases more with
    | nil => exact (max_self before).symm
    | cons line more => exact (max_eq_right (le_max_left _ _)).symm
  | cons line lines ih =>
    simp only [List.cons_append, nestingFrom, ih, List.foldl_cons, max_assoc]

theorem openAfter_le_nestingFrom (before : Nat) (lines : List String) :
    lines.foldl openBehind before ≤ nestingFrom before lines := by
  induction lines generalizing before with
  | nil => exact Nat.le_refl before
  | cons line lines ih => exact Nat.le_trans (ih _) (le_max_right _ _)

theorem openAfter_le_nesting (lines : List String) : openAfter lines ≤ nesting lines :=
  openAfter_le_nestingFrom 0 lines

theorem openAfter_append_singleton (lines : List String) (line : String) :
    openAfter (lines ++ [line]) = openBehind (openAfter lines) line := by
  rw [openAfter, List.foldl_append]
  rfl

theorem nesting_append_singleton (lines : List String) (line : String) :
    nesting (lines ++ [line]) = max (nesting lines) (openAfter (lines ++ [line])) := by
  have before := openAfter_le_nesting lines
  rw [openAfter_append_singleton, nesting, nestingFrom_append, ← openAfter, ← nesting]
  simp only [nestingFrom]
  omega

theorem nesting_le_of_prefix {lines more : List String} (begins : lines <+: more) :
    nesting lines ≤ nesting more := by
  obtain ⟨rest, rfl⟩ := begins
  rw [nesting, nesting, nestingFrom_append]
  exact le_max_left _ _

theorem entry_tabs {word : String} (count : Nat) (solid : word.toList.head? ≠ some '\t') :
    entry (tabs count ++ word) = word.toList := by
  rw [entry, tabs, String.toList_append, String.toList_ofList]
  induction count with
  | zero =>
    cases letters : word.toList with
    | nil => rfl
    | cons first letters' =>
      rw [letters] at solid
      simpa using solid
  | succ count ih => simpa [List.replicate_succ] using ih

theorem openBehind_begin (before count : Nat) (label : String) :
    openBehind before (tabs count ++ "BEGIN " ++ label) =
      if label = "parse_expression" then before + 1 else before := by
  have solid : ("BEGIN " ++ label).toList.head? ≠ some '\t' := by simp
  have begins : ("BEGIN " ++ label).toList = "BEGIN parse_expression".toList ↔
      label = "parse_expression" := by
    rw [String.toList_inj, show "BEGIN parse_expression" = "BEGIN " ++ "parse_expression" from rfl]
    exact String.append_right_inj _
  have ends : ("BEGIN " ++ label).toList ≠ "END parse_expression".toList := by simp
  rw [openBehind, String.append_assoc, entry_tabs count solid, if_neg ends]
  simp only [begins]

theorem openBehind_end (before count : Nat) (label : String) :
    openBehind before (tabs count ++ "END " ++ label) =
      if label = "parse_expression" then before - 1 else before := by
  have solid : ("END " ++ label).toList.head? ≠ some '\t' := by simp
  have begins : ("END " ++ label).toList ≠ "BEGIN parse_expression".toList := by simp
  have ends : ("END " ++ label).toList = "END parse_expression".toList ↔
      label = "parse_expression" := by
    rw [String.toList_inj, show "END parse_expression" = "END " ++ "parse_expression" from rfl]
    exact String.append_right_inj _
  rw [openBehind, String.append_assoc, entry_tabs count solid, if_neg begins]
  simp only [ends]

section

variable {trace : Trace}

theorem enabled_enter (trace : Trace) (label : String) :
    (trace.enter label).enabled = trace.enabled := by
  rw [enter]
  split <;> rfl

theorem enabled_leave (trace : Trace) (label : String) :
    (trace.leave label).enabled = trace.enabled := by
  rw [leave]
  split <;> rfl

theorem lines_enter_of_enabled (on : trace.enabled) (label : String) :
    (trace.enter label).lines = trace.lines ++ [tabs trace.level ++ "BEGIN " ++ label] := by
  rw [enter, if_pos on]
  exact Array.toList_push

theorem lines_leave_of_enabled (on : trace.enabled) (label : String) :
    (trace.leave label).lines = trace.lines ++ [tabs (trace.level - 1) ++ "END " ++ label] := by
  rw [leave, if_pos on]
  exact Array.toList_push

end

/-- So many expressions are open, no more than allowed, and a trace that is kept shows them. -/
structure Nested (limit depth : Nat) (trace : Trace) : Prop where
  allowed : depth ≤ limit
  opened : trace.enabled → openAfter trace.lines = depth
  within : trace.enabled → nesting trace.lines ≤ limit

namespace Nested

variable {limit depth count : Nat} {trace : Trace} {label : String}
  (h : trace.Nested limit depth)
include h

theorem push {after : Trace} {line : String} (same : after.enabled = trace.enabled)
    (lines : trace.enabled → after.lines = trace.lines ++ [line])
    (counts : openBehind depth line = count) (allowed : count ≤ limit) :
    after.Nested limit count := by
  have opened (on : trace.enabled) : openAfter after.lines = count := by
    rw [lines on, openAfter_append_singleton, h.opened on, counts]
  refine ⟨allowed, fun on => opened (same ▸ on), fun on => ?_⟩
  have here := opened (same ▸ on)
  rw [lines (same ▸ on)] at here ⊢
  rw [nesting_append_singleton, here]
  exact max_le (h.within (same ▸ on)) allowed

theorem enter (counts : (if label = "parse_expression" then depth + 1 else depth) = count)
    (allowed : count ≤ limit) : (trace.enter label).Nested limit count :=
  h.push (enabled_enter trace label) (fun on => lines_enter_of_enabled on label)
    ((openBehind_begin depth trace.level label).trans counts) allowed

theorem leave (counts : (if label = "parse_expression" then depth - 1 else depth) = count) :
    (trace.leave label).Nested limit count := by
  have allowed := h.allowed
  refine h.push (enabled_leave trace label) (fun on => lines_leave_of_enabled on label)
    ((openBehind_end depth (trace.level - 1) label).trans counts) ?_
  split at counts <;> omega

/-- Where an expression is begun too deep, the trace shows it. -/
theorem lt_nesting (on : trace.enabled) :
    depth < nesting (trace.enter "parse_expression").lines := by
  have behind := openAfter_le_nesting (trace.enter "parse_expression").lines
  rw [lines_enter_of_enabled on, openAfter_append_singleton, openBehind_begin,
    h.opened on] at behind
  rwa [lines_enter_of_enabled on]

end Nested

end Trace

namespace Parser

/-- The two differ in nothing but the depth allowed, and neither has been refused anything. -/
structure Deeper (traced : Bool) (limit more depth : Nat) (one other : Parser) : Prop where
  same : other = { one with options := { one.options with maxDepth := more } }
  atLimit : one.options.maxDepth = limit
  atDepth : one.depth = depth
  traced : one.trace.enabled = traced
  nested : one.trace.Nested limit depth

theorem deeper_start {traced : Bool} {limit more : Nat} (cursor : Cursor) :
    Deeper traced limit more 0 (start ⟨traced, limit⟩ cursor) (start ⟨traced, more⟩ cursor) :=
  ⟨rfl, rfl, rfl, rfl, Nat.zero_le _, fun _ => rfl, fun _ => Nat.zero_le _⟩

end Parser

open MonkeySyntax.Parser

/-- Runs that allow different depths. Whatever else they do, they see the same. -/
def Fork.deeper (left right : ι → TokenAssertions) (traced : Bool) (limit more depth : Nat) :
    Fork left right where
  alike := Deeper traced limit more depth
  terminal := by
    rintro _ _ ⟨rfl, _, _, _, _⟩
    rfl
  grammar := by
    rintro _ _ ⟨rfl, _, _, _, _⟩
    rfl
  drop := by
    rintro _ _ ⟨rfl, atLimit, atDepth, traced, nested⟩
    exact ⟨rfl, atLimit, atDepth, traced, nested⟩
  report _ := by
    rintro ⟨rfl, atLimit, atDepth, traced, nested⟩
    exact ⟨rfl, atLimit, atDepth, traced, nested⟩
  enter other := by
    rintro ⟨rfl, atLimit, atDepth, traced, nested⟩
    exact ⟨rfl, atLimit, atDepth, (Trace.enabled_enter _ _).trans traced,
      nested.enter (if_neg other) nested.allowed⟩
  leave other := by
    rintro ⟨rfl, atLimit, atDepth, traced, nested⟩
    exact ⟨rfl, atLimit, atDepth, (Trace.enabled_leave _ _).trans traced,
      nested.leave (if_neg other)⟩
  ahead := by
    rintro _ _ ⟨rfl, atLimit, atDepth, traced, nested⟩
    exact .inl ⟨rfl, ⟨rfl, atLimit, atDepth, traced, nested⟩,
      fun _ => ⟨rfl, atLimit, atDepth, traced, nested⟩⟩

section

variable {left right : ι → TokenAssertions} {traced : Bool} {limit more depth : Nat}

theorem Fork.deeper_opens (less : limit < more)
    (refused : ∀ {one other : Parser}, one.Deeper traced limit more depth other → depth = limit →
      ∃ i, (left i).lost one.refused ∧ (right i).reached other.opened) :
    (Fork.deeper left right traced limit more depth).Opens
      (.deeper left right traced limit more (depth + 1)) where
  opened {one other} related room := by
    obtain ⟨rfl, atLimit, atDepth, traced, nested⟩ := related
    rw [atLimit, atDepth] at room
    refine ⟨?_, rfl, atLimit, congrArg (· + 1) atDepth, (Trace.enabled_enter _ _).trans traced,
      nested.enter (if_pos rfl) room⟩
    change one.depth < more
    omega
  closed {one other} related := by
    obtain ⟨rfl, atLimit, atDepth, traced, nested⟩ := related
    exact ⟨rfl, atLimit, congrArg (· - 1) atDepth, (Trace.enabled_leave _ _).trans traced,
      nested.leave (if_pos rfl)⟩
  refused {one other} related deep := by
    have allowed := related.nested.allowed
    rw [related.atLimit, related.atDepth] at deep
    refine .inr ⟨?_, refused related (Nat.le_antisymm allowed deep)⟩
    obtain ⟨rfl, _, atDepth, _, _⟩ := related
    change one.depth < more
    omega

/-- While the recursion is bounded by the depth left, nothing is refused and the runs never part. -/
theorem Parse.Forks.shallow (traced : Bool) (less : limit < more) (bound : Nat) :
    (Parts.within bound).AllSatisfy fun stage step => ∀ depth, depth + bound ≤ limit →
      step.Forks (.deeper (Empty.elim : Empty → TokenAssertions) Empty.elim traced limit more depth)
        stage :=
  within (Fork.deeper _ _ traced limit more) (fun bound depth => depth + bound ≤ limit)
    Nat.le_of_succ_le
    (fun room => ⟨by omega, Fork.deeper_opens less fun _ full => by omega⟩) bound

end

namespace Parser

/-- What two runs have recorded when the first is refused an expression and the second goes on. -/
structure Refusal (traced : Bool) (limit : Nat) where
  before : List Diagnostic
  refusal : Diagnostic
  refuses : refusal.fault = .tooDeep limit
  lines : List String
  deeper : traced → limit < Trace.nesting lines

variable {traced : Bool} {limit more depth : Nat} {one other : Parser}

theorem Deeper.refused (related : one.Deeper traced limit more depth other) (full : depth = limit) :
    ∃ r : Refusal traced limit,
      one.refused.Records (r.before ++ [r.refusal]) [] ∧
      other.opened.Records r.before r.lines := by
  obtain ⟨rfl, atLimit, atDepth, traced, nested⟩ := related
  let refusal : Diagnostic :=
    ⟨.tooDeep one.options.maxDepth, one.current.span.file, one.current.span.start⟩
  refine ⟨⟨one.diagnostics.toList, refusal, congrArg Fault.tooDeep atLimit,
    (one.trace.enter "parse_expression").lines, fun on => ?_⟩, ⟨?_, List.nil_prefix⟩,
    List.prefix_refl _, List.prefix_refl _⟩
  · rw [← full]
    exact nested.lt_nesting (traced.trans on)
  · exact (toList_reportAt _ _ _) ▸ List.prefix_refl _

end Parser

/-- Either run keeps what was recorded when the two parted. -/
theorem Parse.Forks.refusing (traced : Bool) {limit more : Nat} (less : limit < more)
    (bound : Nat) :
    (Parts.within bound).AllSatisfy fun stage step => ∀ depth, True →
      step.Forks (.deeper
        (fun r : Refusal traced limit => .recording (r.before ++ [r.refusal]) [])
        (fun r => .recording r.before r.lines) traced limit more depth) stage :=
  within (Fork.deeper _ _ traced limit more) (fun _ _ => True) id
    (fun _ => ⟨trivial, Fork.deeper_opens less fun related full => related.refused full⟩) bound

/-- The same but for the trace. -/
def Parser.Retraced (one other : Parser) : Prop :=
  ∃ trace traced,
    other = { one with trace := trace, options := { one.options with trace := traced } }

theorem Parser.simulation_retraced : Simulation Retraced where
  current := by
    rintro _ _ ⟨_, _, rfl⟩
    rfl
  ahead := by
    rintro _ _ ⟨_, _, rfl⟩
    rfl
  grammar := by
    rintro _ _ ⟨_, _, rfl⟩
    rfl
  depth := by
    rintro _ _ ⟨_, _, rfl⟩
    rfl
  limit := by
    rintro _ _ ⟨_, _, rfl⟩
    rfl
  advance := by
    rintro _ _ ⟨_, _, rfl⟩
    exact ⟨_, _, rfl⟩
  drop := by
    rintro _ _ ⟨_, _, rfl⟩
    exact ⟨_, _, rfl⟩
  reportCurrent _ := by
    rintro ⟨_, _, rfl⟩
    exact ⟨_, _, rfl⟩
  reportAhead _ := by
    rintro ⟨_, _, rfl⟩
    exact ⟨_, _, rfl⟩
  enter _ := by
    rintro ⟨_, _, rfl⟩
    exact ⟨_, _, rfl⟩
  leave _ := by
    rintro ⟨_, _, rfl⟩
    exact ⟨_, _, rfl⟩
  deepen := by
    rintro _ _ ⟨_, _, rfl⟩
    exact ⟨_, _, rfl⟩
  surface := by
    rintro _ _ ⟨_, _, rfl⟩
    exact ⟨_, _, rfl⟩

/-- No expression was refused. -/
def Parsed.Unrefused (parsed : Parsed) : Prop :=
  ∀ diagnostic ∈ parsed.diagnostics, diagnostic.fault.isTooDeep = false

theorem Parsed.not_unrefused {parsed : Parsed} {before after : List Diagnostic}
    {refusal : Diagnostic} {limit : Nat}
    (recorded : parsed.diagnostics = before ++ refusal :: after)
    (refuses : refusal.fault = .tooDeep limit) : ¬ parsed.Unrefused := by
  intro unrefused
  have quiet := unrefused refusal (by simp [recorded])
  rw [refuses] at quiet
  cases quiet

section

variable {file text : String} {traced : Bool} {limit more : Nat}

theorem readText_retraced (traced traced' : Bool) (limit : Nat) (file text : String) :
    (readText ⟨traced, limit⟩ file text).program =
        (readText ⟨traced', limit⟩ file text).program ∧
      (readText ⟨traced, limit⟩ file text).diagnostics =
        (readText ⟨traced', limit⟩ file text).diagnostics := by
  let cursor := Cursor.ofText file text
  have related : (start ⟨traced, limit⟩ cursor).Retraced (start ⟨traced', limit⟩ cursor) :=
    ⟨_, traced', rfl⟩
  have follows := simulation_retraced.within (Nat.le_refl (start ⟨traced, limit⟩ cursor).bound)
    (.statements .program) _ _ related
  change (start ⟨traced, limit⟩ cursor).readProgram.Follows _
    (start ⟨traced', limit⟩ cursor).readProgram at follows
  obtain ⟨program, after, run, _⟩ :=
    readProgram_finishes Grammar.grounded_standard (settled_start ⟨traced, limit⟩ cursor)
  rw [run] at follows
  generalize run' : (start ⟨traced', limit⟩ cursor).readProgram = outcome at follows
  cases follows with
  | built same =>
    obtain ⟨_, _, rfl⟩ := same
    rw [readText_of_built run, readText_of_built run']
    exact ⟨rfl, rfl⟩

/-- Only the depth allowed is ever reported to be exceeded. -/
theorem readText_tooDeep {options : Options} {diagnostic : Diagnostic}
    (member : diagnostic ∈ (readText options file text).diagnostics)
    (deep : diagnostic.fault.isTooDeep) : diagnostic.fault = .tooDeep options.maxDepth := by
  obtain ⟨token, _, blames⟩ := (readText_ledger options file text).blames diagnostic member
  have fits := blames.fits
  generalize diagnostic.fault = fault at fits deep
  cases fits with
  | tooDeep => rfl
  | noStart | unexpected | integerRange => cases deep

theorem unrefused_of_eq (less : limit < more)
    (same : readText ⟨traced, more⟩ file text = readText ⟨traced, limit⟩ file text) :
    (readText ⟨traced, limit⟩ file text).Unrefused := by
  intro diagnostic member
  refine Bool.eq_false_iff.mpr fun deep => ?_
  have here := readText_tooDeep member deep
  rw [← same] at member
  have there := readText_tooDeep member deep
  have equal : limit = more := Fault.tooDeep.inj (here.symm.trans there)
  omega

theorem readText_shallow (less : limit < more)
    (enough : 4 * (Cursor.ofText file text).tokens.length + 3 ≤ limit) :
    readText ⟨traced, more⟩ file text = readText ⟨traced, limit⟩ file text := by
  have forks := (Parse.Forks.shallow traced less (4 * (Cursor.ofText file text).tokens.length + 3)
    ).statements .program 0 (by omega)
  have fork := forks.readText (deeper_start (Cursor.ofText file text))
  rcases fork (Nat.le_refl _) (Nat.le_refl _) with
    ⟨program, after, _, ⟨rfl, _⟩, here, there⟩ | ⟨i, _⟩
  · rw [here, there]
    rfl
  · exact i.elim

theorem readText_deeper (traced : Bool) (less : limit < more) :
    (readText ⟨traced, more⟩ file text = readText ⟨traced, limit⟩ file text ∧
      (traced → Trace.nesting (readText ⟨traced, limit⟩ file text).trace ≤ limit)) ∨
    ∃ before refusal after,
      (readText ⟨traced, limit⟩ file text).diagnostics = before ++ refusal :: after ∧
      refusal.fault = .tooDeep limit ∧
      before <+: (readText ⟨traced, more⟩ file text).diagnostics ∧
      (traced → limit < Trace.nesting (readText ⟨traced, more⟩ file text).trace) := by
  have forks := (Parse.Forks.refusing traced less (4 * (Cursor.ofText file text).tokens.length + 3)
    ).statements .program 0 trivial
  have fork := forks.readText (deeper_start (Cursor.ofText file text))
  rcases fork (Nat.le_refl _) (Nat.le_refl _) with
    ⟨program, after, _, ⟨rfl, _, _, same, nested⟩, here, there⟩ |
    ⟨r, program, program', after, after', first, second, here, there⟩
  · rw [here, there]
    exact .inl ⟨rfl, fun on => nested.within (same.trans on)⟩
  · rw [here, there]
    obtain ⟨later, recorded⟩ := first.diagnostics
    refine .inr ⟨r.before, r.refusal, later, ?_, r.refuses, second.diagnostics, fun on => ?_⟩
    · rw [List.append_assoc] at recorded
      exact recorded.symm
    · exact Nat.lt_of_lt_of_le (r.deeper on) (Trace.nesting_le_of_prefix second.lines)

/-- A depth at which nothing is refused might as well be unlimited. -/
theorem readText_of_unrefused (le : limit ≤ more)
    (unrefused : (readText ⟨traced, limit⟩ file text).Unrefused) :
    readText ⟨traced, more⟩ file text = readText ⟨traced, limit⟩ file text := by
  rcases Nat.lt_or_eq_of_le le with less | rfl
  · rcases readText_deeper traced less with ⟨same, _⟩ | ⟨_, refusal, _, recorded, refuses, _⟩
    · exact same
    · exact absurd unrefused (Parsed.not_unrefused recorded refuses)
  · rfl

theorem readText_of_refused (less : limit < more)
    (refused : ¬ (readText ⟨traced, limit⟩ file text).Unrefused) :
    ∃ before refusal after,
      (readText ⟨traced, limit⟩ file text).diagnostics = before ++ refusal :: after ∧
      refusal.fault = .tooDeep limit ∧
      before <+: (readText ⟨traced, more⟩ file text).diagnostics ∧
      (traced → limit < Trace.nesting (readText ⟨traced, more⟩ file text).trace) :=
  (readText_deeper traced less).resolve_left fun same => refused (unrefused_of_eq less same.1)

theorem unrefused_retraced {traced' : Bool} :
    (readText ⟨traced, limit⟩ file text).Unrefused ↔
      (readText ⟨traced', limit⟩ file text).Unrefused := by
  rw [Parsed.Unrefused, (readText_retraced traced traced' limit file text).2, Parsed.Unrefused]

theorem exists_least_unrefused (file text : String) :
    ∃ threshold, (readText ⟨true, threshold⟩ file text).Unrefused ∧
      ∀ limit < threshold, ¬ (readText ⟨true, limit⟩ file text).Unrefused := by
  classical
  have shallow : ∃ limit, (readText ⟨true, limit⟩ file text).Unrefused :=
    ⟨_, unrefused_of_eq (Nat.lt_succ_self _)
      (readText_shallow (Nat.lt_succ_self _) (Nat.le_refl _))⟩
  exact ⟨Nat.find shallow, Nat.find_spec shallow, fun limit less => Nat.find_min shallow less⟩

/-- The least depth at which nothing is refused is reached. -/
theorem nesting_of_least {threshold : Nat}
    (unrefused : (readText ⟨true, threshold⟩ file text).Unrefused)
    (least : ∀ limit < threshold, ¬ (readText ⟨true, limit⟩ file text).Unrefused) :
    Trace.nesting (readText ⟨true, threshold⟩ file text).trace = threshold := by
  apply Nat.le_antisymm
  · rcases readText_deeper true (Nat.lt_succ_self threshold) with
      ⟨_, within⟩ | ⟨_, refusal, _, recorded, refuses, _⟩
    · exact within rfl
    · exact absurd unrefused (Parsed.not_unrefused recorded refuses)
  · cases threshold with
    | zero => exact Nat.zero_le _
    | succ limit =>
      have less := Nat.lt_succ_self limit
      obtain ⟨_, _, _, _, _, _, deeper⟩ := readText_of_refused less (least limit less)
      exact deeper rfl

end

/-- For each text there is a threshold, the deepest nesting of expressions that its trace shows
there. From it on the depth allowed makes no difference to anything that is read or recorded, and
nothing is refused; below it something is refused, and what is recorded before is recorded at the
threshold too. A greater depth never changes what was read without a refusal. -/
theorem readText_depth_threshold (file text : String) : ∃ threshold,
    (∀ traced limit, threshold ≤ limit →
      readText ⟨traced, limit⟩ file text = readText ⟨traced, threshold⟩ file text ∧
      (readText ⟨traced, limit⟩ file text).Unrefused) ∧
    (∀ traced limit, limit < threshold → ∃ before refusal after,
      (readText ⟨traced, limit⟩ file text).diagnostics = before ++ refusal :: after ∧
      refusal.fault = .tooDeep limit ∧
      (∀ diagnostic ∈ before, diagnostic.fault.isTooDeep = false) ∧
      before <+: (readText ⟨traced, threshold⟩ file text).diagnostics) ∧
    Trace.nesting (readText ⟨true, threshold⟩ file text).trace = threshold ∧
    ∀ traced limit more, limit ≤ more → (readText ⟨traced, limit⟩ file text).Unrefused →
      readText ⟨traced, more⟩ file text = readText ⟨traced, limit⟩ file text := by
  obtain ⟨threshold, unrefused, least⟩ := exists_least_unrefused file text
  have quiet (traced : Bool) : (readText ⟨traced, threshold⟩ file text).Unrefused :=
    unrefused_retraced.mp unrefused
  refine ⟨threshold, fun traced limit le => ?_, fun traced limit less => ?_,
    nesting_of_least unrefused least, fun traced limit more => readText_of_unrefused⟩
  · have same := readText_of_unrefused le (quiet traced)
    rw [same]
    exact ⟨rfl, quiet traced⟩
  · have refused : ¬ (readText ⟨traced, limit⟩ file text).Unrefused :=
      mt unrefused_retraced.mp (least limit less)
    obtain ⟨before, refusal, after, recorded, refuses, earlier, _⟩ :=
      readText_of_refused less refused
    exact ⟨before, refusal, after, recorded, refuses,
      fun diagnostic member => quiet traced diagnostic (earlier.subset member), earlier⟩

set_option maxRecDepth 20000 in
example : Trace.nesting (readText ⟨true, 3⟩ "f" "-(x)").trace = 3 ∧
    (readText ⟨false, 2⟩ "f" "-(x)").diagnostics =
      [⟨.tooDeep 2, "f", 2⟩, ⟨.noStart .rparen, "f", 3⟩] := ⟨rfl, rfl⟩

end MonkeySyntax
