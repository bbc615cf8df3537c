import MonkeySyntax.Proofs.Parsing.Braces
import MonkeySyntax.Proofs.Parsing.Soundness
import MonkeySyntax.Proofs.Parsing.Termination

/-! Readings carried over to another input. Semicolons, closing braces and parentheses and the end
of the input are alike to an expression, which stops at each of them, and all but the parenthesis
are alike to a return. So two inputs may differ in where these stand, and still be read as the same
tree, as long as each block that one of them ends is ended by the other. The relation between the
inputs is arbitrary; it knows how many blocks are open, and each clause takes one terminal off both
inputs or lets them end something in their own ways. -/
namespace MonkeySyntax

open Grammar (standard)

/-- Stops every expression. -/
def Kind.Stops (kind : Kind) : Prop := kind ∈ [.semicolon, .rbrace, .rparen, .eof]

instance : DecidablePred Kind.Stops := fun _ => inferInstanceAs (Decidable (_ ∈ _))

/-- Ends and opens nothing. -/
def Kind.Inner (kind : Kind) : Prop := kind.Plain ∧ kind ≠ .eof

instance : DecidablePred Kind.Inner := fun _ => inferInstanceAs (Decidable (_ ∧ _))

namespace Grammar

variable {kind : Kind}

theorem inner_of_start {rule : StartRule} (found : standard.start kind = some rule) :
    kind.Inner := ⟨plain_of_start found, grounded_standard.ne_eof_of_start found⟩

theorem inner_of_tighter {floor : Precedence} {rule : ContinuationRule}
    (found : standard.tighter? floor kind = some rule) : kind.Inner :=
  ⟨plain_of_tighter found, grounded_standard.ne_eof_of_tighter found⟩

theorem inner_of_statement {rule : StatementRule} (found : standard.statement kind = some rule) :
    kind.Inner := ⟨plain_of_statement found, grounded_standard.ne_eof_of_statement found⟩

theorem tighter?_of_stops (stops : kind.Stops) (floor : Precedence) :
    standard.tighter? floor kind = none := by
  cases kind <;> first | rfl | exact absurd stops (by decide)

theorem statementRule_of_stops (stops : kind.Stops) :
    standard.statementRule kind = .expression := by
  cases kind <;> first | rfl | exact absurd stops (by decide)

end Grammar

theorem Kind.stops_of_endsReturn {kind : Kind} (ends : Parts.endsReturn kind) : kind.Stops := by
  cases kind <;> first | decide | cases ends

theorem Kind.Inner.not_endsReturn {kind : Kind} (inner : kind.Inner) :
    Parts.endsReturn kind = false := by
  cases kind <;> first | rfl | exact absurd inner (by decide)

namespace Phrase

/-- A rule that takes its first terminal unseen is run on one that ends and opens nothing. -/
def Grasps (kind : Kind) : Phrase form → Prop
  | .start _ | .extend _ _ | .statementBy .binding | .statementBy .returning => kind.Inner
  | _ => True

theorem grasps_statementBy (kind : Kind) :
    (Phrase.statementBy (standard.statementRule kind)).Grasps kind := by
  rw [Grammar.statementRule]
  cases found : standard.statement kind with
  | none => trivial
  | some rule =>
    cases rule with
    | any | expression => trivial
    | binding | returning => exact Grammar.inner_of_statement found

/-- How many blocks are open before a phrase and behind it. Where statements are not read anywhere
but in blocks, at least one is open around each of them. -/
def Stands (anywhere : Prop) (before after : Nat) : Phrase form → Prop
  | .block | .statements .block => before = after + 1
  | .statements .program => before = after ∧ after = 0 ∧ anywhere
  | .statement | .statementBy _ => before = after ∧ (anywhere ∨ 0 < after)
  | _ => before = after

theorem Stands.within {anywhere : Prop} {before after : Nat} {extent : Extent}
    (stands : (statements extent).Stands anywhere before after) : anywhere ∨ 0 < before := by
  cases extent with
  | program => exact .inl stands.2.2
  | block => exact .inr (stands ▸ Nat.succ_pos after)

end Phrase

theorem passSemicolon_of_ne {input : List Terminal} (apart : headKind input ≠ .semicolon) :
    passSemicolon input = input := by
  cases input with
  | nil => rfl
  | cons first rest => exact if_neg apart

namespace Reads

variable {input rest : List Terminal}

theorem expression_inner {floor : Precedence} {value : Expr}
    (reads : Reads standard room (.expression floor) input value rest) :
    (headKind input).Inner := by
  cases reads with
  | expression found => exact Grammar.inner_of_start found

theorem items_inner {items : Items item} {list : List item.Tree}
    (reads : Reads standard room (.items items) input list rest) : (headKind input).Inner := by
  cases reads with
  | lastParameter is | parameter is =>
    rw [headKind_cons, is]
    decide
  | lastArgument reads | argument reads => exact reads.expression_inner

theorem statement_inner {value : Stmt} (reads : Reads standard room .statement input value rest) :
    (headKind input).Inner := by
  cases reads with
  | statement reads =>
    have grasps := Phrase.grasps_statementBy (headKind input)
    generalize standard.statementRule (headKind input) = rule at reads grasps
    cases reads with
    | binding | bareReturn | returning => exact grasps
    | expressionStatement reads => exact reads.expression_inner

end Reads

/-- What may stand for the rest of an input inside so many open blocks. -/
structure Variation (anywhere : Prop) (R : Nat → List Terminal → List Terminal → Prop) : Prop where
  inner {depth : Nat} {first : Terminal} {rest other : List Terminal} : first.kind.Inner →
    R depth (first :: rest) other → ∃ rest', other = first :: rest' ∧ R depth rest rest'
  opening {depth : Nat} {first : Terminal} {rest other : List Terminal} : first.kind = .lbrace →
    R depth (first :: rest) other → ∃ rest', other = first :: rest' ∧ R (depth + 1) rest rest'
  closing {depth : Nat} {first : Terminal} {rest other : List Terminal} : first.kind = .rbrace →
    R (depth + 1) (first :: rest) other → ∃ rest', other = first :: rest' ∧ R depth rest rest'
  /-- A block that was open at the end of the input. -/
  unclosed {depth : Nat} {last : Terminal} {other : List Terminal} : last.kind = .eof →
    R (depth + 1) [last] other → ∃ rest', R depth [last] rest' ∧
      ∀ room, Reads standard room (.statements .block) other [] rest'
  ended {last : Terminal} {other : List Terminal} : anywhere → last.kind = .eof →
    R 0 [last] other → ∃ last', other = [last'] ∧ last'.kind = .eof
  stops {depth : Nat} {input other : List Terminal} : R depth input other →
    Parts.endsReturn (headKind input) → (headKind other).Stops
  returns {depth : Nat} {input other : List Terminal} : anywhere ∨ 0 < depth →
    R depth input other → Parts.endsReturn (headKind input) → Parts.endsReturn (headKind other)
  pass {depth : Nat} {input other : List Terminal} : anywhere ∨ 0 < depth → R depth input other →
    R depth (passSemicolon input) (passSemicolon other)

namespace Variation

variable {anywhere : Prop} {R : Nat → List Terminal → List Terminal → Prop}
  (v : Variation anywhere R) {depth : Nat} {input other : List Terminal}
include v

theorem head_of_not_ends (related : R depth input other)
    (goes : Parts.endsReturn (headKind input) = false) : headKind other = headKind input := by
  cases input with
  | nil => cases goes
  | cons first rest =>
    by_cases brace : first.kind = .lbrace
    · obtain ⟨_, rfl, _⟩ := v.opening brace related
      rfl
    · have inner : first.kind.Inner := by
        rw [headKind_cons] at goes
        generalize first.kind = kind at goes brace
        cases kind <;> first | decide | exact absurd rfl brace | cases goes
      obtain ⟨_, rfl, _⟩ := v.inner inner related
      rfl

theorem head_of_inner (related : R depth input other) (inner : (headKind input).Inner) :
    headKind other = headKind input := v.head_of_not_ends related inner.not_endsReturn

/-- Where the heads differ, both inputs end something. -/
theorem head_cases (related : R depth input other) :
    headKind other = headKind input ∨
      (headKind input).Stops ∧ (headKind other).Stops := by
  by_cases ends : Parts.endsReturn (headKind input)
  · exact .inr ⟨Kind.stops_of_endsReturn ends, v.stops related ends⟩
  · exact .inl (v.head_of_not_ends related (Bool.eq_false_iff.mpr ends))

theorem tighter? {floor : Precedence} (related : R depth input other)
    (ends : standard.tighter? floor (headKind input) = none) :
    standard.tighter? floor (headKind other) = none := by
  rcases v.head_cases related with same | ⟨_, stops⟩
  · rw [same, ends]
  · exact Grammar.tighter?_of_stops stops floor

theorem statementRule (related : R depth input other) :
    standard.statementRule (headKind other) = standard.statementRule (headKind input) := by
  rcases v.head_cases related with same | ⟨stops, stops'⟩
  · rw [same]
  · rw [Grammar.statementRule_of_stops stops, Grammar.statementRule_of_stops stops']

theorem headKind_ne {kind : Kind} (related : R depth input other) (goes : ¬ kind.Stops)
    (apart : headKind input ≠ kind) : headKind other ≠ kind := by
  rcases v.head_cases related with same | ⟨_, stops⟩
  · rwa [same]
  · exact fun is => goes (is ▸ stops)

theorem onto {kind : Kind} {first : Terminal} {rest : List Terminal} (is : first.kind = kind)
    (inner : kind.Inner) (given : R depth (first :: rest) other) :
    ∃ rest', other = first :: rest' ∧ R depth rest rest' := v.inner (is ▸ inner) given

theorem finish {extent : Extent} {last : Terminal} {before after : Nat} (is : last.kind = .eof)
    (stands : (Phrase.statements extent).Stands anywhere before after)
    (given : R before [last] other) : ∃ rest', R after [last] rest' ∧
      Reads standard room (.statements extent) other [] rest' := by
  cases extent with
  | program =>
    obtain ⟨rfl, rfl, within⟩ := stands
    obtain ⟨last', rfl, is'⟩ := v.ended within is given
    exact ⟨_, given, .finish is'⟩
  | block =>
    obtain rfl := stands
    obtain ⟨rest, behind, reads⟩ := v.unclosed is given
    exact ⟨rest, behind, reads room⟩

/-- What is read of an input is read of whatever may stand for it. -/
theorem reads {phrase : Phrase form} {value : form.Tree} {rest : List Terminal}
    (reads : Reads standard room phrase input value rest) :
    ∀ {before after : Nat} {other : List Terminal}, phrase.Grasps (headKind input) →
      phrase.Stands anywhere before after → R before input other →
        ∃ rest', R after rest rest' ∧ Reads standard room phrase other value rest' := by
  induction reads with
  | identifier =>
    rintro _ _ _ grasps rfl given
    obtain ⟨rest, rfl, behind⟩ := v.inner grasps given
    exact ⟨rest, behind, .identifier⟩
  | integer fits =>
    rintro _ _ _ grasps rfl given
    obtain ⟨rest, rfl, behind⟩ := v.inner grasps given
    exact ⟨rest, behind, .integer fits⟩
  | boolean =>
    rintro _ _ _ grasps rfl given
    obtain ⟨rest, rfl, behind⟩ := v.inner grasps given
    exact ⟨rest, behind, .boolean⟩
  | unary _ ih =>
    rintro _ _ _ grasps rfl given
    obtain ⟨_, rfl, inside⟩ := v.inner grasps given
    obtain ⟨rest, behind, operand⟩ := ih trivial rfl inside
    exact ⟨rest, behind, .unary operand⟩
  | grouped _ close ih =>
    rintro _ _ _ grasps rfl given
    obtain ⟨_, rfl, inside⟩ := v.inner grasps given
    obtain ⟨_, closed, value⟩ := ih trivial rfl inside
    obtain ⟨rest, rfl, behind⟩ := v.onto close (by decide) closed
    exact ⟨rest, behind, .grouped value close⟩
  | conditional opening _ close brace _ last ih ih' =>
    rintro _ _ _ grasps rfl given
    obtain ⟨_, rfl, opened⟩ := v.inner grasps given
    obtain ⟨_, rfl, inside⟩ := v.onto opening (by decide) opened
    obtain ⟨_, closed, condition⟩ := ih trivial rfl inside
    obtain ⟨_, rfl, braced⟩ := v.onto close (by decide) closed
    obtain ⟨_, rfl, body⟩ := v.opening brace braced
    obtain ⟨rest, behind, block⟩ := ih' trivial rfl body
    have last := v.headKind_ne behind (by decide) last
    exact ⟨rest, behind, .conditional opening condition close brace block last⟩
  | alternative opening _ close brace _ word brace' _ ih ih' ih'' =>
    rintro _ _ _ grasps rfl given
    obtain ⟨_, rfl, opened⟩ := v.inner grasps given
    obtain ⟨_, rfl, inside⟩ := v.onto opening (by decide) opened
    obtain ⟨_, closed, condition⟩ := ih trivial rfl inside
    obtain ⟨_, rfl, braced⟩ := v.onto close (by decide) closed
    obtain ⟨_, rfl, body⟩ := v.opening brace braced
    obtain ⟨_, continued, block⟩ := ih' trivial rfl body
    obtain ⟨_, rfl, braced'⟩ := v.onto word (by decide) continued
    obtain ⟨_, rfl, body'⟩ := v.opening brace' braced'
    obtain ⟨rest, behind, block'⟩ := ih'' trivial rfl body'
    exact ⟨rest, behind, .alternative opening condition close brace block word brace' block'⟩
  | function opening _ brace _ ih ih' =>
    rintro _ _ _ grasps rfl given
    obtain ⟨_, rfl, opened⟩ := v.inner grasps given
    obtain ⟨_, rfl, inside⟩ := v.onto opening (by decide) opened
    obtain ⟨_, braced, parameters⟩ := ih trivial rfl inside
    obtain ⟨_, rfl, body⟩ := v.opening brace braced
    obtain ⟨rest, behind, block⟩ := ih' trivial rfl body
    exact ⟨rest, behind, .function opening parameters brace block⟩
  | binary _ ih =>
    rintro _ _ _ grasps rfl given
    obtain ⟨_, rfl, inside⟩ := v.inner grasps given
    obtain ⟨rest, behind, operand⟩ := ih trivial rfl inside
    exact ⟨rest, behind, .binary operand⟩
  | call _ ih =>
    rintro _ _ _ grasps rfl given
    obtain ⟨_, rfl, inside⟩ := v.inner grasps given
    obtain ⟨rest, behind, list⟩ := ih trivial rfl inside
    exact ⟨rest, behind, .call list⟩
  | expression found _ _ ih ih' =>
    rintro _ _ _ _ rfl given
    have inner := Grammar.inner_of_start found
    obtain ⟨_, rfl, _⟩ := v.inner inner given
    obtain ⟨_, middle, first⟩ := ih inner rfl given
    obtain ⟨rest, behind, loop⟩ := ih' trivial rfl middle
    exact ⟨rest, behind, .expression found first loop⟩
  | stop ends =>
    rintro _ _ other _ rfl given
    exact ⟨other, given, .stop (v.tighter? given ends)⟩
  | extend found _ _ ih ih' =>
    rintro _ _ _ _ rfl given
    have inner := Grammar.inner_of_tighter found
    obtain ⟨_, rfl, _⟩ := v.inner inner given
    obtain ⟨_, middle, extended⟩ := ih inner rfl given
    obtain ⟨rest, behind, loop⟩ := ih' trivial rfl middle
    exact ⟨rest, behind, .extend found extended loop⟩
  | empty close =>
    rintro _ _ _ _ rfl given
    obtain ⟨rest, rfl, behind⟩ := v.onto close (by decide) given
    exact ⟨rest, behind, .empty close⟩
  | full some items close ih =>
    rintro _ _ _ _ rfl given
    have same := v.head_of_inner given items.items_inner
    obtain ⟨_, closed, list⟩ := ih trivial rfl given
    obtain ⟨rest, rfl, behind⟩ := v.onto close (by decide) closed
    exact ⟨rest, behind, .full (same ▸ some) list close⟩
  | lastParameter is last =>
    rintro _ _ _ _ rfl given
    obtain ⟨rest, rfl, behind⟩ := v.onto is (by decide) given
    exact ⟨rest, behind, .lastParameter is (v.headKind_ne behind (by decide) last)⟩
  | parameter is comma _ ih =>
    rintro _ _ _ _ rfl given
    obtain ⟨_, rfl, separated⟩ := v.onto is (by decide) given
    obtain ⟨_, rfl, more⟩ := v.onto comma (by decide) separated
    obtain ⟨rest, behind, names⟩ := ih trivial rfl more
    exact ⟨rest, behind, .parameter is comma names⟩
  | lastArgument _ last ih =>
    rintro _ _ _ _ rfl given
    obtain ⟨rest, behind, argument⟩ := ih trivial rfl given
    exact ⟨rest, behind, .lastArgument argument (v.headKind_ne behind (by decide) last)⟩
  | argument _ comma _ ih ih' =>
    rintro _ _ _ _ rfl given
    obtain ⟨_, separated, argument⟩ := ih trivial rfl given
    obtain ⟨_, rfl, more⟩ := v.onto comma (by decide) separated
    obtain ⟨rest, behind, list⟩ := ih' trivial rfl more
    exact ⟨rest, behind, .argument argument comma list⟩
  | block _ ih =>
    rintro _ _ _ _ rfl given
    obtain ⟨rest, behind, list⟩ := ih trivial rfl given
    exact ⟨rest, behind, .block list⟩
  | binding name sign _ passed ih =>
    rintro _ _ _ grasps ⟨rfl, within⟩ given
    obtain ⟨_, rfl, named⟩ := v.inner grasps given
    obtain ⟨_, rfl, bound⟩ := v.onto name (by decide) named
    obtain ⟨_, rfl, inside⟩ := v.onto sign (by decide) bound
    obtain ⟨_, behind, value⟩ := ih trivial rfl inside
    exact ⟨_, passed ▸ v.pass within behind, .binding name sign value rfl⟩
  | bareReturn ends passed =>
    rintro _ _ _ grasps ⟨rfl, within⟩ given
    obtain ⟨_, rfl, behind⟩ := v.inner grasps given
    exact ⟨_, passed ▸ v.pass within behind, .bareReturn (v.returns within behind ends) rfl⟩
  | returning goes _ passed ih =>
    rintro _ _ _ grasps ⟨rfl, within⟩ given
    obtain ⟨_, rfl, inside⟩ := v.inner grasps given
    have same := v.head_of_not_ends inside goes
    obtain ⟨_, behind, value⟩ := ih trivial rfl inside
    exact ⟨_, passed ▸ v.pass within behind, .returning (same ▸ goes) value rfl⟩
  | expressionStatement _ passed ih =>
    rintro _ _ _ _ ⟨rfl, within⟩ given
    obtain ⟨_, behind, value⟩ := ih trivial rfl given
    exact ⟨_, passed ▸ v.pass within behind, .expressionStatement value rfl⟩
  | statement _ ih =>
    intro _ _ _ _ stands given
    obtain ⟨rest, behind, value⟩ := ih (Phrase.grasps_statementBy _) stands given
    rw [← v.statementRule given] at value
    exact ⟨rest, behind, .statement value⟩
  | finish is =>
    intro _ _ _ _ stands given
    exact v.finish is stands given
  | close is =>
    rintro _ _ _ _ rfl given
    obtain ⟨rest, rfl, behind⟩ := v.closing is given
    exact ⟨rest, behind, .close is⟩
  | next goes first _ ih ih' =>
    intro _ _ _ _ stands given
    have same := v.head_of_inner given first.statement_inner
    obtain ⟨_, middle, statement⟩ := ih trivial ⟨rfl, stands.within⟩ given
    obtain ⟨rest, behind, list⟩ := ih' trivial stands middle
    exact ⟨rest, behind, .next (same ▸ goes) statement list⟩

end Variation

theorem exists_reads {options : Options} {file text : String}
    (quiet : (readText options file text).diagnostics = []) :
    ∃ rest, Reads standard options.maxDepth (.statements .program)
      (Cursor.ofText file text).terminals (readText options file text).program rest := by
  obtain ⟨program, after, run, _⟩ := Parser.readProgram_finishes Grammar.grounded_standard
    (Parser.settled_start options (.ofText file text))
  rw [readText_of_built run] at quiet ⊢
  have none : after.diagnostics = #[] := Array.toList_eq_nil_iff.mp quiet
  exact (quiet_iff_reads Grammar.grounded_standard options _ program).mp ⟨after, run, none⟩

/-- A text read without a fault may be varied. -/
theorem Variation.readText {anywhere : Prop} {R : Nat → List Terminal → List Terminal → Prop}
    (v : Variation anywhere R) (within : anywhere) {options : Options} {file text other : String}
    (quiet : (readText options file text).diagnostics = [])
    (given : R 0 (Cursor.ofText file text).terminals (Cursor.ofText file other).terminals) :
    (readText options file other).program = (readText options file text).program ∧
      (readText options file other).diagnostics = [] := by
  obtain ⟨_, reads⟩ := exists_reads quiet
  obtain ⟨_, _, reads⟩ := v.reads reads trivial ⟨rfl, rfl, within⟩ given
  exact readText_of_reads reads

end MonkeySyntax
