import Mathlib.Data.List.Nodup
import MonkeySyntax.Proofs.Diagnostic.Blame
import MonkeySyntax.Proofs.Parsing.Braces

/-! Braces that no rule takes. A fault is found at such a brace, and the brace is passed as any
other token is, so it neither opens nor closes a block. A block that is read over stray braces
therefore ends where the braces read balance with those left over; and if more closing braces than
opening ones have gone astray, it takes in what stands behind it, to the end of the input. -/
namespace MonkeySyntax

/-- How many faults were found at tokens of a kind, other than that a different token was expected
there. -/
def strays (kind : Kind) (tokens : List Token) (diagnostics : List Diagnostic) : Nat :=
  diagnostics.countP fun diagnostic => !diagnostic.fault.isUnexpected &&
    tokens.any fun token => token.kind = kind && token.span.start = diagnostic.offset

section

variable {kind : Kind} {tokens : List Token} {diagnostics : List Diagnostic}

theorem strays_append_of_unexpected {diagnostic : Diagnostic}
    (unexpected : diagnostic.fault.isUnexpected) :
    strays kind tokens (diagnostics ++ [diagnostic]) = strays kind tokens diagnostics := by
  rw [strays, List.countP_append, List.countP_singleton, unexpected]
  rfl

theorem strays_append_of_found (apart : (tokens.map (·.span.start)).Nodup) {token : Token}
    (member : token ∈ tokens) {fault : Fault} (found : fault.isUnexpected = false) :
    strays kind tokens (diagnostics ++ [⟨fault, token.span.file, token.span.start⟩]) =
      strays kind tokens diagnostics + if token.kind = kind then 1 else 0 := by
  have here : (tokens.any fun other => other.kind = kind && other.span.start = token.span.start) =
      decide (token.kind = kind) := by
    rw [Bool.eq_iff_iff, List.any_eq_true, decide_eq_true_iff]
    constructor
    · rintro ⟨other, inside, same⟩
      simp only [Bool.and_eq_true, decide_eq_true_eq] at same
      rw [← List.inj_on_of_nodup_map apart inside member same.2]
      exact same.1
    · rintro rfl
      exact ⟨token, member, by simp⟩
  rw [strays, List.countP_append, List.countP_singleton, ← strays, found, here]
  simp

end

theorem Grammar.ne_let_of_tighter {floor : Precedence} {kind : Kind} {rule : ContinuationRule}
    (found : standard.tighter? floor kind = some rule) : kind ≠ .letWord := by
  rintro rfl
  cases found

theorem Extent.endsAt_block_iff {kind : Kind} :
    Extent.block.endsAt kind ↔ kind = .rbrace ∨ kind = .eof := by
  cases kind <;> simp [Extent.endsAt]

/-- A text with a closing brace behind which a binding begins and no brace is left. -/
structure Site where
  front : List Token
  closing : Token
  word : Token
  rest : List Token
  closes : closing.kind = .rbrace
  begins : word.kind = .letWord
  plain : ∀ token ∈ word :: rest, token.kind.brace = 0
  apart : ((front ++ closing :: word :: rest).map (·.span.start)).Nodup

namespace Site

variable (site : Site)

def tail : List Token := site.word :: site.rest

def tokens : List Token := site.front ++ site.closing :: site.tail

/-- Opening braces that have gone astray less closing ones. -/
def tally (parser : Parser) : Int :=
  (strays .lbrace site.tokens parser.diagnostics.toList : Int) -
    strays .rbrace site.tokens parser.diagnostics.toList

structure Along (parser : Parser) : Prop where
  grammar : parser.grammar = .standard
  settled : parser.Settled
  suffix : parser.remaining <:+ site.tokens

/-- The binding was taken in by a block that was still open. -/
def Swallowed (total : Int) (parser : Parser) : Prop :=
  parser.current.kind = .eof ∧ site.tally parser < total

/-- The current token is done with. The binding is still ahead, and the braces from here on, with
those gone astray, come to a number that says how many blocks are open around the parser; or else
the binding is lost to it. -/
structure Clear (total : Int) (parser : Parser) : Prop extends site.Along parser where
  stands : (site.tail <:+ parser.following ∧
      braces parser.followingTerminals + site.tally parser = total) ∨ site.Swallowed total parser

/-- The current token has still to be taken up. -/
def Reached (total : Int) (parser : Parser) : Prop :=
  site.Clear (total - parser.current.kind.brace) parser

/-- The parser has passed the closing brace. -/
structure Behind (count : Int) (parser : Parser) : Prop where
  settled : parser.Settled
  suffix : parser.remaining <:+ site.tail
  tally : site.tally parser = count

/-- The current token is done with, and does not close a block. -/
def Taken (total : Int) (parser : Parser) : Prop :=
  site.Clear total parser ∧ parser.current.kind ≠ .rbrace

/-- A rule takes the current token up, and may still find fault with it. -/
def Begun (total : Int) (parser : Parser) : Prop :=
  site.Reached total parser ∧ parser.current.kind.brace = 0

/-- A statement may begin with the current token, which may be the first of the binding. -/
structure Onset (total : Int) (parser : Parser) : Prop extends site.Along parser where
  stands : (site.tail <:+ parser.remaining ∧
      braces parser.remainingTerminals + site.tally parser = total) ∨ site.Swallowed total parser

end Site

open MonkeySyntax.Parser

namespace Site

variable {site : Site} {parser : Parser} {total : Int}

section

theorem tally_unexpected (token : Token) (kind actual : Kind) :
    site.tally (parser.reportAt token (.unexpected kind actual)) = site.tally parser := by
  rw [tally, toList_reportAt, strays_append_of_unexpected rfl, strays_append_of_unexpected rfl,
    tally]

theorem tally_report (member : parser.current ∈ site.tokens) {fault : Fault}
    (found : fault.isUnexpected = false) :
    site.tally (parser.report fault) = site.tally parser + parser.current.kind.brace := by
  have apart : (site.tokens.map (·.span.start)).Nodup := site.apart
  rw [tally, report, toList_reportAt, strays_append_of_found apart member found,
    strays_append_of_found apart member found, tally]
  cases parser.current.kind <;> simp [Kind.brace] <;> omega

theorem braces_tail (site : Site) : braces (site.tail.map Token.terminal) = 0 := by
  have plain : ∀ token ∈ site.tail, token.kind.brace = 0 := site.plain
  generalize site.tail = tail at plain
  induction tail with
  | nil => rfl
  | cons token tail ih =>
    rw [List.map_cons, braces_cons, ih fun other member => plain other (.tail _ member)]
    exact congrArg (· + 0) (plain token (.head _))

theorem tail_suffix (site : Site) : site.tail <:+ site.tokens :=
  (List.suffix_cons site.closing site.tail).trans (List.suffix_append site.front _)

theorem Along.advance (along : site.Along parser) : site.Along parser.advance where
  grammar := along.grammar
  settled := along.settled.advance
  suffix := by
    rw [remaining_advance]
    exact (following_suffix along.settled).trans along.suffix

theorem Along.report (along : site.Along parser) (token : Token) (fault : Fault) :
    site.Along (parser.reportAt token fault) :=
  ⟨along.grammar, along.settled.frame rfl, along.suffix⟩

theorem Swallowed.advance (along : site.Along parser) (lost : site.Swallowed total parser) :
    site.Swallowed total parser.advance :=
  have same : parser.ahead = parser.current := along.settled.current lost.1
  ⟨(congrArg Token.kind same).trans lost.1, lost.2⟩

/-- The binding begins behind the closing brace and nowhere else. -/
theorem Along.following_ne_tail (along : site.Along parser)
    (unclosed : parser.current.kind ≠ .rbrace) : parser.following ≠ site.tail := by
  intro same
  by_cases ended : parser.current.kind = .eof
  · rw [following_of_current along.settled ended] at same
    have word := (List.cons.inj same).1
    rw [word, site.begins] at ended
    cases ended
  · have suffix := along.suffix
    rw [remaining, if_neg ended, same] at suffix
    have closing : site.closing :: site.tail <:+ site.tokens := List.suffix_append _ _
    have here := (List.suffix_of_suffix_length_le suffix closing (Nat.le_refl _)).eq_of_length rfl
    rw [(List.cons.inj here).1] at unclosed
    exact unclosed site.closes

theorem kind_of_following (same : parser.following = site.tail) : parser.ahead.kind = .letWord := by
  obtain ⟨rest, here⟩ := parser.following_eq_cons
  rw [here] at same
  rw [(List.cons.inj same).1, site.begins]

theorem suffix_singleton {token : Token} (suffix : site.tail <:+ [token]) :
    site.tail = [token] := by
  refine suffix.eq_of_length (Nat.le_antisymm suffix.length_le ?_)
  exact Nat.succ_le_succ (Nat.zero_le _)

/-- One token is passed that is not the one before the binding. -/
theorem Clear.over (clear : site.Clear total parser)
    (apart : parser.ahead.kind ≠ .letWord ∨ parser.current.kind ≠ .rbrace) :
    site.Reached total parser.advance where
  toAlong := clear.toAlong.advance
  stands := by
    rcases clear.stands with ⟨suffix, balance⟩ | lost
    · have other : parser.following ≠ site.tail := by
        rcases apart with word | unclosed
        · exact fun same => word (kind_of_following same)
        · exact clear.toAlong.following_ne_tail unclosed
      -- A binding has more than one token, so the end token alone is not behind a site.
      have more : parser.ahead.kind ≠ .eof := by
        intro ended
        rw [following, if_pos ended] at suffix other
        exact other (suffix_singleton suffix).symm
      rw [following_of_ne more] at suffix other
      rw [followingTerminals_of_ne more, braces_cons] at balance
      refine .inl ⟨(List.suffix_cons_iff.mp suffix).resolve_left other.symm, ?_⟩
      change braces parser.advance.followingTerminals + site.tally parser =
        total - parser.ahead.kind.brace
      have terminal : parser.ahead.terminal.kind = parser.ahead.kind := rfl
      rw [terminal] at balance
      omega
    · have lost' := lost.advance clear.toAlong
      have none : parser.advance.current.kind.brace = 0 := by
        rw [lost'.1]
        rfl
      rw [none, Int.sub_zero]
      exact .inr lost'

theorem Taken.onward (taken : site.Taken total parser) : site.Reached total parser.advance :=
  taken.1.over (.inr taken.2)

theorem Clear.onto (clear : site.Clear total parser) {kind : Kind} (here : parser.ahead.kind = kind)
    (inner : kind.brace = 0 ∧ kind ≠ .letWord) : site.Taken total parser.advance := by
  have reached := clear.over (.inl (here ▸ inner.2))
  have current : parser.advance.current.kind = kind := here
  rw [Reached, current, inner.1, Int.sub_zero] at reached
  refine ⟨reached, fun closes => ?_⟩
  rw [← current, closes] at inner
  cases inner.1

theorem Begun.taken (begun : site.Begun total parser) : site.Taken total parser := by
  obtain ⟨reached, plain⟩ := begun
  rw [Reached, plain, Int.sub_zero] at reached
  refine ⟨reached, fun closes => ?_⟩
  rw [closes] at plain
  cases plain

theorem Clear.skipped (clear : site.Clear total parser) :
    site.Clear total (Parse.skipped .semicolon parser) := by
  rw [Parse.skipped]
  split
  · next met => exact (clear.onto met (by decide)).1
  · exact clear

theorem Clear.unexpected (clear : site.Clear total parser) (token : Token) (kind actual : Kind) :
    site.Clear total (parser.reportAt token (.unexpected kind actual)) where
  toAlong := clear.toAlong.report _ _
  stands := by
    rw [Swallowed, tally_unexpected]
    exact clear.stands

/-- A brace at which a fault is found goes astray. -/
theorem Clear.report (reached : site.Reached total parser) {fault : Fault}
    (found : fault.isUnexpected = false) : site.Clear total (parser.report fault) where
  toAlong := reached.toAlong.report _ _
  stands := by
    rw [Swallowed, tally_report (reached.suffix.subset parser.current_mem) found]
    rcases reached.stands with ⟨suffix, balance⟩ | ⟨ended, fewer⟩
    · refine .inl ⟨suffix, ?_⟩
      change braces parser.followingTerminals + _ = _
      omega
    · refine .inr ⟨ended, ?_⟩
      omega

theorem Clear.onset (clear : site.Clear total parser) : site.Onset total parser.advance where
  toAlong := clear.toAlong.advance
  stands := by
    rcases clear.stands with ⟨suffix, balance⟩ | lost
    · rw [remaining_advance, remainingTerminals_advance]
      exact .inl ⟨suffix, balance⟩
    · exact .inr (lost.advance clear.toAlong)

theorem Onset.reached (onset : site.Onset total parser) (apart : parser.remaining ≠ site.tail) :
    site.Reached total parser where
  toAlong := onset.toAlong
  stands := by
    rcases onset.stands with ⟨suffix, balance⟩ | lost
    · have more : parser.current.kind ≠ .eof := by
        intro ended
        rw [remaining, if_pos ended] at suffix apart
        exact apart (suffix_singleton suffix).symm
      rw [remaining, if_neg more] at suffix apart
      rw [remainingTerminals_of_ne more, braces_cons] at balance
      refine .inl ⟨(List.suffix_cons_iff.mp suffix).resolve_left apart.symm, ?_⟩
      have terminal : parser.current.terminal.kind = parser.current.kind := rfl
      rw [terminal] at balance
      omega
    · have none : parser.current.kind.brace = 0 := by
        rw [lost.1]
        rfl
      rw [none, Int.sub_zero]
      exact .inr lost

/-- At the end of the input the binding is lost. -/
theorem Clear.swallowed (clear : site.Clear total parser) (ended : parser.current.kind = .eof) :
    site.Swallowed total parser := by
  rcases clear.stands with ⟨suffix, _⟩ | lost
  · rw [following_of_current clear.settled ended] at suffix
    have word := (List.cons.inj (suffix_singleton suffix)).1
    rw [← word, site.begins] at ended
    cases ended
  · exact lost

theorem kind_of_remaining (same : parser.remaining = site.tail) :
    parser.current.kind = .letWord := by
  obtain ⟨rest, here⟩ := parser.remaining_eq_cons
  rw [here] at same
  rw [(List.cons.inj same).1, site.begins]

theorem Onset.swallowed (onset : site.Onset total parser) (ended : parser.current.kind = .eof) :
    site.Swallowed total parser := by
  have none : Kind.eof.brace = 0 := rfl
  have apart : parser.remaining ≠ site.tail := fun same => by
    have word := kind_of_remaining same
    rw [ended] at word
    cases word
  have reached := onset.reached apart
  rw [Reached, ended, none, Int.sub_zero] at reached
  exact reached.swallowed ended

theorem Onset.behind (onset : site.Onset total parser) (here : parser.remaining = site.tail) :
    site.Behind total parser where
  settled := onset.settled
  suffix := here ▸ List.suffix_refl _
  tally := by
    rcases onset.stands with ⟨_, balance⟩ | ⟨ended, _⟩
    · rw [remainingTerminals, here, site.braces_tail, Int.zero_add] at balance
      exact balance
    · rw [kind_of_remaining here] at ended
      cases ended

/-- A block ends with its closing brace, or at the end of the input. -/
theorem Reached.closed (reached : site.Reached total parser)
    (ended : Extent.block.endsAt parser.current.kind) : site.Clear (total + 1) parser := by
  have swallowed (eof : parser.current.kind = .eof) : site.Swallowed (total + 1) parser := by
    obtain ⟨_, fewer⟩ := Clear.swallowed reached eof
    rw [eof] at fewer
    have none : Kind.eof.brace = 0 := rfl
    exact ⟨eof, by omega⟩
  rcases Extent.endsAt_block_iff.mp ended with closes | eof
  · rwa [Reached, closes] at reached
  · exact ⟨reached.toAlong, .inr (swallowed eof)⟩

theorem Behind.advance {count : Int} (behind : site.Behind count parser) :
    site.Behind count parser.advance where
  settled := behind.settled.advance
  suffix := by
    rw [remaining_advance]
    exact (following_suffix behind.settled).trans behind.suffix
  tally := behind.tally

theorem Behind.frame {count : Int} (behind : site.Behind count parser) (trace : Trace)
    (depth dropped : Nat) :
    site.Behind count { parser with trace := trace, depth := depth, dropped := dropped } :=
  ⟨behind.settled.frame rfl, behind.suffix, behind.tally⟩

theorem Behind.brace {count : Int} (behind : site.Behind count parser) :
    parser.current.kind.brace = 0 :=
  site.plain _ (behind.suffix.subset parser.current_mem)

theorem Behind.report {count : Int} (behind : site.Behind count parser) {fault : Fault}
    (found : fault.isUnexpected = false) : site.Behind count (parser.report fault) where
  settled := behind.settled.frame rfl
  suffix := behind.suffix
  tally := by
    have member := (behind.suffix.trans site.tail_suffix).subset parser.current_mem
    rw [tally_report member found, behind.brace, behind.tally, Int.add_zero]

/-- Nothing goes astray behind the closing brace. -/
def behind (site : Site) (count : Int) : TokenAssertions where
  reached := site.Behind count
  clear := site.Behind count
  lost := site.Behind count
  reached_frame depth h _ := h.frame _ depth _
  clear_frame depth h _ := h.frame _ depth _
  lost_frame depth h _ := h.frame _ depth _
  take h _ := h
  advance h := h.advance
  report h finds := h.report finds.not_isUnexpected
  unexpected {parser kind} h _ :=
    ⟨h.settled.frame rfl, h.suffix, (tally_unexpected parser.ahead kind _).trans h.tally⟩
  skip h _ := h.advance
  recover h := (h.frame _ _ _).advance

theorem Clear.frame (clear : site.Clear total parser) (trace : Trace) (depth dropped : Nat) :
    site.Clear total { parser with trace := trace, depth := depth, dropped := dropped } :=
  ⟨⟨clear.grammar, clear.settled.frame rfl, clear.suffix⟩, clear.stands⟩

theorem Reached.enter (reached : site.Reached total parser) {label : String} :
    site.Reached total (parser.enter label) := Clear.frame reached _ parser.depth parser.dropped

theorem Begun.enter (begun : site.Begun total parser) {label : String} :
    site.Begun total (parser.enter label) := ⟨begun.1.enter, begun.2⟩

theorem Taken.enter (taken : site.Taken total parser) {label : String} :
    site.Taken total (parser.enter label) := ⟨taken.1.frame _ parser.depth parser.dropped, taken.2⟩

end

end Site

/-- From such a state the step ends with its last token done with, with as many blocks open. -/
def Parse.Stays (site : Site) (total : Int) (start : Parser → Prop) (step : Parse α) : Prop :=
  ∀ before, start before → (step before).Meets (fun _ => site.Clear total) (site.Clear total) True

namespace Parse.Stays

variable {site : Site} {total : Int} {start : Parser → Prop} {step : Parse α} {kind : Kind}

theorem weaken {start' : Parser → Prop} (stays : step.Stays site total start)
    (weaker : ∀ {parser}, start' parser → start parser) : step.Stays site total start' :=
  fun before here => stays before (weaker here)

theorem pure (value : α) : Stays site total (site.Clear total) (pure value) := fun _ clear => clear

theorem bind {next : α → Parse β} (first : step.Stays site total start)
    (rest : ∀ value, (next value).Stays site total (site.Clear total)) :
    (step >>= next).Stays site total start :=
  fun before here => meets_bind.mpr <| (first before here).imp (fun value after => rest value after)
    fun _ => id

theorem view {see : Parser → α} {next : α → Parse β}
    (rest : ∀ value, (next value).Stays site total start) :
    (read see >>= next).Stays site total start := fun before => rest (see before) before

theorem onward {next : Unit → Parse β} (rest : (next ()).Stays site total (site.Reached total)) :
    (advance >>= next).Stays site total (site.Taken total) :=
  fun before taken => rest before.advance taken.onward

/-- A token that is expected, and more behind it. -/
theorem expect {next : Unit → Parse β} (inner : kind.brace = 0 ∧ kind ≠ .letWord)
    (rest : (next ()).Stays site total (site.Taken total)) :
    (Parse.expect kind >>= next).Stays site total (site.Clear total) :=
  fun before clear => meets_expect_bind.mpr
    ⟨fun here => rest before.advance (clear.onto here inner), fun _ => clear.unexpected _ _ _⟩

/-- A token that is passed if it is ahead. -/
theorem pass {yes : Unit → Parse β} {no : Parse β} (inner : kind.brace = 0 ∧ kind ≠ .letWord)
    (clear : ∀ {parser}, start parser → site.Clear total parser)
    (left : (yes ()).Stays site total (site.Taken total)) (right : no.Stays site total start) :
    (aheadKind >>= fun here => if here = kind then advance >>= yes else no).Stays site total
      start := by
  intro parser here
  rw [aheadKind, read_bind]
  split
  · next met => exact left parser.advance ((clear here).onto met inner)
  · exact right parser here

theorem taken_pure (value : α) :
    Stays site total (site.Taken total) (Pure.pure value : Parse α) := fun _ taken => taken.1

theorem traced {label : String}
    (framed : ∀ {parser}, start parser → start (parser.enter label))
    (inside : step.Stays site total start) : (Parse.traced label step).Stays site total start :=
  fun _ here => meets_traced.mpr <| (inside _ (framed here)).imp
    (fun _ after clear => clear.frame _ after.depth after.dropped)
    fun after clear => clear.frame _ after.depth after.dropped

theorem nested (inside : step.Stays site total (site.Reached total)) :
    (Parse.nested step).Stays site total (site.Reached total) :=
  fun before reached => meets_nested.mpr
    ⟨fun _ => (inside before.deepen (reached.frame before.trace _ before.dropped)).imp
        (fun _ after clear => clear.frame after.trace _ after.dropped)
        fun after clear => clear.frame after.trace _ after.dropped,
      fun _ => .report reached rfl⟩

theorem skip : (Parse.skip .semicolon).Stays site total (site.Clear total) := by
  intro before clear
  rw [skip_apply]
  exact clear.skipped

/-- The semicolon is passed whatever became of the step. -/
theorem closing (inside : step.Stays site total start) :
    (ensuring (Parse.skip .semicolon) step).Stays site total start :=
  fun before here => meets_ensuring.mpr <| (inside before here).imp
    (fun _ after clear => skip after clear) fun after clear => skip after clear

end Parse.Stays

/-- The recurring phrases leave as many blocks open as there were. A block closes one. -/
structure Parts.Stay (site : Site) (parts : Parts) : Prop where
  expression (total : Int) (floor : Precedence) :
    (parts.expression floor).Stays site total (site.Reached total)
  continuation (total : Int) (floor : Precedence) (left : Expr) :
    (parts.continuation floor left).Stays site total (site.Clear total)
  parameters (total : Int) : parts.parameters.Stays site total (site.Clear total)
  arguments (total : Int) : parts.arguments.Stays site total (site.Taken total)
  statement (total : Int) : parts.statement.Stays site total (site.Reached total)
  statements (total : Int) :
    (parts.statements .block).Stays site (total + 1) (site.Onset total)

namespace Parts.Stay

open Parse Parse.Stays

variable {site : Site} {total : Int} {parts : Parts}

theorem integer : Parts.integer.Stays site total (site.Begun total) := by
  refine traced (·.enter) fun before begun => ?_
  rw [currentLiteral, read_bind]
  cases Text.numeralBelow? integerBound before.current.literal.toList with
  | some number => exact begun.taken.1
  | none => exact .report begun.1 rfl

theorem parenthesized {items : Parse (List α)} (h : items.Stays site total (site.Taken total)) :
    (Parts.parenthesized items).Stays site total (site.Taken total) :=
  pass (by decide) (·.1) (taken_pure []) (bind h fun list => expect (by decide) (taken_pure list))

variable (h : parts.Stay site)
include h

theorem block : parts.block.Stays site total (site.Clear (total - 1)) := by
  intro before clear
  have closes := h.statements (total - 1) before.advance clear.onset
  rwa [Int.sub_add_cancel] at closes

/-- A block and its opening brace, with more behind it. -/
theorem braced {next : Block → Parse β}
    (rest : ∀ list, (next list).Stays site total (site.Clear total)) :
    (Parse.expect .lbrace >>= fun _ => parts.block >>= next).Stays site total
      (site.Clear total) := by
  intro before clear
  refine meets_expect_bind.mpr ⟨fun here => ?_, fun _ => clear.unexpected _ _ _⟩
  have reached := clear.over (.inl (here ▸ by decide))
  have brace : before.advance.current.kind = .lbrace := here
  rw [Site.Reached, brace] at reached
  exact bind h.block rest before.advance reached

theorem unary : parts.unary.Stays site total (site.Taken total) := by
  refine traced (·.enter) (view fun _ => onward ?_)
  exact bind (h.expression total _) fun _ => pure _

theorem grouped : parts.grouped.Stays site total (site.Taken total) := by
  refine onward (bind (h.expression total _) fun inner => ?_)
  exact expect (by decide) (taken_pure inner)

theorem conditional : parts.conditional.Stays site total (site.Taken total) := by
  refine weaken (expect (by decide) (onward (bind (h.expression total _) fun _ => ?_))) (·.1)
  refine expect (by decide) (weaken (h.braced fun _ => ?_) (·.1))
  refine pass (by decide) id (weaken (h.braced fun _ => ?_) (·.1)) (pure _)
  exact pure _

theorem function : parts.function.Stays site total (site.Taken total) := by
  have parameters : parts.parameters.Stays site total (site.Taken total) :=
    weaken (h.parameters total) (·.1)
  refine weaken (expect (by decide) (bind (parenthesized parameters) fun _ => ?_)) (·.1)
  exact h.braced fun _ => pure _

theorem start (rule : StartRule) : (parts.start rule).Stays site total (site.Begun total) := by
  cases rule with
  | identifier => exact weaken (view fun _ => taken_pure _) (·.taken)
  | integer => exact integer
  | boolean => exact weaken (view fun _ => taken_pure _) (·.taken)
  | unary => exact weaken h.unary (·.taken)
  | grouped => exact weaken h.grouped (·.taken)
  | conditional => exact weaken h.conditional (·.taken)
  | function => exact weaken h.function (·.taken)

theorem extend (left : Expr) (rule : ContinuationRule) :
    (parts.extend left rule).Stays site total (site.Taken total) := by
  cases rule with
  | binary =>
    refine traced (·.enter) (view fun _ => view fun _ => ?_)
    exact onward (bind (h.expression total _) fun _ => pure _)
  | call => exact bind (parenthesized (h.arguments total)) fun _ => pure _

theorem startHere : parts.startHere.Stays site total (site.Reached total) := by
  intro before reached
  rw [Parts.startHere, read_bind]
  cases found : before.grammar.start before.current.kind with
  | none => exact .report reached rfl
  | some rule =>
    rw [reached.grammar] at found
    exact h.start rule before ⟨reached, (Grammar.plain_of_start found).1⟩

theorem expressionAbove (floor : Precedence) :
    (parts.expressionAbove floor).Stays site total (site.Reached total) :=
  traced (·.enter)
    (nested (bind h.startHere fun _ => h.continuation total _ _))

theorem continueAbove (floor : Precedence) (left : Expr) :
    (parts.continueAbove floor left).Stays site total (site.Clear total) := by
  intro before clear
  rw [Parts.continueAbove, read_bind]
  cases found : before.grammar.tighter? floor before.ahead.kind with
  | none => exact clear
  | some rule =>
    rw [clear.grammar] at found
    have onto := clear.onto rfl
      ⟨(Grammar.plain_of_tighter found).1, Grammar.ne_let_of_tighter found⟩
    exact bind (h.extend left rule) (h.continuation total floor) before.advance onto

theorem parameterList : parts.parameterList.Stays site total (site.Clear total) := by
  refine expect (by decide) (view fun _ => pass (by decide) (·.1) ?_ (taken_pure _))
  exact weaken (bind (h.parameters total) fun _ => pure _) (·.1)

theorem argumentList : parts.argumentList.Stays site total (site.Taken total) := by
  refine onward (bind (h.expression total _) fun _ => pass (by decide) id ?_ (pure _))
  exact bind (h.arguments total) fun _ => pure _

theorem bindingStatement : parts.bindingStatement.Stays site total (site.Taken total) := by
  refine weaken (expect (by decide) (view fun _ => weaken (expect (by decide) ?_) (·.1))) (·.1)
  exact onward (bind (h.expression total _) fun _ => bind skip fun _ => pure _)

theorem returnStatement : parts.returnStatement.Stays site total (site.Taken total) := by
  refine view fun kind => ?_
  split
  · exact weaken (bind skip fun _ => pure _) (·.1)
  · exact onward (bind (h.expression total _) fun _ => bind skip fun _ => pure _)

theorem expressionStatement : parts.expressionStatement.Stays site total (site.Reached total) :=
  traced (·.enter)
    (bind (closing (h.expression total _)) fun _ => pure _)

theorem statementHere : parts.statementHere.Stays site total (site.Reached total) := by
  intro before reached
  rw [Parts.statementHere, read_bind]
  cases found : before.grammar.statement before.current.kind with
  | none => exact h.expressionStatement before reached
  | some rule =>
    rw [reached.grammar] at found
    have taken := Site.Begun.taken ⟨reached, (Grammar.plain_of_statement found).1⟩
    cases rule with
    | any => exact h.statement total before reached
    | binding => exact h.bindingStatement before taken
    | returning => exact h.returnStatement before taken
    | expression => exact h.expressionStatement before reached

omit h in
/-- A block that is still open where the binding begins goes on to the end of the input. -/
theorem statements_behind {bound : Nat} {before : Parser} (onset : site.Onset total before)
    (here : before.remaining = site.tail) :
    ((Parts.within bound).statements .block before).Meets (fun _ => site.Clear (total + 1))
      (site.Clear (total + 1)) True := by
  have behind := onset.behind here
  have ends := (Parts.Uphold.within (site.behind total) bound).statements .block before behind
  have last := Parts.statements_end bound .block before
  have appended := Parts.keeps_within Parser.keeps_appendsOnly bound (.statements .block) before
  refine ((Outcome.Meets.and ends last).and appended).imp ?_ fun after given => given.1.2.elim
  rintro _ after ⟨⟨there, ended⟩, appended⟩
  have along : site.Along after :=
    ⟨appended.grammar.trans onset.grammar, there.settled, there.suffix.trans site.tail_suffix⟩
  have fewer : site.tally after < total + 1 := by
    rw [there.tally]
    omega
  -- No closing brace is left that could have ended the block.
  refine ⟨along, .inr ⟨?_, fewer⟩⟩
  refine (Extent.endsAt_block_iff.mp ended).resolve_left fun closes => ?_
  have none := there.brace
  rw [closes] at none
  cases none

omit h in
theorem statementList {bound : Nat} (h : (Parts.within bound).Stay site) :
    ((Parts.within bound).statementList .block).Stays site (total + 1) (site.Onset total) := by
  intro before onset
  -- A block that comes to the binding takes it in; otherwise one more statement is read.
  by_cases here : before.remaining = site.tail
  · have ends : ((Parts.within (bound + 1)).statements .block before).Meets _ _ True :=
      statements_behind onset here
    exact ends
  · have reached := onset.reached here
    rw [Parts.statementList, currentKind, read_bind]
    split
    · next ended => exact reached.closed ended
    · rw [meets_bind, meets_attempt]
      refine (h.statement total before reached).imp (fun statement after clear => ?_)
        fun after clear => ?_
      · have more : ((Parts.within bound).statements .block >>= fun list =>
            (Pure.pure (statement :: list) : Parse (List Stmt))).Stays site (total + 1)
              (site.Onset total) := bind (h.statements total) fun _ => pure _
        exact more after.advance clear.onset
      · exact h.statements total after.drop.advance
          (Site.Clear.onset (clear.frame after.trace after.depth (after.dropped + 1)))

end Parts.Stay

theorem Parts.stay_within (site : Site) (bound : Nat) : (Parts.within bound).Stay site := by
  induction bound with
  | zero =>
    exact ⟨fun _ _ _ _ => trivial, fun _ _ _ _ _ => trivial, fun _ _ _ => trivial,
      fun _ _ _ => trivial, fun _ _ _ => trivial, fun _ _ _ => trivial⟩
  | succ bound h =>
    exact ⟨fun _ => h.expressionAbove, fun _ => h.continueAbove, fun _ => h.parameterList,
      fun _ => h.argumentList, fun _ => h.statementHere, fun _ => Stay.statementList h⟩

end MonkeySyntax
