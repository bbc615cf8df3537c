import MonkeySyntax.Proofs.Language.Reading

/-! What is read is derived. The loop of an expression keeps one invariant: the value built so far
is derived at some precedence above the floor, and what follows binds no more tightly than that, so
the next operator may take the whole value for its left operand. -/
namespace MonkeySyntax

open Grammar (standard)

/-- The kinds that the standard table gives a start rule for. -/
def StartRule.Opens : StartRule → Kind → Prop
  | .identifier, kind => kind = .ident
  | .integer, kind => kind = .int
  | .boolean, kind => kind = .trueWord ∨ kind = .falseWord
  | .unary, kind => kind ∈ [.bang, .minus]
  | .grouped, kind => kind = .lparen
  | .conditional, kind => kind = .ifWord
  | .function, kind => kind = .function

theorem Grammar.opens_of_start {kind : Kind} {rule : StartRule}
    (begun : standard.start kind = some rule) : rule.Opens kind := by
  cases kind <;> cases begun <;> simp [StartRule.Opens]

theorem Grammar.level_of_tighter? {kind : Kind} {floor : Precedence}
    (begun : standard.tighter? floor kind = some .binary) :
    ∃ n, level? kind = some n ∧ floor < .ofLevel n := by
  cases kind <;> cases floor <;> first | exact ⟨_, rfl, by decide⟩ | cases begun

theorem Grammar.lparen_of_tighter? {kind : Kind} {floor : Precedence}
    (begun : standard.tighter? floor kind = some .call) : kind = .lparen := by
  cases kind <;> cases floor <;> first | rfl | cases begun

theorem Grammar.letWord_of_statementRule {kind : Kind}
    (begun : standard.statementRule kind = .binding) : kind = .letWord := by
  cases kind <;> first | rfl | cases begun

theorem Grammar.returnWord_of_statementRule {kind : Kind}
    (begun : standard.statementRule kind = .returning) : kind = .returnWord := by
  cases kind <;> first | rfl | cases begun

/-- Expressions whose operators have a precedence at least. -/
def Category.ofPrecedence : Precedence → Category .expression
  | .lowest | .equals => .level 0
  | .lessGreater => .level 1
  | .sum => .level 2
  | .product => .level 3
  | .unary => .unary
  | .call => .call

theorem Category.ofPrecedence_ofLevel {n : Nat} (last : n < 4) :
    ofPrecedence (.ofLevel n) = level n := by
  match n, last with
  | 0, _ | 1, _ | 2, _ | 3, _ => rfl

section

variable {floor p q : Precedence} {value : Expr} {input middle rest : List Terminal}

theorem Derives.level_of_le {m n : Nat} (le : n ≤ m) (last : m ≤ 4)
    (derives : Derives (.level m) input value rest) : Derives (.level n) input value rest := by
  induction le with
  | refl => exact derives
  | step _ ih => exact ih (Nat.le_of_succ_le last) (.tighter last derives)

theorem Derives.level_of_unary {n : Nat} (last : n ≤ 4)
    (derives : Derives .unary input value rest) : Derives (.level n) input value rest :=
  level_of_le last (Nat.le_refl 4) (.tightest derives)

theorem Derives.weaken (derives : Derives (.ofPrecedence p) input value rest) (le : q ≤ p) :
    Derives (.ofPrecedence q) input value rest := by
  cases p <;> cases q <;> first
    | exact derives
    | exact absurd le (by decide)
    | exact derives.level_of_le (by decide) (by decide)
    | exact derives.level_of_unary (by decide)
    | exact .applied derives
    | exact Derives.level_of_unary (by decide) (.applied derives)

/-- A value that the next operator above the floor may take for its left operand. -/
def Spans (floor : Precedence) (input : List Terminal) (value : Expr) (rest : List Terminal) :
    Prop :=
  ∃ p, (floor < p ∨ .unary ≤ p) ∧ Derives (.ofPrecedence p) input value rest ∧
    standard.precedence (headKind rest) ≤ p

theorem Spans.of_call (derives : Derives .call input value rest) : Spans floor input value rest :=
  ⟨.call, .inr (by decide), derives, by cases headKind rest <;> decide⟩

theorem Spans.of_primary (derives : Derives .primary input value rest) :
    Spans floor input value rest := of_call (.uncalled derives)

theorem Spans.unary (spans : Spans .unary input value rest) : Derives .unary input value rest := by
  obtain ⟨p, above, derives, _⟩ := spans
  exact derives.weaken (above.elim Nat.le_of_lt id)

theorem Spans.level {n : Nat} (last : n < 4) (spans : Spans (.ofLevel n) input value rest) :
    Derives (.level (n + 1)) input value rest := by
  obtain ⟨p, above, derives, _⟩ := spans
  match n, last with
  | 0, _ => exact derives.weaken (q := .lessGreater) (above.elim id (Nat.le_trans (by decide)))
  | 1, _ => exact derives.weaken (q := .sum) (above.elim id (Nat.le_trans (by decide)))
  | 2, _ => exact derives.weaken (q := .product) (above.elim id (Nat.le_trans (by decide)))
  | 3, _ => exact .tightest (derives.weaken (q := .unary) (above.elim id id))

theorem Spans.expression (spans : Spans .lowest input value rest)
    (weak : standard.precedence (headKind rest) ≤ .lowest) :
    Derives .expression input value rest := by
  obtain ⟨p, above, derives, _⟩ := spans
  have loose : Precedence.equals ≤ p := above.elim id (Nat.le_trans (by decide))
  exact .expression (derives.weaken loose) fun more => continues_iff.mp more weak

theorem Spans.binary {n : Nat} {left right : Expr} {sign : Terminal}
    (spans : Spans floor input left (sign :: middle)) (level : level? sign.kind = some n)
    (above : floor < .ofLevel n) (operand : Spans (.ofLevel n) middle right rest)
    (weak : standard.precedence (headKind rest) ≤ .ofLevel n) :
    Spans floor input (.binary left sign.literal right) rest := by
  obtain ⟨p, _, derives, binds⟩ := spans
  rw [headKind_cons, Grammar.precedence_of_level level] at binds
  have last := level?_lt level
  have left := Category.ofPrecedence_ofLevel last ▸ derives.weaken binds
  refine ⟨.ofLevel n, .inl above, ?_, weak⟩
  rw [Category.ofPrecedence_ofLevel last]
  exact .binary left level (operand.level last)

theorem Spans.call {callee : Expr} {list : List Expr} {opening : Terminal}
    (spans : Spans floor input callee (opening :: middle)) (is : opening.kind = .lparen)
    (arguments : Derives (.enclosed .arguments) (opening :: middle) list rest) :
    Spans floor input (.call callee list) rest := by
  obtain ⟨p, _, derives, binds⟩ := spans
  rw [headKind_cons, is] at binds
  exact of_call (.call (derives.weaken (q := .call) binds) arguments)

end

/-- Where a sequence of statements ends: before the end token, or on the brace of a block. -/
def Extent.Ends : Extent → List Terminal → List Terminal → Prop
  | .program, middle, rest => ∃ last, last.kind = .eof ∧ middle = [last] ∧ rest = [last]
  | .block, middle, rest => (∃ last, last.kind = .eof ∧ middle = [last] ∧ rest = [last]) ∨
    ∃ close, close.kind = .rbrace ∧ middle = close :: rest

theorem Extent.ends_of_eof {extent : Extent} {last : Terminal} (ended : last.kind = .eof) :
    extent.Ends [last] [last] := by
  cases extent with
  | program => exact ⟨last, ended, rfl, rfl⟩
  | block => exact .inl ⟨last, ended, rfl, rfl⟩

/-- How the grammar derives what a phrase reads. -/
def Phrase.Derived : {form : Form} → Phrase form → List Terminal → form.Tree →
    List Terminal → Prop
  | _, .start rule, input, value, rest => ∀ floor, standard.start (headKind input) = some rule →
    Spans floor input value rest
  | _, .expression floor, input, value, rest => Spans floor input value rest ∧
    standard.precedence (headKind rest) ≤ floor
  | _, .continuation floor left, middle, value, rest => ∀ input, Spans floor input left middle →
    Spans floor input value rest ∧ standard.precedence (headKind rest) ≤ floor
  | _, .extend left rule, middle, value, rest => ∀ floor input,
    standard.tighter? floor (headKind middle) = some rule → Spans floor input left middle →
      Spans floor input value rest
  | _, .items of, input, list, rest => Derives (.items of) input list rest
  | _, .enclosed of, input, list, rest => ∀ opening, opening.kind = .lparen →
    Derives (.enclosed of) (opening :: input) list rest
  | _, .block, input, list, rest => ∀ opening, opening.kind = .lbrace →
    Derives .block (opening :: input) list rest
  | _, .statements extent, input, list, rest => ∃ middle, extent.Ends middle rest ∧
    Derives .statements input list middle
  | _, .statement, input, value, rest => Derives .statement input value rest
  | _, .statementBy rule, input, value, rest => standard.statementRule (headKind input) = rule →
    Derives .statement input value rest

theorem Reads.derives {phrase : Phrase form} {value : form.Tree} {input rest : List Terminal}
    (reads : Reads standard room phrase input value rest) : phrase.Derived input value rest := by
  induction reads with
  | identifier =>
    intro floor begun
    exact .of_primary (.identifier (Grammar.opens_of_start begun))
  | integer value =>
    intro floor begun
    obtain ⟨numeral, small, rfl⟩ := Text.numeralBelow?_eq_some_iff.mp value
    exact .of_primary (.integer (Grammar.opens_of_start begun) numeral small)
  | boolean =>
    intro floor begun
    rcases Grammar.opens_of_start begun with is | is <;> rw [headKind_cons] at is
    · rw [decide_eq_true is]
      exact .of_primary (.true is)
    · rw [decide_eq_false (by rw [is]; nofun)]
      exact .of_primary (.false is)
  | unary _ ih =>
    intro floor begun
    exact ⟨.unary, .inr (Nat.le_refl _), .unary (Grammar.opens_of_start begun) ih.1.unary, ih.2⟩
  | grouped _ closed ih =>
    intro floor begun
    exact .of_primary (.grouped (Grammar.opens_of_start begun) (ih.1.expression ih.2) closed)
  | conditional opened _ closed braced _ _ ih ih' =>
    intro floor begun
    exact .of_primary (.conditional (Grammar.opens_of_start begun) opened (ih.1.expression ih.2)
      closed (ih' _ braced))
  | alternative opened _ closed braced _ word braced' _ ih ih' ih'' =>
    intro floor begun
    exact .of_primary (.alternative (Grammar.opens_of_start begun) opened (ih.1.expression ih.2)
      closed (ih' _ braced) word (ih'' _ braced'))
  | function opened _ braced _ ih ih' =>
    intro floor begun
    exact .of_primary (.function (Grammar.opens_of_start begun) (ih _ opened) (ih' _ braced))
  | binary _ ih =>
    intro floor input begun spans
    obtain ⟨n, level, above⟩ := Grammar.level_of_tighter? begun
    rw [headKind_cons] at level
    rw [Grammar.precedence_of_level level] at ih
    exact spans.binary level above ih.1 ih.2
  | call _ ih =>
    intro floor input begun spans
    have is := Grammar.lparen_of_tighter? begun
    exact spans.call is (ih _ is)
  | expression begun _ _ ih ih' => exact ih' _ (ih _ begun)
  | stop ends =>
    intro input spans
    exact ⟨spans, Grammar.tighter?_eq_none_iff.mp ends⟩
  | extend begun _ _ ih ih' =>
    intro input spans
    exact ih' input (ih _ input begun spans)
  | empty closed =>
    intro opening opened
    exact .empty opened closed
  | full _ _ closed ih =>
    intro opening opened
    exact .full opened ih closed
  | lastParameter is => exact .lastParameter is
  | parameter is comma _ ih => exact .parameter is comma ih
  | lastArgument _ _ ih => exact .lastArgument (ih.1.expression ih.2)
  | argument _ comma _ ih ih' => exact .argument (ih.1.expression ih.2) comma ih'
  | block _ ih =>
    intro opening opened
    obtain ⟨middle, ⟨last, ended, rfl, rfl⟩ | ⟨close, closed, rfl⟩, derives⟩ := ih
    · exact .openBlock opened derives ended
    · exact .block opened derives closed
  | binding name sign _ passed ih =>
    intro begun
    exact .binding (Grammar.letWord_of_statementRule begun) name sign (ih.1.expression ih.2)
      (terminated_iff.mpr passed)
  | bareReturn ends passed =>
    intro begun
    exact .bareReturn (Grammar.returnWord_of_statementRule begun) (Parts.endsReturn_iff.mp ends)
      (terminated_iff.mpr passed)
  | returning goes _ passed ih =>
    intro begun
    refine .returning (Grammar.returnWord_of_statementRule begun) ?_ (ih.1.expression ih.2)
      (terminated_iff.mpr passed)
    intro ends
    exact absurd (Parts.endsReturn_iff.mpr ends) (by rw [goes]; nofun)
  | expressionStatement _ passed ih =>
    intro begun
    exact .alone (ih.1.expression ih.2) (terminated_iff.mpr passed)
  | statement _ ih => exact ih rfl
  | finish ended => exact ⟨_, Extent.ends_of_eof ended, .none⟩
  | close closed => exact ⟨_, .inr ⟨_, closed, rfl⟩, .none⟩
  | next _ _ _ ih ih' =>
    obtain ⟨middle, ends, derives⟩ := ih'
    exact ⟨middle, ends, .more ih derives⟩

theorem Reads.begins {value : Expr} {input rest : List Terminal}
    (reads : Reads standard room (.expression .lowest) input value rest) :
    Derives.Begins .expression (headKind input) :=
  (reads.derives.1.expression reads.derives.2).begins

end MonkeySyntax
