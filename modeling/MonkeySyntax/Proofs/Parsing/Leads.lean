import MonkeySyntax.Proofs.Parsing.Reads

/-! Operands, with the loop that reads what follows them still to run. What is known of an operand
alone says nothing of that loop, and the loop may be entered again with the value that an operator
has built; so a left operand is stated by what it leads the loop to. -/
namespace MonkeySyntax

section

variable {grammar : Grammar} {kind : Kind} {floor strength : Precedence}

theorem Grammar.precedence_of_continuation {rule : ContinuationRule}
    (entry : grammar.continuation kind = some (strength, rule)) :
    grammar.precedence kind = strength := by
  rw [precedence, entry]
  rfl

theorem Grammar.tighter?_eq_some {rule : ContinuationRule}
    (entry : grammar.continuation kind = some (strength, rule)) (other : kind ≠ .semicolon)
    (weaker : floor < strength) : grammar.tighter? floor kind = some rule := by
  rw [tighter?, entry]
  exact if_pos ⟨other, weaker⟩

theorem Grammar.tighter?_eq_none (weak : grammar.precedence kind ≤ floor) :
    grammar.tighter? floor kind = none := by
  rw [tighter?]
  cases entry : grammar.continuation kind with
  | none => rfl
  | some pair =>
    rw [precedence_of_continuation entry] at weak
    exact if_neg fun both => absurd both.2 (Nat.not_lt.mpr weak)

end

variable {grammar : Grammar} {room : Nat} {floor strength : Precedence} {value : Expr}
  {input middle rest : List Terminal}

/-- Whatever the loop makes of a value and the terminals behind it, the input is read as that. -/
def Leads (grammar : Grammar) (room : Nat) (floor : Precedence) (input : List Terminal)
    (value : Expr) (rest : List Terminal) : Prop :=
  ∀ whole last, Reads grammar room (.continuation floor value) rest whole last →
    Reads grammar (room + 1) (.expression floor) input whole last

theorem Leads.complete (leads : Leads grammar room floor input value rest)
    (weak : grammar.precedence (headKind rest) ≤ floor) :
    Reads grammar (room + 1) (.expression floor) input value rest :=
  leads _ _ (.stop (Grammar.tighter?_eq_none weak))

theorem Reads.leads {rule : StartRule} {first : Terminal}
    (begun : grammar.start first.kind = some rule)
    (reads : Reads grammar room (.start rule) (first :: input) value rest) :
    Leads grammar room floor (first :: input) value rest := fun _ _ loop =>
  .expression begun reads loop

theorem Leads.binary {left right : Expr} {sign : Terminal}
    (leads : Leads grammar room floor input left (sign :: middle))
    (entry : grammar.continuation sign.kind = some (strength, .binary))
    (other : sign.kind ≠ .semicolon) (weaker : floor < strength)
    (operand : Reads grammar room (.expression strength) middle right rest) :
    Leads grammar room floor input (.binary left sign.literal right) rest := fun _ _ loop =>
  leads _ _ (.extend (Grammar.tighter?_eq_some entry other weaker)
    (.binary (Grammar.precedence_of_continuation entry ▸ operand)) loop)

theorem Leads.call {callee : Expr} {list : List Expr} {opening : Terminal}
    (leads : Leads grammar room floor input callee (opening :: middle))
    (entry : grammar.continuation opening.kind = some (strength, .call))
    (other : opening.kind ≠ .semicolon) (weaker : floor < strength)
    (arguments : Reads grammar room (.enclosed .arguments) middle list rest) :
    Leads grammar room floor input (.call callee list) rest := fun _ _ loop =>
  leads _ _ (.extend (Grammar.tighter?_eq_some entry other weaker) (.call arguments) loop)

theorem Reads.flag {first : Terminal} {flag : Bool}
    (same : decide (first.kind = .trueWord) = flag) :
    Reads grammar room (.start .boolean) (first :: rest) (.boolean flag) rest := by
  subst same
  exact .boolean

end MonkeySyntax
