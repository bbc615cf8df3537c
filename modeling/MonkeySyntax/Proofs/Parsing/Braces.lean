import MonkeySyntax.Proofs.Parsing.Reads

/-! Braces in what a reading takes off its input. A phrase closes the braces it opens, and a block
the one before it; only at the end of the input a block stops with its brace still open. And nothing
but a statement ends with a semicolon, unless it stopped at the end of the input. -/
namespace MonkeySyntax

/-- One more brace is open, or one less. -/
def Kind.brace : Kind → Int
  | .lbrace => 1
  | .rbrace => -1
  | _ => 0

/-- Opening braces less closing ones. -/
def braces : List Terminal → Int
  | [] => 0
  | first :: rest => first.kind.brace + braces rest

@[simp] theorem braces_nil : braces [] = 0 := rfl

@[simp] theorem braces_cons (first : Terminal) (rest : List Terminal) :
    braces (first :: rest) = first.kind.brace + braces rest := rfl

@[simp] theorem braces_append (before after : List Terminal) :
    braces (before ++ after) = braces before + braces after := by
  induction before with
  | nil => simp
  | cons first rest ih => rw [List.cons_append, braces_cons, braces_cons, ih, Int.add_assoc]

theorem braces_eq_count (terminals : List Terminal) :
    braces terminals = (terminals.countP (·.kind = .lbrace) : Int) -
      terminals.countP (·.kind = .rbrace) := by
  induction terminals with
  | nil => rfl
  | cons first rest ih =>
    rw [braces_cons, ih, List.countP_cons, List.countP_cons]
    cases kind : first.kind <;> simp [Kind.brace] <;> omega

theorem Cursor.braces_terminals (cursor : Cursor) :
    braces cursor.terminals = (cursor.tokens.countP (·.kind = .lbrace) : Int) -
      cursor.tokens.countP (·.kind = .rbrace) := by
  rw [braces_eq_count, terminals, List.countP_map, List.countP_map]
  rfl

/-- Neither a brace nor a semicolon. -/
def Kind.Plain (kind : Kind) : Prop := kind.brace = 0 ∧ kind ≠ .semicolon

instance : DecidablePred Kind.Plain := fun _ => inferInstanceAs (Decidable (_ ∧ _))

namespace Grammar

variable {kind : Kind}

theorem plain_of_start {rule : StartRule} (found : standard.start kind = some rule) :
    kind.Plain := by
  cases kind <;> first | exact ⟨rfl, by decide⟩ | cases found

theorem plain_of_tighter {floor : Precedence} {rule : ContinuationRule}
    (found : standard.tighter? floor kind = some rule) : kind.Plain := by
  cases kind <;> first | exact ⟨rfl, by decide⟩ | cases found

theorem plain_of_statement {rule : StatementRule} (found : standard.statement kind = some rule) :
    kind.Plain := by
  cases kind <;> first | exact ⟨rfl, by decide⟩ | cases found

end Grammar

/-- No semicolon at the end. -/
def Tight (terminals : List Terminal) : Prop :=
  ∀ last, terminals.getLast? = some last → last.kind ≠ .semicolon

/-- What is taken off the input closes its braces and those due, and is tight if it has to be; or
the input is at an end and some brace still open. -/
inductive Takes (due : Int) (tight : Prop) (input rest : List Terminal) : Prop
  | closed (used : List Terminal) : input = used ++ rest → braces used + due = 0 →
      (tight → Tight used) → Takes due tight input rest
  | cut (used : List Terminal) : input = used ++ rest → headKind rest = .eof →
      0 < braces used + due → Takes due tight input rest

namespace Takes

variable {due : Int} {tight : Prop} {first : Terminal} {input middle rest : List Terminal}

theorem refl : Takes 0 tight rest rest := .closed [] (List.nil_append rest).symm rfl fun _ => nofun

theorem push (apart : first.kind ≠ .semicolon)
    (takes : Takes (due + first.kind.brace) tight input rest) :
    Takes due tight (first :: input) rest := by
  cases takes with
  | closed used split balanced ends =>
    refine .closed (first :: used) (congrArg (first :: ·) split) ?_ fun tight last here => ?_
    · rw [braces_cons]
      omega
    · cases used with
      | nil =>
        cases here
        exact apart
      | cons second used => exact ends tight last here
  | cut used split ended unclosed =>
    refine .cut (first :: used) (congrArg (first :: ·) split) ended ?_
    rw [braces_cons]
    omega

theorem cons (plain : first.kind.Plain) (takes : Takes due tight input rest) :
    Takes due tight (first :: input) rest :=
  .push plain.2 (by rwa [plain.1, Int.add_zero])

/-- An opening brace has one closing brace more due behind it. -/
theorem opening (is : first.kind = .lbrace) (takes : Takes 1 tight input rest) :
    Takes 0 tight (first :: input) rest := .push (by rw [is]; decide) (by rwa [is])

/-- What stops at the end of the input takes nothing more. -/
theorem trans {tight' : Prop} (takes : Takes 0 tight' input middle)
    (more : Takes due tight middle rest) (joins : tight → tight' ∨ due ≠ 0) (some : 0 ≤ due)
    (stops : headKind middle = .eof → rest = middle) : Takes due tight input rest := by
  cases takes with
  | closed used split balanced ends =>
    cases more with
    | closed used' split' balanced' ends' =>
      refine .closed (used ++ used') (by rw [split, split', List.append_assoc]) ?_
        fun apart last here => ?_
      · rw [braces_append]
        omega
      · cases used' with
        | nil =>
          rw [List.append_nil] at here
          rcases joins apart with apart | due
          · exact ends apart last here
          · exact absurd balanced' (by simpa using due)
        | cons second used' => exact ends' apart last (by simpa using here)
    | cut used' split' ended unclosed =>
      refine .cut (used ++ used') (by rw [split, split', List.append_assoc]) ended ?_
      rw [braces_append]
      omega
  | cut used split ended unclosed =>
    have same := stops ended
    exact .cut used (same ▸ split) (same ▸ ended) (by omega)

/-- Where a token has to follow, the input is not at an end. -/
theorem onto {next : Terminal} {kind : Kind} (takes : Takes 0 True input (next :: middle))
    (is : next.kind = kind) (proper : kind ≠ .eof) (more : Takes 0 True (next :: middle) rest) :
    Takes 0 True input rest :=
  takes.trans more (fun _ => .inl trivial) (Int.le_refl 0) fun ended => absurd (is ▸ ended) proper

theorem through {next : Terminal} {kind : Kind} (takes : Takes 0 True input (next :: middle))
    (is : next.kind = kind) (plain : kind.Plain ∧ kind ≠ .eof) (more : Takes 0 True middle rest) :
    Takes 0 True input rest := takes.onto is plain.2 (more.cons (is ▸ plain.1))

theorem pass (takes : Takes 0 tight input middle) (passed : passSemicolon middle = rest) :
    Takes 0 False input rest := by
  subst passed
  cases takes with
  | closed used split balanced =>
    cases middle with
    | nil => exact .closed used split balanced False.elim
    | cons next middle =>
      rw [passSemicolon]
      split
      · next is =>
        refine .closed (used ++ [next]) (by rw [split, List.append_assoc]; rfl) ?_ False.elim
        rw [braces_append, braces_cons, is]
        simpa [Kind.brace] using balanced
      · exact .closed used split balanced False.elim
  | cut used split ended unclosed =>
    cases middle with
    | nil => exact .cut used split rfl unclosed
    | cons next middle =>
      have other : next.kind ≠ .semicolon := by
        rw [headKind_cons] at ended
        rw [ended]
        decide
      rw [passSemicolon, if_neg other]
      exact .cut used split ended unclosed

end Takes

namespace Phrase

/-- The braces opened before the phrase that it closes. -/
def due : Phrase form → Int
  | .block | .statements .block => 1
  | _ => 0

/-- The phrase does not end with a semicolon. -/
def Tight : Phrase form → Prop
  | .statement | .statementBy _ | .statements .program => False
  | _ => True

/-- A rule that takes its first terminal unseen is run on a plain one. -/
def Suits (kind : Kind) : Phrase form → Prop
  | .start _ | .extend _ _ | .statementBy .binding | .statementBy .returning => kind.Plain
  | _ => True

theorem due_ne_zero (extent : Extent) (tight : (statements extent).Tight) :
    (statements extent).due ≠ 0 := by
  cases extent with
  | program => exact tight.elim
  | block => decide

theorem due_nonneg (extent : Extent) : 0 ≤ (statements extent).due := by cases extent <;> decide

theorem suits_statementBy (kind : Kind) :
    (Phrase.statementBy (Grammar.standard.statementRule kind)).Suits kind := by
  rw [Grammar.statementRule]
  cases found : Grammar.standard.statement kind with
  | none => trivial
  | some rule =>
    cases rule with
    | any | expression => trivial
    | binding | returning => exact Grammar.plain_of_statement found

end Phrase

theorem Takes.ended {first : Terminal} (extent : Extent) (is : first.kind = .eof) :
    Takes (Phrase.statements extent).due (Phrase.statements extent).Tight [first] [first] := by
  cases extent with
  | program => exact .refl
  | block => exact .cut [] rfl is (by decide)

namespace Reads

open Grammar (standard)

variable {middle rest : List Terminal}

/-- Nothing continues an expression at the end of the input. -/
theorem continuation_of_eof {floor : Precedence} {left value : Expr}
    (reads : Reads standard room (.continuation floor left) middle value rest)
    (ended : headKind middle = .eof) : rest = middle := by
  cases reads with
  | stop => rfl
  | extend found =>
    exact absurd ended (Grammar.grounded_standard.ne_eof_of_tighter found)

theorem statements_of_eof {extent : Extent} {list : List Stmt}
    (reads : Reads standard room (.statements extent) middle list rest)
    (ended : headKind middle = .eof) : rest = middle := by
  cases reads with
  | finish => rfl
  | close is =>
    rw [headKind_cons, is] at ended
    cases ended
  | next goes =>
    rw [ended] at goes
    cases extent <;> cases goes

theorem takes {phrase : Phrase form} {value : form.Tree} {input : List Terminal}
    (reads : Reads standard room phrase input value rest) (suits : phrase.Suits (headKind input)) :
    Takes phrase.due phrase.Tight input rest := by
  induction reads with
  | identifier | integer | boolean => exact .cons suits .refl
  | unary _ ih | binary _ ih | call _ ih => exact .cons suits (ih trivial)
  | grouped _ close ih => exact ((ih trivial).through close (by decide) .refl).cons suits
  | conditional opening _ close brace _ _ ih ih' =>
    have block := Takes.opening brace (ih' trivial)
    have condition := (ih trivial).through close (by decide) block
    exact (condition.cons (opening ▸ by decide)).cons suits
  | alternative opening _ close brace _ word brace' _ ih ih' ih'' =>
    have last := Takes.opening brace' (ih'' trivial)
    have block := Takes.opening brace (ih' trivial)
    have both := block.through word (by decide) last
    have condition := (ih trivial).through close (by decide) both
    exact (condition.cons (opening ▸ by decide)).cons suits
  | function opening _ brace _ ih ih' =>
    have body := Takes.opening brace (ih' trivial)
    have parameters := (ih trivial).onto brace (by decide) body
    exact (parameters.cons (opening ▸ by decide)).cons suits
  | expression found _ rest ih ih' =>
    exact (ih (Grammar.plain_of_start found)).trans (ih' trivial) (fun _ => .inl trivial)
      (Int.le_refl 0) (continuation_of_eof rest)
  | stop => exact .refl
  | extend found _ rest ih ih' =>
    exact (ih (Grammar.plain_of_tighter found)).trans (ih' trivial) (fun _ => .inl trivial)
      (Int.le_refl 0) (continuation_of_eof rest)
  | empty close => exact .cons (close ▸ by decide) .refl
  | full _ _ close ih => exact (ih trivial).through close (by decide) .refl
  | lastParameter is => exact .cons (is ▸ by decide) .refl
  | parameter is comma _ ih => exact ((ih trivial).cons (comma ▸ by decide)).cons (is ▸ by decide)
  | lastArgument _ _ ih => exact ih trivial
  | argument _ comma _ ih ih' => exact (ih trivial).through comma (by decide) (ih' trivial)
  | block _ ih => exact ih trivial
  | binding name sign _ passed ih =>
    have value := (ih trivial).pass passed
    exact ((value.cons (sign ▸ by decide)).cons (name ▸ by decide)).cons suits
  | bareReturn _ passed =>
    have none (input : List Terminal) : Takes 0 False input input := .refl
    exact ((none _).pass passed).cons suits
  | returning _ _ passed ih => exact ((ih trivial).pass passed).cons suits
  | expressionStatement _ passed ih => exact (ih trivial).pass passed
  | statement _ ih => exact ih (Phrase.suits_statementBy _)
  | finish is => exact .ended _ is
  | @close _ brace _ is =>
    have one : braces [brace] + 1 = 0 := by
      rw [braces_cons, is]
      decide
    refine .closed [brace] rfl one fun _ last here => ?_
    cases here
    change brace.kind ≠ _
    rw [is]
    decide
  | next _ _ others ih ih' =>
    exact (ih trivial).trans (ih' trivial) (fun tight => .inr (Phrase.due_ne_zero _ tight))
      (Phrase.due_nonneg _) (statements_of_eof others)

end Reads

end MonkeySyntax
