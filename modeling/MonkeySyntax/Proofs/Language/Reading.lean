import MonkeySyntax.Proofs.Language.Derives
import MonkeySyntax.Proofs.Parsing.Leads

/-! What the grammar derives is read. A derivation of an operand says nothing of the loop that reads
what follows it, so operands are stated with the loop still to run: whatever the loop makes of the
operand and the terminals behind it, the whole expression is read as that. -/
namespace MonkeySyntax

open Grammar (standard)

/-- The precedence of the operators of a level; above the last level only unary ones are left. -/
def Precedence.ofLevel : Nat → Precedence
  | 0 => .equals
  | 1 => .lessGreater
  | 2 => .sum
  | 3 => .product
  | _ => .unary

theorem Grammar.continuation_of_level {kind : Kind} {n : Nat} (level : level? kind = some n) :
    standard.continuation kind = some (.ofLevel n, .binary) := by
  cases kind <;> cases level <;> rfl

theorem Grammar.precedence_of_level {kind : Kind} {n : Nat} (level : level? kind = some n) :
    standard.precedence kind = .ofLevel n :=
  precedence_of_continuation (continuation_of_level level)

theorem Grammar.tighter?_eq_none_iff {kind : Kind} {floor : Precedence} :
    standard.tighter? floor kind = none ↔ standard.precedence kind ≤ floor := by
  cases kind <;> cases floor <;> decide

theorem continues_iff {kind : Kind} : Continues kind ↔ ¬ standard.precedence kind ≤ .lowest := by
  simp only [Continues]
  cases kind <;> decide

theorem level?_lt {kind : Kind} {n : Nat} (level : level? kind = some n) : n < 4 := by
  cases kind <;> cases level <;> decide

theorem Precedence.ofLevel_lt {n : Nat} (last : n < 4) : ofLevel n < ofLevel (n + 1) := by
  match n, last with
  | 0, _ | 1, _ | 2, _ | 3, _ => decide

theorem Precedence.lowest_lt_ofLevel (n : Nat) : lowest < ofLevel n := by
  match n with
  | 0 | 1 | 2 | 3 => decide
  | _ + 4 => exact (by decide : lowest < unary)

theorem Precedence.ofLevel_le (n : Nat) : ofLevel n ≤ unary := by
  match n with
  | 0 | 1 | 2 | 3 => decide
  | _ + 4 => exact Nat.le_refl _

theorem level?_ne_elseWord {kind : Kind} {n : Nat} (level : level? kind = some n) :
    kind ≠ .elseWord := by
  rintro rfl
  cases level

theorem level?_ne_semicolon {kind : Kind} {n : Nat} (level : level? kind = some n) :
    kind ≠ .semicolon := by
  rintro rfl
  cases level

theorem Grammar.start_of_sign {kind : Kind} (sign : kind ∈ [.bang, .minus]) :
    standard.start kind = some .unary := by
  simp only [List.mem_cons, List.not_mem_nil, or_false] at sign
  rcases sign with rfl | rfl <;> rfl

theorem Parts.endsReturn_iff {kind : Kind} :
    Parts.endsReturn kind = true ↔ kind ∈ [.semicolon, .rbrace, .eof] := by
  cases kind <;> decide

theorem terminated_iff {middle rest : List Terminal} :
    Terminated middle rest ↔ passSemicolon middle = rest := by
  constructor
  · rintro (semicolon | other)
    · exact if_pos semicolon
    · cases middle with
      | nil => rfl
      | cons first tail => exact if_neg other
  · rintro rfl
    cases middle with
    | nil => exact .bare nofun
    | cons first tail =>
      rw [passSemicolon]
      split
      · exact .semicolon ‹_›
      · exact .bare ‹_›

theorem Terminated.headKind_ne {kind : Kind} {middle rest : List Terminal}
    (terminated : Terminated middle rest) (other : kind ≠ .semicolon)
    (after : headKind rest ≠ kind) : headKind middle ≠ kind := by
  cases terminated with
  | semicolon is => exact fun same => other (same.symm.trans is)
  | bare => exact after

namespace Derives

/-- How many terminals a category derives at the least. -/
@[simp] def least : Category form → Nat
  | .program | .statements => 0
  | _ => 1

theorem length_le {category : Category form} {value : form.Tree} {input rest : List Terminal}
    (derives : Derives category input value rest) :
    rest.length + least category ≤ input.length := by
  have shorter {middle rest : List Terminal} (terminated : Terminated middle rest) :
      rest.length ≤ middle.length :=
    terminated_iff.mp terminated ▸ passSemicolon_length_le middle
  induction derives with
  | binding _ _ _ _ terminated ih | returning _ _ _ terminated ih | alone _ terminated ih =>
    have := shorter terminated
    simp only [least, List.length_cons] at ih ⊢
    omega
  | bareReturn _ _ terminated =>
    have := shorter terminated
    simp only [least, List.length_cons]
    omega
  | _ => simp_all [least] <;> omega

/-- What the input of a category may begin with. -/
@[simp] def Begins : Category form → Kind → Prop
  | .expression, kind | .level _, kind | .unary, kind | .call, kind | .primary, kind
  | .items _, kind => (standard.start kind).isSome
  | .statement, kind => kind = .letWord ∨ kind = .returnWord ∨ (standard.start kind).isSome
  | _, _ => True

theorem begins {category : Category form} {value : form.Tree} {input rest : List Terminal}
    (derives : Derives category input value rest) : Begins category (headKind input) := by
  induction derives with
  | alone _ _ ih => exact .inr (.inr ih)
  | unary sign =>
    simp only [List.mem_cons, List.not_mem_nil, or_false] at sign
    rcases sign with is | is <;> simp [Begins, standard, is]
  | _ => simp_all [Begins, standard]

theorem Begins.endsAt {extent : Extent} {kind : Kind} (begins : Begins .statement kind) :
    extent.endsAt kind = Bool.false := by
  cases extent <;> cases kind <;> first | rfl | simp [Begins, standard] at begins

theorem Begins.endsReturn {kind : Kind} (begins : Begins .expression kind) :
    Parts.endsReturn kind = Bool.false := by
  cases kind <;> first | rfl | cases begins

theorem Begins.ne_rparen {items : Items item} {kind : Kind} (begins : Begins (.items items) kind) :
    kind ≠ .rparen := by
  rintro rfl
  cases begins

theorem Begins.statementRule {kind : Kind} (begins : Begins .expression kind) :
    standard.statementRule kind = .expression := by
  cases kind <;> first | rfl | cases begins

theorem statements_headKind_ne {list : List Stmt} {middle rest : List Terminal}
    (derives : Derives .statements middle list rest) (after : headKind rest ≠ .elseWord) :
    headKind middle ≠ .elseWord := by
  cases derives with
  | none => exact after
  | more statement =>
    intro is
    have first := statement.begins
    rw [is] at first
    simp [Begins, standard] at first

end Derives

section Reading

variable {room n : Nat} {floor : Precedence} {value : Expr} {input middle rest : List Terminal}

/-- How the reader takes what a category derives. -/
def Category.Read : {form : Form} → Category form → List Terminal → form.Tree →
    List Terminal → Prop
  | _, .program, input, list, _ => ∀ room, input.length ≤ room →
    ∃ rest, Reads standard room (.statements .program) input list rest
  | _, .block, input, list, rest => ∀ room, input.length ≤ room →
    ∃ opening body, input = opening :: body ∧ opening.kind = .lbrace ∧
      Reads standard room .block body list rest
  | _, .statements, input, list, rest => ∀ room extent last, input.length ≤ room →
    headKind rest ≠ .elseWord → Reads standard room (.statements extent) rest [] last →
      Reads standard room (.statements extent) input list last
  | _, .statement, input, value, rest => ∀ room, input.length ≤ room →
    headKind rest ≠ .elseWord → Reads standard room .statement input value rest
  | _, .expression, input, value, rest => ∀ room, input.length ≤ room →
    headKind rest ≠ .elseWord → Reads standard room (.expression .lowest) input value rest
  | _, .level n, input, value, rest => ∀ room floor, input.length ≤ room + 1 →
    headKind rest ≠ .elseWord → floor < .ofLevel n →
      standard.precedence (headKind rest) ≤ .ofLevel n → Leads standard room floor input value rest
  | _, .unary, input, value, rest => ∀ room floor, input.length ≤ room + 1 →
    headKind rest ≠ .elseWord → floor ≤ .unary →
      standard.precedence (headKind rest) ≤ .unary → Leads standard room floor input value rest
  | _, .call, input, value, rest | _, .primary, input, value, rest => ∀ room floor,
    input.length ≤ room + 1 → headKind rest ≠ .elseWord → floor ≤ .unary →
      Leads standard room floor input value rest
  | _, .enclosed of, input, list, rest => ∀ room, input.length ≤ room →
    ∃ opening tail, input = opening :: tail ∧ opening.kind = .lparen ∧
      Reads standard room (.enclosed of) tail list rest
  | _, .items of, input, list, rest => ∀ room, input.length ≤ room →
    headKind rest = .rparen → Reads standard room (.items of) input list rest

theorem Leads.level {left right : Expr} {sign : Terminal} {last : List Terminal}
    (leads : Leads standard room floor input left (sign :: middle))
    (level : level? sign.kind = some n) (weaker : floor < .ofLevel n)
    (operand : Reads standard room (.expression (.ofLevel n)) middle right last) :
    Leads standard room floor input (.binary left sign.literal right) last :=
  leads.binary (Grammar.continuation_of_level level) (level?_ne_semicolon level) weaker operand

namespace Category.Read

theorem more {list : List Stmt} {stmt : Stmt} (statement : Derives .statement input stmt middle)
    (others : Derives .statements middle list rest)
    (first : Category.statement.Read input stmt middle)
    (second : Category.statements.Read middle list rest) :
    Category.statements.Read input (stmt :: list) rest := by
  intro room extent last enough after ends
  have shorter := statement.length_le
  simp only [Derives.least] at shorter
  have stmt := first room enough (others.statements_headKind_ne after)
  exact .next statement.begins.endsAt stmt (second room extent last (by omega) after ends)

theorem returning {word : Terminal} (is : word.kind = .returnWord)
    (goes : headKind input ∉ [.semicolon, .rbrace, .eof]) (terminated : Terminated middle rest)
    (inside : Category.expression.Read input value middle) :
    Category.statement.Read (word :: input) (.returning (some value)) rest := by
  intro room enough after
  have goes : Parts.endsReturn (headKind input) = false :=
    Bool.eq_false_iff.mpr fun ends => goes (Parts.endsReturn_iff.mp ends)
  have value := inside room (Nat.le_of_succ_le enough) (terminated.headKind_ne nofun after)
  apply Reads.statement
  rw [headKind_cons, is]
  exact .returning goes value (terminated_iff.mp terminated)

theorem expression (derives : Derives (.level 0) input value rest)
    (stops : ¬ Continues (headKind rest)) (loosest : (Category.level 0).Read input value rest) :
    Category.expression.Read input value rest := by
  intro room enough after
  have shorter := derives.length_le
  simp only [Derives.least] at shorter
  obtain ⟨room, rfl⟩ : ∃ n, room = n + 1 := ⟨room - 1, by omega⟩
  have weak : standard.precedence (headKind rest) ≤ .lowest :=
    Classical.byContradiction fun more => stops (continues_iff.mpr more)
  have leads := loosest room .lowest enough after (by decide) (Nat.le_trans weak (Nat.zero_le _))
  exact leads.complete weak

theorem binary {left right : Expr} {sign : Terminal}
    (derives : Derives (.level n) input left (sign :: middle)) (level : level? sign.kind = some n)
    (derives' : Derives (.level (n + 1)) middle right rest)
    (first : (Category.level n).Read input left (sign :: middle))
    (second : (Category.level (n + 1)).Read middle right rest) :
    (Category.level n).Read input (.binary left sign.literal right) rest := by
  intro room floor enough after weaker weak
  have shorter := derives.length_le
  have shorter' := derives'.length_le
  simp only [Derives.least, List.length_cons] at shorter shorter'
  obtain ⟨room, rfl⟩ : ∃ n, room = n + 1 := ⟨room - 1, by omega⟩
  have equal := Nat.le_of_eq (congrArg Precedence.rank (Grammar.precedence_of_level level))
  have up := Precedence.ofLevel_lt (level?_lt level)
  have left := first (room + 1) floor enough (level?_ne_elseWord level) weaker equal
  have right := second room _ (by omega) after up (Nat.le_trans weak (Nat.le_of_lt up))
  exact left.level level weaker (right.complete weak)

theorem unary {operand : Expr} {sign : Terminal} (is : sign.kind ∈ [.bang, .minus])
    (derives : Derives .unary input operand rest)
    (inside : Category.unary.Read input operand rest) :
    Category.unary.Read (sign :: input) (.unary sign.literal operand) rest := by
  intro room floor enough after _ weak
  have shorter := derives.length_le
  simp only [Derives.least, List.length_cons] at shorter enough
  obtain ⟨room, rfl⟩ : ∃ n, room = n + 1 := ⟨room - 1, by omega⟩
  have operand := inside room .unary (by omega) after (Nat.le_refl _) weak
  exact Reads.leads (Grammar.start_of_sign is) (.unary (operand.complete weak))

theorem call {callee : Expr} {list : List Expr} (derives : Derives .call input callee middle)
    (first : Category.call.Read input callee middle)
    (arguments : (Category.enclosed .arguments).Read middle list rest) :
    Category.call.Read input (.call callee list) rest := by
  intro room floor enough _ weaker
  have shorter := derives.length_le
  simp only [Derives.least] at shorter
  obtain ⟨opening, tail, rfl, opened, reads⟩ := arguments room (by omega)
  have callee := first room floor enough (by simp [opened]) weaker
  exact callee.call (by rw [opened]; rfl) (by rw [opened]; nofun) (Nat.lt_succ_of_le weaker) reads

theorem conditional {word opening close : Terminal} {condition : Expr} {consequence : List Stmt}
    (is : word.kind = .ifWord) (opened : opening.kind = .lparen)
    (derives : Derives .expression input condition (close :: middle))
    (closed : close.kind = .rparen)
    (first : Category.expression.Read input condition (close :: middle))
    (second : Category.block.Read middle consequence rest) :
    Category.primary.Read (word :: opening :: input) (.conditional condition consequence none)
      rest := by
  intro room floor enough after _
  have shorter := derives.length_le
  simp only [Derives.least, List.length_cons] at shorter enough
  obtain ⟨brace, body, rfl, braced, block⟩ := second room (by omega)
  have condition := first room (by omega) (by simp [closed])
  exact Reads.leads (by rw [is]; rfl) (.conditional opened condition closed braced block after)

theorem alternative {word opening close word' : Terminal} {condition : Expr}
    {consequence alternative : List Stmt} {last : List Terminal} (is : word.kind = .ifWord)
    (opened : opening.kind = .lparen)
    (derives : Derives .expression input condition (close :: middle))
    (closed : close.kind = .rparen)
    (derives' : Derives .block middle consequence (word' :: last)) (is' : word'.kind = .elseWord)
    (first : Category.expression.Read input condition (close :: middle))
    (second : Category.block.Read middle consequence (word' :: last))
    (third : Category.block.Read last alternative rest) :
    Category.primary.Read (word :: opening :: input)
      (.conditional condition consequence (some alternative)) rest := by
  intro room floor enough _ _
  have shorter := derives.length_le
  have shorter' := derives'.length_le
  simp only [Derives.least, List.length_cons] at shorter shorter' enough
  obtain ⟨brace, body, rfl, braced, block⟩ := second room (by omega)
  obtain ⟨brace', body', rfl, braced', block'⟩ := third room (by omega)
  have condition := first room (by omega) (by simp [closed])
  exact Reads.leads (by rw [is]; rfl)
    (.alternative opened condition closed braced block is' braced' block')

theorem function {word : Terminal} {names : List String} {body : List Stmt}
    (is : word.kind = .function) (derives : Derives (.enclosed .parameters) input names middle)
    (first : (Category.enclosed .parameters).Read input names middle)
    (second : Category.block.Read middle body rest) :
    Category.primary.Read (word :: input) (.function names body) rest := by
  intro room floor enough _ _
  have shorter := derives.length_le
  simp only [Derives.least, List.length_cons] at shorter enough
  obtain ⟨opening, names, rfl, opened, reads⟩ := first room (by omega)
  obtain ⟨brace, body, rfl, braced, block⟩ := second room (by omega)
  exact Reads.leads (by rw [is]; rfl) (.function opened reads braced block)

end Category.Read

end Reading

theorem Derives.read {category : Category form} {value : form.Tree} {input rest : List Terminal}
    (derives : Derives category input value rest) : category.Read input value rest := by
  induction derives with
  | program _ ended ih =>
    intro room enough
    exact ⟨_, ih room .program _ enough (by simp [ended]) (.finish ended)⟩
  | block opened _ closed ih =>
    intro room enough
    have body := ih room .block _ (Nat.le_of_succ_le enough) (by simp [closed]) (.close closed)
    exact ⟨_, _, rfl, opened, .block body⟩
  | openBlock opened _ ended ih =>
    intro room enough
    have body := ih room .block _ (Nat.le_of_succ_le enough) (by simp [ended]) (.finish ended)
    exact ⟨_, _, rfl, opened, .block body⟩
  | none =>
    intro room extent last _ _ ends
    exact ends
  | more statement others ih ih' => exact .more statement others ih ih'
  | binding word name sign _ terminated ih =>
    intro room enough after
    apply Reads.statement
    rw [headKind_cons, word]
    refine .binding name sign (ih room ?_ ?_) (terminated_iff.mp terminated)
    · simp only [List.length_cons] at enough; omega
    · exact terminated.headKind_ne nofun after
  | bareReturn word ends terminated =>
    intro room enough after
    apply Reads.statement
    rw [headKind_cons, word]
    exact .bareReturn (Parts.endsReturn_iff.mpr ends) (terminated_iff.mp terminated)
  | returning word goes _ terminated ih => exact .returning word goes terminated ih
  | alone derives terminated ih =>
    intro room enough after
    apply Reads.statement
    rw [derives.begins.statementRule]
    exact .expressionStatement (ih room enough (terminated.headKind_ne nofun after))
      (terminated_iff.mp terminated)
  | expression derives stops ih => exact .expression derives stops ih
  | binary left level right ih ih' => exact .binary left level right ih ih'
  | tighter below _ ih =>
    intro room floor enough after weaker weak
    have up := Precedence.ofLevel_lt below
    exact ih room floor enough after (Nat.lt_trans weaker up) (Nat.le_trans weak (Nat.le_of_lt up))
  | tightest _ ih =>
    intro room floor enough after weaker weak
    exact ih room floor enough after (Nat.le_of_lt weaker) weak
  | unary sign operand ih => exact .unary sign operand ih
  | applied _ ih =>
    intro room floor enough after weaker _
    exact ih room floor enough after weaker
  | call callee _ ih ih' => exact .call callee ih ih'
  | uncalled _ ih => exact ih
  | identifier is =>
    intro room floor enough after weaker
    exact Reads.leads (by rw [is]; rfl) .identifier
  | integer is numeral small =>
    intro room floor enough after weaker
    refine Reads.leads (by rw [is]; rfl) (.integer ?_)
    exact Text.numeralBelow?_eq_some_iff.mpr ⟨numeral, small, rfl⟩
  | «true» is =>
    intro room floor enough after weaker
    exact Reads.leads (by rw [is]; rfl) (.flag (decide_eq_true is))
  | «false» is =>
    intro room floor enough after weaker
    exact Reads.leads (by rw [is]; rfl) (.flag (by rw [is]; rfl))
  | grouped opened _ closed ih =>
    intro room floor enough after weaker
    refine Reads.leads (by rw [opened]; rfl) (.grouped ?_ closed)
    exact ih room (Nat.le_of_succ_le_succ enough) (by simp [closed])
  | conditional word opened condition closed _ ih ih' =>
    exact .conditional word opened condition closed ih ih'
  | alternative word opened condition closed consequence word' _ ih ih' ih'' =>
    exact .alternative word opened condition closed consequence word' ih ih' ih''
  | function word parameters _ ih ih' => exact .function word parameters ih ih'
  | empty opened closed =>
    intro room enough
    exact ⟨_, _, rfl, opened, .empty closed⟩
  | full opened items closed ih =>
    intro room enough
    have reads := ih room (Nat.le_of_succ_le enough) closed
    exact ⟨_, _, rfl, opened, .full items.begins.ne_rparen reads closed⟩
  | lastParameter is =>
    intro room enough closed
    exact .lastParameter is (by rw [closed]; nofun)
  | parameter is comma _ ih =>
    intro room enough closed
    simp only [List.length_cons] at enough
    exact .parameter is comma (ih room (by omega) closed)
  | lastArgument _ ih =>
    intro room enough closed
    exact .lastArgument (ih room enough (by rw [closed]; nofun)) (by rw [closed]; nofun)
  | argument first comma _ ih ih' =>
    intro room enough closed
    have shorter := first.length_le
    simp only [least, List.length_cons] at shorter
    exact .argument (ih room enough (by simp [comma])) comma (ih' room (by omega) closed)

end MonkeySyntax
