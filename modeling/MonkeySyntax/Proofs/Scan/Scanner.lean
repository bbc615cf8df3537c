import MonkeySyntax.Proofs.Scan.Shift
import MonkeySyntax.Proofs.Scan.Tokenization
import MonkeySyntax.Token.Session

/-! A scanner over a text that stays whole. It keeps the index of the character it holds, the index
of the one after it, and the character itself, with NUL in its place past the end. What a token is
spelled with is cut out of the text, and a cut out of range has no result. However the scanner is
moved, it is where a cursor would be, and it yields what the cursor yields: no cut is ever out of
range, and no NUL is taken for another. -/
namespace MonkeySyntax

open Text

/-- The cursor at a place of a text, which may be past its end. -/
def Cursor.standing (file : String) (text : List Char) (position : Nat) : Cursor :=
  ⟨file, position, text.drop position⟩

def Cursor.Session.standing (file : String) (text : List Char) (position : Nat)
    (saved : List Nat) : Session :=
  ⟨Cursor.standing file text position, saved.map (Cursor.standing file text)⟩

theorem Cursor.advance_standing (file : String) (text : List Char) (position : Nat) :
    (Cursor.standing file text position).advance = Cursor.standing file text (position + 1) := by
  simp [Cursor.standing, advance, forward]

theorem Cursor.next_standing (file : String) (text : List Char) (position : Nat) :
    (Cursor.standing file text position).next.2 =
      Cursor.standing file text (Cursor.standing file text position).next.2.offset := by
  simp [Cursor.standing, next, skipBlanks, forward, Nat.add_assoc]

/-- What follows a place is a text of its own. -/
theorem Cursor.standing_eq_shift (file text : String) (position : Nat) :
    Cursor.standing file text.toList position =
      (ofText file (String.ofList (text.toList.drop position))).shift position := by
  simp [Cursor.standing, ofText, shift]

structure Scanner where
  file : String
  text : List Char
  position : Nat
  upcoming : Nat
  held : Char

namespace Scanner

def peek (scanner : Scanner) : Char := scanner.text.getD scanner.upcoming '\x00'

def advance (scanner : Scanner) : Scanner :=
  { scanner with
    position := scanner.upcoming
    upcoming := scanner.upcoming + 1
    held := scanner.peek }

/-- The first character is taken up at once. -/
def ofText (file text : String) : Scanner := advance ⟨file, text.toList, 0, 0, '\x00'⟩

def atEnd (scanner : Scanner) : Bool := scanner.text.length ≤ scanner.position

theorem isBlank_nul : isBlank '\x00' = false := by decide

/-- Does not ask for the end: NUL is no blank. -/
def skipBlanks (scanner : Scanner) : Scanner :=
  if isBlank scanner.held then skipBlanks scanner.advance else scanner
  termination_by scanner.text.length - scanner.upcoming + (isBlank scanner.held).toNat
  decreasing_by
    next blank =>
    simp only [advance, peek, blank, Bool.toNat_true]
    by_cases more : scanner.upcoming < scanner.text.length
    · have := Bool.toNat_le (isBlank (scanner.text.getD scanner.upcoming '\x00'))
      omega
    · rw [List.getD_eq_getElem?_getD, List.getElem?_eq_none (Nat.le_of_not_lt more),
        Option.getD_none, isBlank_nul, Bool.toNat_false]
      omega

def passWhile (inside : Char → Bool) (scanner : Scanner) : Scanner :=
  if !scanner.atEnd && inside scanner.held then passWhile inside scanner.advance else scanner
  termination_by scanner.text.length - scanner.upcoming + (!scanner.atEnd).toNat
  decreasing_by
    next further =>
    rw [(Bool.and_eq_true_iff.mp further).1, Bool.toNat_true]
    change scanner.text.length - (scanner.upcoming + 1) +
      (!decide (scanner.text.length ≤ scanner.upcoming)).toNat < _
    by_cases more : scanner.upcoming < scanner.text.length
    · have := Bool.toNat_le (!decide (scanner.text.length ≤ scanner.upcoming))
      omega
    · rw [decide_eq_true (Nat.le_of_not_lt more), Bool.not_true, Bool.toNat_false]
      omega

/-- What is written between two indices. -/
def slice? (start stop : Nat) (scanner : Scanner) : Option String :=
  if start ≤ stop ∧ stop ≤ scanner.text.length then
    some (String.ofList ((scanner.text.drop start).take (stop - start)))
  else none

/-- The token from one place to another. -/
def cut (here after : Scanner) (kind : String → Kind) : Option (Token × Scanner) := do
  let literal ← after.slice? here.position after.position
  return (⟨kind literal, literal, here.file, here.position, after.position⟩, after)

/-- A sign and its last character. -/
def sign? (scanner : Scanner) : Option (Kind × Scanner) :=
  match scanner.held with
  | '=' => if scanner.peek == '=' then some (.eq, scanner.advance) else some (.assign, scanner)
  | '!' => if scanner.peek == '=' then some (.notEq, scanner.advance) else some (.bang, scanner)
  | ';' => some (.semicolon, scanner)
  | '(' => some (.lparen, scanner)
  | ')' => some (.rparen, scanner)
  | '\x7b' => some (.lbrace, scanner)
  | '\x7d' => some (.rbrace, scanner)
  | ',' => some (.comma, scanner)
  | '+' => some (.plus, scanner)
  | '-' => some (.minus, scanner)
  | '/' => some (.slash, scanner)
  | '*' => some (.asterisk, scanner)
  | '<' => some (.lt, scanner)
  | '>' => some (.gt, scanner)
  | _ => none

def lexeme (here : Scanner) : Option (Token × Scanner) :=
  if here.atEnd then some (⟨.eof, "", here.file, here.position, here.position⟩, here)
  else
    match here.sign? with
    | some (kind, last) => here.cut last.advance fun _ => kind
    | none =>
      if isLetter here.held then here.cut (here.passWhile isLetter) .ofWord
      else if isDigit here.held then here.cut (here.passWhile isDigit) fun _ => .int
      else here.cut here.advance fun _ => .illegal

def next (scanner : Scanner) : Option (Token × Scanner) := scanner.skipBlanks.lexeme

/-- The scanner at a place of the text. -/
def standing (file : String) (text : List Char) (position : Nat) : Scanner :=
  ⟨file, text, position, position + 1, text.getD position '\x00'⟩

@[simp] theorem position_standing (file : String) (text : List Char) (position : Nat) :
    (standing file text position).position = position := rfl

theorem advance_standing (file : String) (text : List Char) (position : Nat) :
    (standing file text position).advance = standing file text (position + 1) := rfl

section Standing

variable {file : String} {text rest : List Char} {position : Nat} {first : Char}

theorem lt_length_of_drop (here : text.drop position = first :: rest) :
    position < text.length := by
  have length := congrArg List.length here
  rw [List.length_drop, List.length_cons] at length
  omega

theorem drop_succ (here : text.drop position = first :: rest) :
    text.drop (position + 1) = rest := by
  rw [← List.drop_drop, here, List.drop_one, List.tail_cons]

theorem getD_of_drop (here : text.drop position = rest) :
    text.getD position '\x00' = rest.headD '\x00' := by
  rw [← here, List.headD_eq_head?_getD, List.head?_drop, List.getD_eq_getElem?_getD]

theorem held_standing (here : text.drop position = rest) :
    (standing file text position).held = rest.headD '\x00' := getD_of_drop here

theorem peek_standing (here : text.drop position = rest) :
    (standing file text position).peek = (rest.drop 1).headD '\x00' :=
  getD_of_drop (by rw [← here, List.drop_drop]; rfl)

theorem atEnd_standing (here : text.drop position = rest) :
    (standing file text position).atEnd = rest.isEmpty := by
  rw [Bool.eq_iff_iff, List.isEmpty_iff, ← here, List.drop_eq_nil_iff]
  exact decide_eq_true_iff

/-- Both loops pass the longest stretch that their class of characters allows. -/
theorem skipBlanks_standing (here : text.drop position = rest) :
    (standing file text position).skipBlanks =
      standing file text (position + (rest.takeWhile isBlank).length) := by
  induction rest generalizing position with
  | nil =>
    rw [skipBlanks, held_standing here]
    rfl
  | cons first rest ih =>
    rw [skipBlanks, held_standing here, List.headD_cons, advance_standing, ih (drop_succ here),
      List.takeWhile_cons]
    split
    · rw [List.length_cons, Nat.add_assoc, Nat.add_comm 1]
    · rfl

theorem passWhile_standing (inside : Char → Bool) (here : text.drop position = rest) :
    (standing file text position).passWhile inside =
      standing file text (position + (rest.takeWhile inside).length) := by
  induction rest generalizing position with
  | nil =>
    rw [passWhile, atEnd_standing here]
    rfl
  | cons first rest ih =>
    rw [passWhile, atEnd_standing here, held_standing here, List.headD_cons, advance_standing,
      ih (drop_succ here), List.takeWhile_cons, List.isEmpty_cons, Bool.not_false, Bool.true_and]
    split
    · rw [List.length_cons, Nat.add_assoc, Nat.add_comm 1]
    · rfl

/-- The lexeme at a place is within the text. -/
theorem cut_standing {kind : String → Kind} (here : text.drop position = first :: rest)
    (same : Lexeme.kind ((first :: rest).take (Lexeme.size (first :: rest))) =
      kind (String.ofList ((first :: rest).take (Lexeme.size (first :: rest))))) :
    (standing file text position).cut
        (standing file text (position + Lexeme.size (first :: rest))) kind =
      some ((⟨file, position, first :: rest⟩ : Cursor).token (Lexeme.size (first :: rest)),
        standing file text (position + Lexeme.size (first :: rest))) := by
  have start := lt_length_of_drop here
  have length := congrArg List.length here
  have inside := Lexeme.size_le (first :: rest)
  rw [List.length_drop] at length
  have range : position ≤ position + Lexeme.size (first :: rest) ∧
      position + Lexeme.size (first :: rest) ≤ text.length := by omega
  simp only [cut, slice?, standing, range, and_self, if_true, here, Nat.add_sub_cancel_left]
  rw [Cursor.token, same]
  rfl

/-- One of the two signs that another `=` makes longer. -/
theorem pair_of_some {one two kind : Kind} {last : Scanner} (sign : first = '=' ∨ first = '!')
    (kinds : Lexeme.kind [first] = one ∧ Lexeme.kind [first, '='] = two)
    (found : (if rest.headD '\x00' == '=' then
        some (two, (standing file text position).advance)
      else some (one, standing file text position)) = some (kind, last)) :
    last.advance = standing file text (position + Lexeme.size (first :: rest)) ∧
      Lexeme.kind ((first :: rest).take (Lexeme.size (first :: rest))) = kind := by
  rw [Lexeme.size_of_pair sign]
  by_cases twice : rest.head? = some '='
  · obtain ⟨after, rfl⟩ := List.head?_eq_some_iff.mp twice
    cases found
    exact ⟨rfl, kinds.2⟩
  · have once : ¬ rest.headD '\x00' == '=' := by
      cases rest with
      | nil => decide
      | cons c rest => simpa using twice
    rw [if_neg once] at found
    rw [if_neg twice]
    cases found
    exact ⟨rfl, kinds.1⟩

theorem sign?_of_some {kind : Kind} {last : Scanner} (here : text.drop position = first :: rest)
    (found : (standing file text position).sign? = some (kind, last)) :
    last.advance = standing file text (position + Lexeme.size (first :: rest)) ∧
      Lexeme.kind ((first :: rest).take (Lexeme.size (first :: rest))) = kind := by
  unfold sign? at found
  rw [held_standing here, peek_standing here] at found
  simp only [List.headD_cons] at found
  split at found
  case h_1 => exact pair_of_some (.inl rfl) (by decide) found
  case h_2 => exact pair_of_some (.inr rfl) (by decide) found
  case h_15 => cases found
  all_goals
    cases found
    rw [Lexeme.size_of_lone (by decide) (by decide) (by decide), List.take_succ_cons,
      List.take_zero]
    exact ⟨rfl, by decide⟩

theorem sign?_of_none (here : text.drop position = first :: rest)
    (none : (standing file text position).sign? = none) :
    ¬ (first = '=' ∨ first = '!') ∧ Lexeme.symbol [first] = .illegal := by
  unfold sign? at none
  rw [held_standing here, List.headD_cons] at none
  split at none
  case h_1 => split at none <;> cases none
  case h_2 => split at none <;> cases none
  case h_15 =>
    refine ⟨by simp_all, ?_⟩
    unfold Lexeme.symbol
    split <;> simp_all
  all_goals cases none

/-- A lexeme is cut out just as far as it reaches. -/
theorem lexeme_standing (here : text.drop position = rest) :
    (standing file text position).lexeme =
      some ((⟨file, position, rest⟩ : Cursor).token (Lexeme.size rest),
        standing file text (position + Lexeme.size rest)) := by
  unfold lexeme
  rw [atEnd_standing here]
  cases rest with
  | nil => rfl
  | cons first rest =>
    rw [if_neg nofun, held_standing here, List.headD_cons]
    cases found : (standing file text position).sign? with
    | some entry =>
      obtain ⟨kind, last⟩ := entry
      obtain ⟨after, same⟩ := sign?_of_some here found
      simp only [after]
      exact cut_standing here same
    | none =>
      obtain ⟨pair, illegal⟩ := sign?_of_none here found
      by_cases letter : isLetter first
      · have word : ((first :: rest).takeWhile isLetter).length =
            Lexeme.size (first :: rest) := by
          simp [Lexeme.size, Lexeme.tail, letter]
        simp only [letter, if_true, passWhile_standing isLetter here, word]
        exact cut_standing here (if_pos letter)
      by_cases digit : isDigit first
      · have number : ((first :: rest).takeWhile isDigit).length =
            Lexeme.size (first :: rest) := by
          simp [Lexeme.size, Lexeme.tail, letter, digit]
        simp only [letter, digit, if_true, passWhile_standing isDigit here, number]
        exact cut_standing here ((if_neg letter).trans (if_pos digit))
      · have one : Lexeme.size (first :: rest) = 1 := Lexeme.size_of_lone letter digit pair
        simp only [letter, digit, advance_standing]
        rw [← one]
        refine cut_standing here ?_
        rw [one, List.take_succ_cons, List.take_zero]
        exact (if_neg letter).trans ((if_neg digit).trans illegal)

end Standing

theorem next_standing (file : String) (text : List Char) (position : Nat) :
    (standing file text position).next =
      some ((Cursor.standing file text position).next.1,
        standing file text (Cursor.standing file text position).next.2.offset) := by
  rw [next, skipBlanks_standing rfl, lexeme_standing rfl, ← List.drop_drop]
  rfl

/-- The commands of a cursor, given to a scanner. It is cut off where a token cannot be cut out. -/
structure Session where
  scanner : Scanner
  saved : List Scanner

namespace Session

open Cursor (Command Reading)

def start (scanner : Scanner) : Session := ⟨scanner, []⟩

def step (session : Session) : Command → Option (Reading × Session)
  | .next => do
    let (token, after) ← session.scanner.next
    return (.token token, ⟨after, session.saved⟩)
  | .advance => some (.nothing, ⟨session.scanner.advance, session.saved⟩)
  | .peek => some (.char session.scanner.peek, session)
  | .atEnd => some (.flag session.scanner.atEnd, session)
  | .file => some (.text session.scanner.file, session)
  | .save => some (.nothing, ⟨session.scanner, session.scanner :: session.saved⟩)
  | .restore =>
    match session.saved with
    | [] => some (.nothing, session)
    | scanner :: saved => some (.nothing, ⟨scanner, saved⟩)

def run (session : Session) : List Command → Option (List Reading × Session)
  | [] => some ([], session)
  | command :: rest => do
    let (reading, after) ← session.step command
    let (readings, final) ← after.run rest
    return (reading :: readings, final)

def standing (file : String) (text : List Char) (position : Nat) (saved : List Nat) : Session :=
  ⟨Scanner.standing file text position, saved.map (Scanner.standing file text)⟩

/-- What a command does is told by the places alone, and it does so to a cursor as to a scanner. -/
theorem step_standing (file : String) (text : List Char) (position : Nat) (saved : List Nat)
    (command : Command) :
    ∃ reading position' saved',
      (Cursor.Session.standing file text position saved).step command =
          (reading, Cursor.Session.standing file text position' saved') ∧
        (standing file text position saved).step command =
          some (reading, standing file text position' saved') := by
  have sitting (reading : Reading) {cursor cursor' : Cursor} (same : cursor = cursor') :
      (reading, (⟨cursor, saved.map (Cursor.standing file text)⟩ : Cursor.Session)) =
        (reading, ⟨cursor', saved.map (Cursor.standing file text)⟩) := by rw [same]
  cases command with
  | next =>
    refine ⟨_, _, saved, sitting _ (Cursor.next_standing file text position), ?_⟩
    rw [step, standing, Scanner.next_standing]
    rfl
  | advance =>
    exact ⟨.nothing, _, saved, sitting _ (Cursor.advance_standing file text position), rfl⟩
  | peek =>
    refine ⟨_, position, saved, rfl, ?_⟩
    rw [step, standing, peek_standing rfl]
    rfl
  | atEnd =>
    refine ⟨_, position, saved, rfl, ?_⟩
    rw [step, standing, atEnd_standing rfl]
    rfl
  | file => exact ⟨.text file, position, saved, rfl, rfl⟩
  | save => exact ⟨.nothing, position, position :: saved, rfl, rfl⟩
  | restore =>
    cases saved with
    | nil => exact ⟨.nothing, position, [], rfl, rfl⟩
    | cons earlier saved => exact ⟨.nothing, earlier, saved, rfl, rfl⟩

theorem run_standing (file : String) (text : List Char) (position : Nat) (saved : List Nat)
    (commands : List Command) :
    ∃ readings position' saved',
      (Cursor.Session.standing file text position saved).run commands =
          (readings, Cursor.Session.standing file text position' saved') ∧
        (standing file text position saved).run commands =
          some (readings, standing file text position' saved') := by
  induction commands generalizing position saved with
  | nil => exact ⟨[], position, saved, rfl, rfl⟩
  | cons command rest ih =>
    obtain ⟨reading, position₁, saved₁, one, one'⟩ := step_standing file text position saved command
    obtain ⟨readings, position₂, saved₂, others, others'⟩ := ih position₁ saved₁
    refine ⟨reading :: readings, position₂, saved₂, ?_, ?_⟩
    · simp only [Cursor.Session.run, one, others]
    · simp [run, one', others']

end Session

/-- What the scanner shows and yields where it stands in the text, or past its end. -/
structure Sound (file text : String) (scanner : Scanner) : Prop where
  upcoming : scanner.upcoming = scanner.position + 1
  held : scanner.held = text.toList.getD scanner.position '\x00'
  inside : scanner.position < text.length → ∃ first rest after,
    (Cursor.ofText file (String.ofList (text.toList.drop scanner.position))).tokens =
        first :: rest ∧
      scanner.next = some (first.shift scanner.position, after) ∧
      after.position = (first.shift scanner.position).span.stop ∧
      (first.kind ≠ .eof → scanner.position < after.position ∧ after.position ≤ text.length)
  outside : text.length ≤ scanner.position → ∀ saved count,
    (⟨scanner, saved⟩ : Session).run (List.replicate count .next) =
      some (List.replicate count
          (.token ⟨.eof, "", file, scanner.position, scanner.position⟩), ⟨scanner, saved⟩)

theorem sound_standing (file text : String) (position : Nat) :
    Sound file text (standing file text.toList position) where
  upcoming := rfl
  held := rfl
  inside := by
    intro more
    simp only [position_standing] at more ⊢
    have here := Cursor.standing_eq_shift file text position
    generalize Cursor.ofText file (String.ofList (text.toList.drop position)) = fresh at here ⊢
    obtain ⟨rest, tokens⟩ := fresh.exists_tokens
    have given : Tokenization file text.toList position (fresh.shift position).tokens := by
      rw [← here]
      exact (Tokenization.iff_tokens text.toList (Nat.add_sub_cancel' (Nat.le_of_lt more)).symm).mp
        rfl
    rw [Cursor.tokens_shift, tokens, List.map_cons] at given
    refine ⟨fresh.next.1, rest, standing file text.toList (fresh.next.2.shift position).offset,
      tokens, ?_, ?_, ?_⟩
    · rw [next_standing, here, Cursor.next_shift]
    · rfl
    · intro proper
      have proper' : (fresh.next.1.shift position).kind ≠ .eof := proper
      have start := given.since _ (.head _)
      have length := given.nonempty _ (.head _) proper'
      exact ⟨Nat.lt_of_le_of_lt start length, (given.span_le (.head _)).2⟩
  outside := by
    intro past saved count
    have ended : text.toList.drop position = [] := List.drop_eq_nil_iff.mpr past
    have again : (standing file text.toList position).next =
        some (⟨.eof, "", file, position, position⟩, standing file text.toList position) := by
      rw [next_standing, Cursor.next_of_atEnd ended]
      rfl
    induction count with
    | zero => rfl
    | succ count ih => simp [List.replicate_succ, Session.run, Session.step, again, ih]

/-- In any use of the scanner each cut is in range, it yields what a cursor yields, and it is sound
where it comes to stand. -/
theorem run_sound (file text : String) (commands : List Cursor.Command) :
    ∃ readings after,
      (Session.start (ofText file text)).run commands = some (readings, after) ∧
        ((Cursor.Session.start (.ofText file text)).run commands).1 = readings ∧
        ((Cursor.Session.start (.ofText file text)).run commands).2.cursor =
          ⟨file, after.scanner.position, text.toList.drop after.scanner.position⟩ ∧
        Sound file text after.scanner := by
  obtain ⟨readings, position, saved, cursor, scanner⟩ :=
    Session.run_standing file text.toList 0 [] commands
  have opened : Cursor.Session.standing file text.toList 0 [] = .start (.ofText file text) := rfl
  have opened' : Session.standing file text.toList 0 [] = .start (ofText file text) := rfl
  rw [opened] at cursor
  rw [opened'] at scanner
  refine ⟨readings, _, scanner, ?_, ?_, sound_standing file text position⟩
  · rw [cursor]
  · rw [cursor]
    rfl

end Scanner

end MonkeySyntax
