import Mathlib.Data.List.TakeWhile
import MonkeySyntax.Text.Decimal
import MonkeySyntax.Token.Lexeme

/-! Spellings of the kinds, and when a character would have continued a lexeme. Neither mentions how
far a token is read; the extent of a token and its kind are shown to follow from them. -/
namespace MonkeySyntax

open Text

def symbols : List (List Char × Kind) :=
  [(['='], .assign), (['=', '='], .eq), (['!'], .bang), (['!', '='], .notEq), ([';'], .semicolon),
    (['('], .lparen), ([')'], .rparen), (['\x7b'], .lbrace), (['\x7d'], .rbrace), ([','], .comma),
    (['+'], .plus), (['-'], .minus), (['/'], .slash), (['*'], .asterisk), (['<'], .lt),
    (['>'], .gt)]

inductive Spells : Kind → List Char → Prop
  | word : word ≠ [] → (∀ c ∈ word, isLetter c) → Spells (.ofWord (String.ofList word)) word
  | number : digits ≠ [] → (∀ c ∈ digits, isDigit c) → Spells .int digits
  | symbol : (literal, kind) ∈ symbols → Spells kind literal
  | illegal : ¬ isBlank c → ¬ isLetter c → ¬ isDigit c →
      (∀ entry ∈ symbols, entry.1.head? ≠ some c) → Spells .illegal [c]

/-- The character directly behind the lexeme would have belonged to it. -/
def Continued (literal : List Char) (c : Char) : Prop :=
  ((∀ d ∈ literal, isLetter d) ∧ isLetter c) ∨ ((∀ d ∈ literal, isDigit d) ∧ isDigit c) ∨
    ((literal = ['='] ∨ literal = ['!']) ∧ c = '=')

/-- The text behind a lexeme leaves it as it is. -/
def Ends (literal rest : List Char) : Prop := ∀ c, rest.head? = some c → ¬ Continued literal c

section Runs

variable {p : Char → Bool} {run rest : List Char}

theorem takeWhile_exact (inside : ∀ c ∈ run, p c) (stops : ∀ c, rest.head? = some c → p c = false) :
    (run ++ rest).takeWhile p = run := by
  rw [List.takeWhile_append_of_pos inside]
  cases rest with
  | nil => simp
  | cons c rest => simp [stops c rfl]

theorem head?_dropWhile {c : Char} (here : (rest.dropWhile p).head? = some c) :
    p c = false := by
  have stops := List.head?_dropWhile_not p rest
  rw [here] at stops
  simpa using stops

theorem exists_run {first : Char} (rest : List Char) (inside : p first) :
    ∃ tail after, rest = tail ++ after ∧ (∀ c ∈ first :: tail, p c) ∧
      ∀ c, after.head? = some c → p c = false := by
  refine ⟨rest.takeWhile p, rest.dropWhile p, List.takeWhile_append_dropWhile.symm, ?_, ?_⟩
  · intro c member
    rcases List.mem_cons.mp member with rfl | member
    · exact inside
    · exact List.mem_takeWhile_imp member
  · exact fun c here => head?_dropWhile here

end Runs

section

variable {c first : Char} {literal rest : List Char} {kind : Kind}

theorem Lexeme.size_of_lone (letter : ¬ isLetter c) (digit : ¬ isDigit c)
    (pair : ¬ (c = '=' ∨ c = '!')) : size (c :: rest) = 1 := by
  simp [size, tail, letter, digit, pair]

theorem Lexeme.size_of_pair (pair : c = '=' ∨ c = '!') :
    size (c :: rest) = if rest.head? = some '=' then 2 else 1 := by
  have letter : isLetter c = false := by rcases pair with rfl | rfl <;> decide
  have digit : isDigit c = false := by rcases pair with rfl | rfl <;> decide
  by_cases twice : rest.head? = some '=' <;> simp [size, tail, letter, digit, pair, twice]

/-- A symbol is one character that begins no other, or stands with one of the two that do. -/
theorem symbols_shape : ∀ entry ∈ symbols,
    (entry.1 = ['='] ∨ entry.1 = ['!']) ∨ (entry.1 = ['=', '='] ∨ entry.1 = ['!', '=']) ∨
      entry.1.length = 1 ∧ ∀ c ∈ entry.1, ¬ isLetter c ∧ ¬ isDigit c ∧ ¬ (c = '=' ∨ c = '!') := by
  decide

theorem Lexeme.size_of_symbol (member : (literal, kind) ∈ symbols) (ends : Ends literal rest) :
    size (literal ++ rest) = literal.length := by
  rcases symbols_shape _ member with single | pair | ⟨one, lone⟩
  · have once : rest.head? ≠ some '=' := fun here => ends '=' here (.inr (.inr ⟨single, rfl⟩))
    rcases single with rfl | rfl <;> simp [size_of_pair, once]
  · rcases pair with rfl | rfl <;> simp [size_of_pair]
  · obtain ⟨c, rfl⟩ := List.length_eq_one_iff.mp one
    obtain ⟨letter, digit, pair⟩ := lone c (.head [])
    exact size_of_lone letter digit pair

theorem Spells.size (spells : Spells kind literal) (ends : Ends literal rest) :
    Lexeme.size (literal ++ rest) = literal.length := by
  cases spells with
  | word nonempty letters =>
    obtain ⟨first, tail, rfl⟩ := List.exists_cons_of_ne_nil nonempty
    have stops : ∀ c, rest.head? = some c → isLetter c = false := fun c here =>
      Bool.eq_false_iff.mpr fun letter => ends c here (.inl ⟨letters, letter⟩)
    have inside : ∀ c ∈ tail, isLetter c := fun c member => letters c (.tail first member)
    simp [Lexeme.size, Lexeme.tail, letters first (.head tail), takeWhile_exact inside stops]
  | number nonempty digits =>
    obtain ⟨first, tail, rfl⟩ := List.exists_cons_of_ne_nil nonempty
    have stops : ∀ c, rest.head? = some c → isDigit c = false := fun c here =>
      Bool.eq_false_iff.mpr fun digit => ends c here (.inr (.inl ⟨digits, digit⟩))
    have inside : ∀ c ∈ tail, isDigit c := fun c member => digits c (.tail first member)
    have digit := digits first (.head tail)
    simp [Lexeme.size, Lexeme.tail, not_isLetter_of_isDigit digit, digit,
      takeWhile_exact inside stops]
  | symbol member => exact Lexeme.size_of_symbol member ends
  | illegal blank letter digit other =>
    apply Lexeme.size_of_lone letter digit
    rintro (rfl | rfl)
    · exact other (['='], .assign) (by decide) rfl
    · exact other (['!'], .bang) (by decide) rfl

theorem Lexeme.kind_of_symbols : ∀ entry ∈ symbols, Lexeme.kind entry.1 = entry.2 := by decide

theorem symbols_solid : ∀ entry ∈ symbols, entry.1 ≠ [] ∧ ∀ c ∈ entry.1, isBlank c = false := by
  decide

theorem Lexeme.symbol_mem (literal : List Char) :
    symbol literal = .illegal ∨ (literal, symbol literal) ∈ symbols := by
  unfold symbol
  split <;> first
    | exact .inr (List.mem_of_elem_eq_true rfl)
    | exact .inl rfl

theorem Spells.kind_eq (spells : Spells kind literal) : Lexeme.kind literal = kind := by
  cases spells with
  | word nonempty letters =>
    obtain ⟨first, tail, rfl⟩ := List.exists_cons_of_ne_nil nonempty
    exact if_pos (letters first (.head tail))
  | number nonempty digits =>
    obtain ⟨first, tail, rfl⟩ := List.exists_cons_of_ne_nil nonempty
    have digit := digits first (.head tail)
    simp [Lexeme.kind, not_isLetter_of_isDigit digit, digit]
  | symbol member => exact Lexeme.kind_of_symbols _ member
  | @illegal c blank letter digit other =>
    simp only [Lexeme.kind, letter, digit]
    exact (Lexeme.symbol_mem [c]).resolve_right fun member => other _ member rfl

theorem Spells.solid (spells : Spells kind literal) :
    literal ≠ [] ∧ ∀ c ∈ literal, isBlank c = false := by
  cases spells with
  | word nonempty letters =>
    exact ⟨nonempty, fun c member => not_isBlank_of_isLetter (letters c member)⟩
  | number nonempty digits =>
    exact ⟨nonempty, fun c member => not_isBlank_of_isDigit (digits c member)⟩
  | symbol member => exact symbols_solid _ member
  | illegal blank =>
    refine ⟨List.cons_ne_nil _ _, fun c member => ?_⟩
    rw [List.mem_singleton.mp member]
    exact Bool.eq_false_iff.mpr blank

theorem Spells.ne_eof (spells : Spells kind literal) : kind ≠ .eof := by
  rintro rfl
  exact spells.solid.1 ((Lexeme.kind_eq_eof_iff literal).mp spells.kind_eq)

theorem Lexeme.ofWord_ne_int (word : String) : Kind.ofWord word ≠ .int := by
  unfold Kind.ofWord
  repeat' split
  all_goals decide

theorem symbols_ne_int : ∀ entry ∈ symbols, entry.2 ≠ .int := by decide

theorem symbols_ne_word (word : String) : ∀ entry ∈ symbols, entry.2 ≠ Kind.ofWord word := by
  unfold Kind.ofWord
  repeat' split
  all_goals decide

theorem symbols_ne_illegal : ∀ entry ∈ symbols, entry.2 ≠ .illegal := by decide

theorem symbols_unique :
    ∀ entry ∈ symbols, ∀ other ∈ symbols, other.2 = entry.2 → other.1 = entry.1 := by
  decide

/-- The kind of a symbol is spelled in no other way. -/
theorem Spells.eq_symbol {sign : List Char} (spells : Spells kind literal)
    (member : (sign, kind) ∈ symbols) : literal = sign := by
  cases spells with
  | word => exact absurd rfl (symbols_ne_word _ _ member)
  | number => exact absurd rfl (symbols_ne_int _ member)
  | symbol other => exact symbols_unique _ member _ other rfl
  | illegal => exact absurd rfl (symbols_ne_illegal _ member)

theorem Spells.isNumeral (spells : Spells kind literal) (number : kind = .int) :
    Text.isNumeral literal := by
  cases spells with
  | word => exact absurd number (Lexeme.ofWord_ne_int _)
  | number nonempty digits => simpa [Text.isNumeral, nonempty] using digits
  | symbol member => exact absurd number (symbols_ne_int _ member)
  | illegal => cases number

/-- What begins a symbol is a symbol by itself. -/
theorem symbols_single : ∀ entry ∈ symbols, ∃ single ∈ symbols, single.1 = entry.1.take 1 := by
  decide

/-- The first character of a lexeme decides which characters can continue it. -/
theorem Continued.cases {tail : List Char} (continued : Continued (first :: tail) c) :
    (isLetter first ∧ isLetter c) ∨ (isDigit first ∧ isDigit c) ∨
      (first = '=' ∨ first = '!') ∧ tail = [] ∧ c = '=' := by
  rcases continued with ⟨letters, letter⟩ | ⟨digits, digit⟩ | ⟨sign, twice⟩
  · exact .inl ⟨letters first (.head tail), letter⟩
  · exact .inr (.inl ⟨digits first (.head tail), digit⟩)
  · rcases sign with same | same <;> cases same
    · exact .inr (.inr ⟨.inl rfl, rfl, twice⟩)
    · exact .inr (.inr ⟨.inr rfl, rfl, twice⟩)

theorem not_pair_of_isLetter (letter : isLetter c) : ¬ (c = '=' ∨ c = '!') := by
  rintro (rfl | rfl) <;> revert letter <;> decide

theorem not_pair_of_isDigit (digit : isDigit c) : ¬ (c = '=' ∨ c = '!') := by
  rintro (rfl | rfl) <;> revert digit <;> decide

theorem symbols_pair (pair : c = '=' ∨ c = '!') : ∃ kind, ([c, '='], kind) ∈ symbols := by
  rcases pair with rfl | rfl
  · exact ⟨.eq, by decide⟩
  · exact ⟨.notEq, by decide⟩

theorem spells_single (letter : ¬ isLetter c) (digit : ¬ isDigit c) (blank : ¬ isBlank c) :
    ∃ kind, Spells kind [c] := by
  by_cases known : ∃ entry ∈ symbols, entry.1.head? = some c
  · obtain ⟨entry, member, head⟩ := known
    obtain ⟨single, member', same⟩ := symbols_single entry member
    rw [List.take_one, head] at same
    have spells : Spells single.2 single.1 := .symbol member'
    rw [same] at spells
    exact ⟨single.2, spells⟩
  · exact ⟨_, .illegal blank letter digit fun entry member head => known ⟨entry, member, head⟩⟩

/-- A text that does not begin with a blank begins with a lexeme. -/
theorem exists_lexeme (rest : List Char) (solid : ¬ isBlank first) :
    ∃ kind literal after, first :: rest = literal ++ after ∧ Spells kind literal ∧
      Ends literal after := by
  by_cases letter : isLetter first
  · obtain ⟨tail, after, rfl, letters, stops⟩ := exists_run rest letter
    refine ⟨_, first :: tail, after, rfl, .word (List.cons_ne_nil _ _) letters, ?_⟩
    intro c here continued
    rcases continued.cases with ⟨_, more⟩ | ⟨digit, _⟩ | ⟨sign, _⟩
    · exact absurd more (by rw [stops c here]; nofun)
    · exact absurd letter (by rw [not_isLetter_of_isDigit digit]; nofun)
    · exact not_pair_of_isLetter letter sign
  · by_cases digit : isDigit first
    · obtain ⟨tail, after, rfl, digits, stops⟩ := exists_run rest digit
      refine ⟨_, first :: tail, after, rfl, .number (List.cons_ne_nil _ _) digits, ?_⟩
      intro c here continued
      rcases continued.cases with ⟨letter', _⟩ | ⟨_, more⟩ | ⟨sign, _⟩
      · exact letter letter'
      · exact absurd more (by rw [stops c here]; nofun)
      · exact not_pair_of_isDigit digit sign
    · by_cases pair : (first = '=' ∨ first = '!') ∧ rest.head? = some '='
      · obtain ⟨sign, twice⟩ := pair
        obtain ⟨after, rfl⟩ := List.head?_eq_some_iff.mp twice
        obtain ⟨kind, member⟩ := symbols_pair sign
        refine ⟨kind, [first, '='], after, rfl, .symbol member, fun c here continued => ?_⟩
        rcases continued.cases with ⟨letter', _⟩ | ⟨digit', _⟩ | ⟨_, alone, _⟩
        · exact letter letter'
        · exact digit digit'
        · cases alone
      · obtain ⟨kind, spells⟩ := spells_single letter digit solid
        refine ⟨kind, [first], rest, rfl, spells, fun c here continued => ?_⟩
        rcases continued.cases with ⟨letter', _⟩ | ⟨digit', _⟩ | ⟨sign, _, rfl⟩
        · exact letter letter'
        · exact digit digit'
        · exact pair ⟨sign, here⟩

end

end MonkeySyntax
