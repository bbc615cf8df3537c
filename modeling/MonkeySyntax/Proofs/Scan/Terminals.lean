import MonkeySyntax.Proofs.Parsing.Window
import MonkeySyntax.Proofs.Scan.Next

/-! The terminals of a text. They do not depend on where the text stands, and those of two texts
side by side are those of each, unless a lexeme runs across the seam. -/
namespace MonkeySyntax

open Text

section

variable {file : String} {offset : Nat} {blanks literal after : List Char} {kind : Kind}

theorem Cursor.terminals_of_blanks (blank : ∀ c ∈ blanks, isBlank c) :
    (⟨file, offset, blanks⟩ : Cursor).terminals = [⟨.eof, ""⟩] := by
  rw [terminals, tokens_of_blanks blank]
  rfl

theorem Cursor.terminals_of_lexeme (blank : ∀ c ∈ blanks, isBlank c) (spells : Spells kind literal)
    (ends : Ends literal after) :
    (⟨file, offset, blanks ++ (literal ++ after)⟩ : Cursor).terminals =
      ⟨kind, String.ofList literal⟩ ::
        (⟨file, offset + blanks.length + literal.length, after⟩ : Cursor).terminals := by
  rw [terminals, tokens_of_lexeme blank spells ends]
  rfl

/-- Induction over the lexemes of a text. -/
theorem lexeme_induction {motive : List Char → Prop}
    (blanks : ∀ blanks, (∀ c ∈ blanks, isBlank c) → motive blanks)
    (lexeme : ∀ blanks kind literal after, (∀ c ∈ blanks, isBlank c) → Spells kind literal →
      Ends literal after → motive after → motive (blanks ++ (literal ++ after)))
    (text : List Char) : motive text := by
  induction left : text.length using Nat.strongRecOn generalizing text with
  | ind left ih =>
    obtain blank | ⟨before, kind, literal, after, rfl, blank, spells, ends⟩ :=
      Cursor.blanks_or_lexeme text
    · exact blanks text blank
    · have some := List.length_pos_iff.mpr spells.solid.1
      simp only [List.length_append] at left
      have shorter := ih after.length (by omega) after rfl
      exact lexeme before kind literal after blank spells ends shorter

/-- The terminals of a text, the end token included. -/
def scan (text : List Char) : List Terminal := (⟨"", 0, text⟩ : Cursor).terminals

theorem Cursor.terminals_eq_scan (cursor : Cursor) : cursor.terminals = scan cursor.rest := by
  obtain ⟨file, offset, text⟩ := cursor
  rw [scan]
  generalize "" = file'
  generalize 0 = offset'
  induction text using lexeme_induction generalizing offset offset' with
  | blanks blanks blank => rw [terminals_of_blanks blank, terminals_of_blanks blank]
  | lexeme blanks kind literal after blank spells ends ih =>
    rw [terminals_of_lexeme blank spells ends, terminals_of_lexeme blank spells ends, ih]

theorem scan_of_blanks (blank : ∀ c ∈ blanks, isBlank c) : scan blanks = [⟨.eof, ""⟩] :=
  Cursor.terminals_of_blanks blank

theorem scan_of_lexeme (blank : ∀ c ∈ blanks, isBlank c) (spells : Spells kind literal)
    (ends : Ends literal after) :
    scan (blanks ++ (literal ++ after)) = ⟨kind, String.ofList literal⟩ :: scan after := by
  rw [scan, Cursor.terminals_of_lexeme blank spells ends, Cursor.terminals_eq_scan]

/-- The terminals of a text without the end token. -/
def lex (text : List Char) : List Terminal := (scan text).dropLast

theorem lex_of_blanks (blank : ∀ c ∈ blanks, isBlank c) : lex blanks = [] := by
  rw [lex, scan_of_blanks blank]
  rfl

theorem scan_ne_nil (text : List Char) : scan text ≠ [] := by
  cases text using lexeme_induction with
  | blanks blanks blank => rw [scan_of_blanks blank]; nofun
  | lexeme blanks kind literal after blank spells ends =>
    rw [scan_of_lexeme blank spells ends]; nofun

theorem lex_of_lexeme (blank : ∀ c ∈ blanks, isBlank c) (spells : Spells kind literal)
    (ends : Ends literal after) :
    lex (blanks ++ (literal ++ after)) = ⟨kind, String.ofList literal⟩ :: lex after := by
  rw [lex, scan_of_lexeme blank spells ends, List.dropLast_cons_of_ne_nil (scan_ne_nil after), lex]

theorem lex_kind_ne_eof (text : List Char) : ∀ terminal ∈ lex text, terminal.kind ≠ .eof := by
  induction text using lexeme_induction with
  | blanks blanks blank =>
    rw [lex_of_blanks blank]
    nofun
  | lexeme blanks kind literal after blank spells ends ih =>
    rw [lex_of_lexeme blank spells ends]
    exact List.forall_mem_cons.mpr ⟨spells.ne_eof, ih⟩

theorem scan_blanks_append (blank : ∀ c ∈ blanks, isBlank c) (text : List Char) :
    scan (blanks ++ text) = scan text := by
  rw [scan, Cursor.terminals, Cursor.tokens_blanks_append blank, ← Cursor.terminals,
    Cursor.terminals_eq_scan]

end

/-- No lexeme can run across from one text into the next. -/
def Seam (before after : List Char) : Prop :=
  ∀ d c, before.getLast? = some d → after.head? = some c →
    ¬ (isLetter d ∧ isLetter c) ∧ ¬ (isDigit d ∧ isDigit c) ∧ ¬ ((d = '=' ∨ d = '!') ∧ c = '=')

theorem Seam.ends {literal rest : List Char} (some : literal ≠ []) (seam : Seam literal rest) :
    Ends literal rest := by
  intro c here continued
  have last : literal.getLast? = .some (literal.getLast some) := List.getLast?_eq_some_getLast some
  obtain ⟨letters, digits, pair⟩ := seam _ c last here
  rcases continued with ⟨all, letter⟩ | ⟨all, digit⟩ | ⟨same, twice⟩
  · exact letters ⟨all _ (List.getLast_mem some), letter⟩
  · exact digits ⟨all _ (List.getLast_mem some), digit⟩
  · refine pair ⟨?_, twice⟩
    rcases same with rfl | rfl
    · exact .inl rfl
    · exact .inr rfl

theorem Seam.suffix {before middle after : List Char} (seam : Seam (before ++ middle) after) :
    Seam middle after := fun d c last here => seam d c (by simp [last]) here

/-- Behind a seam a lexeme ends where it ended before. -/
theorem Seam.ends_append {kind : Kind} {literal rest after : List Char}
    (seam : Seam (literal ++ rest) after) (spells : Spells kind literal)
    (ends : Ends literal rest) : Ends literal (rest ++ after) := by
  cases rest with
  | nil =>
    rw [List.append_nil] at seam
    exact seam.ends spells.solid.1
  | cons c rest => exact fun d here => ends d here

/-- No lexeme has a blank in it. -/
theorem apart_of_isBlank {c : Char} (blank : isBlank c) :
    isLetter c = false ∧ isDigit c = false ∧ c ≠ '=' ∧ c ≠ '!' := by
  refine ⟨?_, ?_, ?_, ?_⟩
  · rw [← Bool.not_eq_true]
    exact fun letter => absurd blank (by rw [not_isBlank_of_isLetter letter]; nofun)
  · rw [← Bool.not_eq_true]
    exact fun digit => absurd blank (by rw [not_isBlank_of_isDigit digit]; nofun)
  · rintro rfl
    cases blank
  · rintro rfl
    cases blank

theorem Seam.of_blank {before after : List Char}
    (blank : ∀ c, before.getLast? = some c → isBlank c) : Seam before after := by
  intro d c last _
  obtain ⟨letter, digit, equals, bang⟩ := apart_of_isBlank (blank d last)
  simp [letter, digit, equals, bang]

theorem Seam.to_blank {before after : List Char}
    (blank : ∀ c, after.head? = some c → isBlank c) : Seam before after := by
  intro d c _ first
  obtain ⟨letter, digit, equals, _⟩ := apart_of_isBlank (blank c first)
  simp [letter, digit, equals]

theorem scan_append {before after : List Char} (seam : Seam before after) :
    scan (before ++ after) = lex before ++ scan after := by
  induction before using lexeme_induction with
  | blanks blanks blank => rw [scan_blanks_append blank, lex_of_blanks blank, List.nil_append]
  | lexeme blanks kind literal rest blank spells ends ih =>
    have seam := seam.suffix
    rw [List.append_assoc, List.append_assoc,
      scan_of_lexeme blank spells (seam.ends_append spells ends), ih seam.suffix,
      lex_of_lexeme blank spells ends, List.cons_append]

theorem Seam.prepend {front before after : List Char} (some : before ≠ [])
    (seam : Seam before after) : Seam (front ++ before) after := by
  intro d c last here
  rw [List.getLast?_append, List.getLast?_eq_some_getLast some, Option.some_or] at last
  exact seam d c (by rw [List.getLast?_eq_some_getLast some, last]) here

theorem Spells.eq_semicolon {literal : List Char} (spells : Spells .semicolon literal) :
    literal = [';'] := spells.eq_symbol (by decide)

/-- No lexeme goes on behind a semicolon. -/
theorem Seam.of_semicolon {before after : List Char} {last : Terminal}
    (here : (lex before).getLast? = some last) (is : last.kind = .semicolon) :
    Seam before after := by
  induction before using lexeme_induction with
  | blanks blanks blank =>
    rw [lex_of_blanks blank] at here
    cases here
  | lexeme blanks kind literal rest blank spells ends ih =>
    rw [lex_of_lexeme blank spells ends] at here
    obtain blank' | ⟨blanks', kind', literal', rest', rfl, blank', spells', ends'⟩ :=
      Cursor.blanks_or_lexeme rest
    · -- The lexeme is the semicolon, and only blanks follow.
      rw [lex_of_blanks blank'] at here
      cases here
      have same : kind = .semicolon := is
      subst same
      obtain rfl := spells.eq_semicolon
      refine .prepend (by simp) ?_
      cases rest with
      | nil =>
        intro d c last _
        obtain rfl : ';' = d := by simpa using last
        refine ⟨fun letters => ?_, fun digits => ?_, fun pair => ?_⟩
        · exact absurd letters.1 (by decide)
        · exact absurd digits.1 (by decide)
        · exact absurd pair.1 (by decide)
      | cons first rest =>
        refine .prepend (List.cons_ne_nil _ _) (.of_blank fun c last => ?_)
        exact blank' c (List.mem_of_getLast? last)
    · have some := spells'.solid.1
      refine .prepend (by simp [some]) (.prepend (by simp [some]) (ih ?_))
      rw [lex_of_lexeme blank' spells' ends'] at here ⊢
      exact here

theorem lex_append {before after : List Char} (seam : Seam before after) :
    lex (before ++ after) = lex before ++ lex after := by
  rw [lex, scan_append seam, List.dropLast_append_of_ne_nil (scan_ne_nil after), lex, lex]

/-- A token stands in the text at its span, between what is scanned before it and behind it. -/
theorem Cursor.exists_split {file : String} {offset : Nat} {text : List Char}
    {before after : List Token} {token : Token} (proper : token.kind ≠ .eof)
    (tokens : (⟨file, offset, text⟩ : Cursor).tokens = before ++ token :: after) :
    ∃ front literal back, text = front ++ (literal ++ back) ∧ Spells token.kind literal ∧
      token.span.start = offset + front.length ∧ lex front = before.map Token.terminal ∧
      scan back = after.map Token.terminal := by
  induction text using lexeme_induction generalizing offset before with
  | blanks blanks blank =>
    rw [tokens_of_blanks blank] at tokens
    cases before with
    | nil =>
      cases tokens
      exact absurd rfl proper
    | cons first before => simp at tokens
  | lexeme blanks kind literal rest blank spells ends ih =>
    rw [tokens_of_lexeme blank spells ends] at tokens
    cases before with
    | nil =>
      cases tokens
      refine ⟨blanks, literal, rest, rfl, spells, rfl, lex_of_blanks blank, ?_⟩
      rw [← terminals, terminals_eq_scan]
    | cons first before =>
      obtain ⟨rfl, others⟩ := List.cons.inj tokens
      obtain ⟨front, literal', back, rfl, spells', start, scanned, behind⟩ := ih others
      have ends' : Ends literal front := by
        cases front with
        | nil => exact nofun
        | cons c front => exact fun d here => ends d here
      refine ⟨blanks ++ (literal ++ front), literal', back, by simp, spells', ?_, ?_, behind⟩
      · simp [start, Nat.add_assoc]
      · rw [lex_of_lexeme blank spells ends', scanned]
        rfl

theorem scan_eq_lex (text : List Char) : scan text = lex text ++ [⟨.eof, ""⟩] := by
  have alone : Seam text [] := by rintro _ _ _ ⟨⟩
  have none : scan [] = [⟨.eof, ""⟩] := scan_of_blanks nofun
  have both := scan_append alone
  rwa [List.append_nil, none] at both

end MonkeySyntax
