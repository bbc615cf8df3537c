import MonkeySyntax.Proofs.Parsing.Fork
import MonkeySyntax.Proofs.Scan.Terminals
import MonkeySyntax.Proofs.Scan.Tokenization

/-! A text and an extension of it. Unless a lexeme runs across the seam, the two are read alike
until the end token of the shorter one is ahead. From then on whatever the run on the shorter text
still finds is found at its end, and the run on the longer one keeps what it has recorded; so only
diagnostics about the end of the input can change when more of it arrives. -/
namespace MonkeySyntax

open MonkeySyntax.Parser Text

/-- At the same place of a text, and of that text with what is behind it. -/
structure Cursor.Extends (behind short long : Cursor) : Prop where
  same : long = { short with rest := short.rest ++ behind.rest }
  file : short.file = behind.file
  stop : short.offset + short.rest.length = behind.offset
  seam : Seam short.rest behind.rest

namespace Cursor.Extends

variable {behind short long : Cursor}

/-- Only blanks are left of the shorter text, or both have the same token next. -/
theorem next (extends' : behind.Extends short long) :
    (short.next.1.kind = .eof ∧ short.next.1.span.start = behind.offset ∧
      ∀ c ∈ short.rest, isBlank c) ∨
    short.next.1.kind ≠ .eof ∧ long.next.1 = short.next.1 ∧
      short.next.1.span.start < behind.offset ∧ behind.Extends short.next.2 long.next.2 := by
  obtain ⟨file, offset, rest⟩ := short
  obtain ⟨rfl, named, stops, seam⟩ := extends'
  obtain blank | ⟨blanks, kind, literal, after, same, blank, spells, ends⟩ := blanks_or_lexeme rest
  · rw [next_of_blanks blank]
    exact .inl ⟨rfl, stops, blank⟩
  · dsimp only at same stops seam ⊢
    subst same
    have seam := seam.suffix
    have some := List.length_pos_iff.mpr spells.solid.1
    simp only [List.length_append] at stops
    rw [next_of_lexeme blank spells ends, List.append_assoc, List.append_assoc,
      next_of_lexeme blank spells (seam.ends_append spells ends)]
    refine .inr ⟨spells.ne_eof, rfl, ?_, rfl, named, ?_, seam.suffix⟩
    · change offset + blanks.length < behind.offset
      omega
    · change offset + blanks.length + literal.length + after.length = behind.offset
      omega

end Cursor.Extends

namespace Parser

/-- The parsers see the same current token, of the shorter text, and stand at the same place behind
it; nothing has been said of the end of the shorter text. -/
structure Extends (behind : Cursor) (one other : Parser) : Prop where
  proper : one.current.kind ≠ .eof
  before : one.current.span.start < behind.offset
  settled : one.Settled
  earlier : ∀ diagnostic ∈ one.diagnostics.toList, diagnostic.offset ≠ behind.offset
  next : ∃ short long : Cursor, behind.Extends short long ∧
    one.ahead = short.next.1 ∧ one.cursor = short.next.2 ∧
    other = { one with ahead := long.next.1, cursor := long.next.2 }

/-- The token is the end of the text, and what was recorded before it was reached is known. -/
structure Ended (stop : Nat) (earlier : List Diagnostic) (token : Token) (parser : Parser) :
    Prop where
  settled : parser.Settled
  kind : token.kind = .eof
  start : token.span.start = stop
  recorded : parser.diagnostics.toList.filter (·.offset ≠ stop) = earlier

variable {stop : Nat} {earlier : List Diagnostic} {parser : Parser}

theorem Ended.reportAt {token : Token} (ended : parser.Ended stop earlier token) (fault : Fault) :
    (parser.reportAt token fault).Ended stop earlier token :=
  ⟨ended.settled.frame rfl, ended.kind, ended.start, by
    rw [toList_reportAt, List.filter_append, ended.recorded]
    simp [ended.start]⟩

theorem Ended.take (ended : parser.Ended stop earlier parser.current) :
    parser.Ended stop earlier parser.ahead :=
  (ended.settled.current ended.kind).symm ▸ ended

end Parser

/-- At the end of the text nothing is recorded but at the end. -/
def TokenAssertions.ending (stop : Nat) (earlier : List Diagnostic) : TokenAssertions where
  reached parser := parser.Ended stop earlier parser.current
  clear parser := parser.Ended stop earlier parser.ahead
  lost parser := parser.Ended stop earlier parser.ahead
  reached_frame _ h _ := ⟨h.settled.frame rfl, h.kind, h.start, h.recorded⟩
  clear_frame _ h _ := ⟨h.settled.frame rfl, h.kind, h.start, h.recorded⟩
  lost_frame _ h _ := ⟨h.settled.frame rfl, h.kind, h.start, h.recorded⟩
  take h _ := h.take
  advance h := ⟨h.settled.advance, h.kind, h.start, h.recorded⟩
  report h _ := (h.reportAt _).take
  unexpected h _ := h.reportAt _
  skip h met := by
    have kind := h.kind
    rw [met] at kind
    cases kind
  recover h := ⟨h.settled.advance.frame rfl, h.kind, h.start, h.recorded⟩

namespace Parser.Extends

variable {behind : Cursor} {one other : Parser} (related : Extends behind one other)
include related

theorem current : other.current = one.current := by
  obtain ⟨_, _, _, _, _, rfl⟩ := related.next
  rfl

theorem same : other = { one with ahead := other.ahead, cursor := other.cursor } := by
  obtain ⟨_, _, _, _, _, rfl⟩ := related.next
  rfl

/-- Nothing but the window and the diagnostics is compared with the text. -/
theorem frame {one' : Parser} (window : one'.window = one.window)
    (recorded : one'.diagnostics = one.diagnostics) :
    Extends behind one' { one' with ahead := other.ahead, cursor := other.cursor } := by
  have current : one'.current = one.current := congrArg Window.current window
  obtain ⟨short, long, extends', ahead, cursor, rfl⟩ := related.next
  refine ⟨current ▸ related.proper, current ▸ related.before, related.settled.frame window,
    recorded ▸ related.earlier, short, long, extends', ?_, ?_, rfl⟩
  · rw [← ahead]
    exact congrArg Window.ahead window
  · rw [← cursor]
    exact congrArg Window.cursor window

theorem enter (label : String) : Extends behind (one.enter label) (other.enter label) := by
  rw [related.same]
  exact related.frame rfl rfl

theorem leave (label : String) : Extends behind (one.leave label) (other.leave label) := by
  rw [related.same]
  exact related.frame rfl rfl

theorem reportAt {token : Token} (before : token.span.start < behind.offset) (fault : Fault) :
    Extends behind (one.reportAt token fault) (other.reportAt token fault) := by
  obtain ⟨proper, before', settled, earlier, short, long, extends', ahead, cursor, rfl⟩ := related
  refine ⟨proper, before', settled.frame rfl, ?_, short, long, extends', ahead, cursor, rfl⟩
  rw [toList_reportAt]
  exact List.forall_mem_append.mpr
    ⟨earlier, List.forall_mem_singleton.mpr (Nat.ne_of_lt before)⟩

/-- Either the shorter text ends ahead, or the same token is ahead in both. -/
theorem ahead : one.Ended behind.offset one.diagnostics.toList one.ahead ∨
    other.ahead = one.ahead ∧ one.ahead.span.start < behind.offset ∧
      Extends behind one.advance other.advance := by
  obtain ⟨_, _, settled, earlier, short, long, extends', ahead, cursor, rfl⟩ := related
  rcases extends'.next with ⟨ended, start, _⟩ | ⟨proper, same, before, onward⟩
  · have all : one.diagnostics.toList.filter (·.offset ≠ behind.offset) =
        one.diagnostics.toList :=
      List.filter_eq_self.mpr fun diagnostic member => decide_eq_true (earlier diagnostic member)
    exact .inl ⟨settled, ahead ▸ ended, ahead ▸ start, all⟩
  · rw [← ahead] at proper same before
    refine .inr ⟨same, before, proper, before, settled.advance, earlier, short.next.2, long.next.2,
      onward, ?_, ?_, ?_⟩
    · rw [← cursor]
      rfl
    · rw [← cursor]
      rfl
    · simp only [Parser.advance, same]

end Parser.Extends

/-- The runs on a text and on an extension of it. -/
def Fork.extending (behind : Cursor) :
    Fork (TokenAssertions.ending behind.offset) (TokenAssertions.recording · []) where
  alike := Extends behind
  terminal related := by rw [related.current]
  grammar related := by rw [related.same]
  drop related := by
    rw [related.same]
    exact related.frame rfl rfl
  report fault related := by
    rw [Parser.report, Parser.report, related.current]
    exact related.reportAt related.before fault
  enter _ related := related.enter _
  leave _ related := related.leave _
  ahead {one other} related := by
    rcases related.ahead with ended | ⟨same, before, onward⟩
    · have kept : other.Records one.diagnostics.toList [] := by
        rw [related.same]
        exact ⟨List.prefix_refl _, List.nil_prefix⟩
      exact .inr ⟨one.diagnostics.toList, ⟨ended, ended⟩, kept, kept⟩
    · refine .inl ⟨congrArg Token.terminal same.symm, onward, fun fault => ?_⟩
      rw [same]
      exact related.reportAt before fault

theorem Fork.extending_opens (behind : Cursor) :
    (Fork.extending behind).Opens (.extending behind) where
  opened {one other} related room := by
    rw [related.same]
    exact ⟨room, related.frame rfl rfl⟩
  closed {one other} related := by
    rw [related.same]
    exact related.frame rfl rfl
  refused {one other} related deep := by
    have blamed := (related.enter "parse_expression").reportAt related.before
      (.tooDeep one.options.maxDepth)
    have refused := blamed.leave "parse_expression"
    rw [related.same] at refused ⊢
    exact .inl ⟨deep, refused⟩

theorem Parse.Forks.extending (behind : Cursor) (bound : Nat) :
    (Parts.within bound).AllSatisfy fun stage step => step.Forks (.extending behind) stage :=
  Parts.AllSatisfy.imp (within (fun _ => Fork.extending behind) (fun _ _ => True) id
    (fun _ => ⟨trivial, Fork.extending_opens behind⟩) bound) fun forks => forks 0 trivial

section

variable {options : Options} {file text more : String}

/-- Where one text ends and the other begins. -/
def Cursor.seam (file text more : String) : Cursor := ⟨file, text.toList.length, more.toList⟩

theorem Cursor.extends_ofText (seam : Seam text.toList more.toList) :
    (Cursor.seam file text more).Extends (ofText file text) (ofText file (text ++ more)) :=
  ⟨by rw [ofText, String.toList_append]; rfl, rfl, Nat.zero_add _, seam⟩

theorem Parser.extends_start (seam : Seam text.toList more.toList)
    (some : (Cursor.ofText file text).next.1.kind ≠ .eof) :
    Extends (.seam file text more) (start options (.ofText file text))
      (start options (.ofText file (text ++ more))) := by
  rcases (Cursor.extends_ofText seam).next with ⟨none, _⟩ | ⟨proper, same, before, onward⟩
  · exact absurd none some
  · refine ⟨proper, before, settled_start options _, List.forall_mem_nil _, _, _, onward, rfl, rfl,
      ?_⟩
    simp only [start, same]

/-- A text of blanks is an empty program. -/
theorem readText_of_blank (none : (Cursor.ofText file text).next.1.kind = .eof) :
    readText options file text = ⟨[], [], []⟩ :=
  readText_of_built ((readProgram_eq_built Grammar.grounded_standard (settled_start options _)).mpr
    (.inl ⟨none, rfl, rfl⟩))

end

/-- What is recorded of a text that ends in a blank, but for its end, is recorded first of every
extension of it. -/
theorem readText_extension (options : Options) (file text more : String)
    (blank : ∀ c, text.toList.getLast? = some c → isBlank c) {last : Token}
    (member : last ∈ (Cursor.ofText file text).tokens) (ended : last.kind = .eof) :
    (readText options file text).diagnostics.filter (·.offset ≠ last.span.start) <+:
      (readText options file (text ++ more)).diagnostics := by
  rw [(Tokenization.of_cursor file text).start_of_eof member ended]
  by_cases none : (Cursor.ofText file text).next.1.kind = .eof
  · rw [readText_of_blank none]
    exact List.nil_prefix
  · have forks := (Parse.Forks.extending (.seam file text more)
      (4 * (Cursor.ofText file text).tokens.length +
        4 * (Cursor.ofText file (text ++ more)).tokens.length + 3)).statements .program
    have seam : Seam text.toList more.toList := .of_blank blank
    rcases forks.readText (extends_start seam none) (by omega) (by omega) with
      ⟨program, after, after', related, here, there⟩ |
      ⟨earlier, program, program', after, after', first, second, here, there⟩
    · have all : after.diagnostics.toList.filter (·.offset ≠ text.toList.length) =
          after.diagnostics.toList := List.filter_eq_self.mpr fun diagnostic member =>
        decide_eq_true (related.earlier diagnostic member)
      rw [here, there, related.same, Parser.parsed, all]
      exact List.prefix_refl _
    · rw [here, there]
      exact first.recorded ▸ second.diagnostics

set_option maxRecDepth 20000 in
/-- What is missing at the end comes with the extension. -/
theorem readText_extension_closed :
    (readText {} "f" "let 1; fn( ").diagnostics =
      [⟨.unexpected .ident .int, "f", 4⟩, ⟨.unexpected .ident .eof, "f", 11⟩] ∧
    [⟨.unexpected .ident .int, "f", 4⟩] <+:
      (readText {} "f" ("let 1; fn( " ++ "x) \x7b y \x7d")).diagnostics := by
  have recorded : (readText {} "f" "let 1; fn( ").diagnostics =
      [⟨.unexpected .ident .int, "f", 4⟩, ⟨.unexpected .ident .eof, "f", 11⟩] := rfl
  have blank : ∀ c, "let 1; fn( ".toList.getLast? = some c → isBlank c := by
    rintro c ⟨⟩
    rfl
  have last : (⟨.eof, "", "f", 11, 11⟩ : Token) ∈ (Cursor.ofText "f" "let 1; fn( ").tokens := by
    decide
  have kept := readText_extension {} "f" "let 1; fn( " "x) \x7b y \x7d" blank last rfl
  rw [recorded] at kept
  exact ⟨recorded, kept⟩

end MonkeySyntax
