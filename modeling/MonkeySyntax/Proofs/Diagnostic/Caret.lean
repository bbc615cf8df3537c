import MonkeySyntax.Diagnostic.Report
import MonkeySyntax.Proofs.Text.Lines
import Mathlib.Data.List.DropRight

/-! Where the caret of a report points. What is shown of a line is the line without the indentation
before it and the white space behind it, so a character that is no white space is shown, as many
columns further left as the line was indented; number, bar and blanks stand before it as they do
before the caret. The field of a caret is as wide as the columns up to its own, so in a line that is
no longer than the widest field there is a report of every place. -/
namespace MonkeySyntax

namespace Text

theorem exists_trimmed (line : List Char) :
    ∃ spaces, line = line.takeWhile isIndent ++ (trimRight (line.dropWhile isIndent) ++ spaces) ∧
      ∀ c ∈ spaces, isSpace c := by
  refine ⟨(line.dropWhile isIndent).rtakeWhile isSpace, ?_, fun c => List.mem_rtakeWhile_imp⟩
  exact ((congrArg _ List.rdropWhile_append_rtakeWhile).trans List.takeWhile_append_dropWhile).symm

/-- A line feed at most ends a line, and then it goes with the white space there. -/
theorem feed_not_mem_trimRight {text indent line spaces : List Char} (member : line ∈ lines text)
    (split : line = indent ++ (trimRight rest ++ spaces)) : '\n' ∉ trimRight rest := by
  intro feed
  have shown := List.ne_nil_of_mem feed
  have last : ¬ isSpace ((trimRight rest).getLast shown) := List.rdropWhile_last_not _ _ shown
  rw [← List.dropLast_append_getLast shown, List.mem_append, List.mem_singleton] at feed
  rcases feed with early | late
  · refine feed_not_mem_dropLast member ?_
    rw [split, ← List.dropLast_append_getLast shown, List.append_assoc,
      List.dropLast_append_of_ne_nil (by simp), List.dropLast_append_of_ne_nil (by simp)]
    exact List.mem_append_right _ (List.mem_append_left _ early)
  · exact last (late ▸ by decide)

/-- A visible character of a line stands in the part that is left when white space is cut off. -/
theorem getElem?_of_visible {indent shown spaces : List Char} {column : Nat} {c : Char}
    (found : (indent ++ (shown ++ spaces))[column]? = some c) (visible : isSpace c = false)
    (before : ∀ c ∈ indent, isIndent c) (behind : ∀ c ∈ spaces, isSpace c) :
    indent.length ≤ column ∧ shown[column - indent.length]? = some c := by
  rcases Nat.lt_or_ge column indent.length with short | long
  · rw [List.getElem?_append_left short] at found
    have blank := isBlank_of_isIndent (before c (List.mem_of_getElem? found))
    exact absurd (isSpace_of_isBlank blank) (Bool.eq_false_iff.mp visible)
  · rw [List.getElem?_append_right long] at found
    rcases Nat.lt_or_ge (column - indent.length) shown.length with inside | past
    · exact ⟨long, by rwa [List.getElem?_append_left inside] at found⟩
    · rw [List.getElem?_append_right past] at found
      exact absurd (behind c (List.mem_of_getElem? found)) (Bool.eq_false_iff.mp visible)

end Text

namespace Diagnostic

open Text

/-- Three lines point at a character of what is shown of a line: a bar, the numbered line, and a
caret; the bars stand in one column and the caret below the character. -/
structure Points (number : Nat) (shown : List Char) (c : Char) (bar row caret : List Char) :
    Prop where
  margin : ∃ width, bar = List.replicate width ' ' ++ ['|']
  numbered : row = (toString number).toList ++ (" | ".toList ++ shown)
  arrow : ∃ width hyphens,
    caret = List.replicate width ' ' ++ ("| ".toList ++ (List.replicate hyphens '-' ++ ['^']))
  aligned : ∃ column, ∀ each ∈ [bar, row, caret], each.idxOf '|' = column
  above : row[caret.idxOf '^']? = some c

theorem isDigit_of_mem_toString {number : Nat} {c : Char} (member : c ∈ (toString number).toList) :
    c.isDigit := by
  rw [Nat.toString_eq_repr, Nat.toList_repr] at member
  exact Nat.isDigit_of_mem_toDigits (by decide) (by decide) member

/-- What ends a report: a gutter, a numbered line, and a gutter with an arrow. -/
def excerptLines (digits : List Char) (hyphens : Nat) (shown : List Char) : List (List Char) :=
  let margin := List.replicate (digits.length + 1) ' '
  [margin ++ ['|'], digits ++ (" | ".toList ++ shown),
    margin ++ ("| ".toList ++ (List.replicate hyphens '-' ++ ['^']))]

theorem toList_excerpt (place : Place) :
    (excerpt place).toList =
      ((excerptLines (toString place.number).toList (hyphens place)
        (trimRight (place.text.dropWhile isIndent))).map (· ++ ['\n'])).flatten := by
  rw [excerpt]
  generalize toString place.number = number
  simp [excerptLines, gutter, String.length_toList]

theorem feed_not_mem_excerptLines {digits shown : List Char} (hyphens : Nat)
    (numeral : ∀ c ∈ digits, c.isDigit) (bare : '\n' ∉ shown) :
    ∀ line ∈ excerptLines digits hyphens shown, '\n' ∉ line := by
  have plain : '\n' ∉ digits := fun feed => absurd (numeral _ feed) (by decide)
  simp [excerptLines, plain, bare]

theorem idxOf_append_cons {front : List Char} {c : Char} (absent : c ∉ front) (rest : List Char) :
    (front ++ c :: rest).idxOf c = front.length := by
  rw [List.idxOf_append_of_notMem absent, List.idxOf_cons_self, Nat.add_zero]

/-- The bars of all three lines stand one column behind the digits. -/
theorem idxOf_bar_excerptLines {digits : List Char} (hyphens : Nat) (shown : List Char)
    (numeral : ∀ c ∈ digits, c.isDigit) :
    ∀ line ∈ excerptLines digits hyphens shown, line.idxOf '|' = digits.length + 1 := by
  have margin : '|' ∉ List.replicate (digits.length + 1) ' ' := by simp
  have field : '|' ∉ digits ++ [' '] := by
    simpa using fun bar => absurd (numeral _ bar) (by decide)
  have numbered := idxOf_append_cons field (' ' :: shown)
  simpa [excerptLines, idxOf_append_cons margin] using numbered

/-- The caret stands as far behind its bar as the character behind the bar of its line. -/
theorem points_excerptLines (number : Nat) {column : Nat} {shown : List Char} {c : Char}
    (found : shown[column]? = some c) :
    ∃ bar row caret, excerptLines (toString number).toList column shown = [bar, row, caret] ∧
      Points number shown c bar row caret := by
  refine ⟨_, _, _, rfl, ⟨_, rfl⟩, rfl, ⟨_, _, rfl⟩,
    ⟨_, idxOf_bar_excerptLines _ _ fun _ => isDigit_of_mem_toString⟩, ?_⟩
  generalize (toString number).toList = digits
  have dashes : '^' ∉ List.replicate (digits.length + 1) ' ' ++
      ("| ".toList ++ List.replicate column '-') := by simp
  have width : (List.replicate (digits.length + 1) ' ' ++
      ("| ".toList ++ List.replicate column '-')).length = digits.length + (column + 3) := by
    simp; omega
  have tip := idxOf_append_cons dashes []
  rw [width, List.append_assoc, List.append_assoc] at tip
  rw [tip, List.getElem?_append_right (Nat.le_add_right ..), Nat.add_sub_cancel_left]
  simpa using found

theorem hyphens_le_column (place : Place) : hyphens place ≤ place.column := Nat.sub_le ..

/-- Of a text without long lines every report can be written, of places past its end too. -/
theorem fits_of_short {source : String}
    (short : ∀ line ∈ lines source.toList, line.length < 65535) (diagnostic : Diagnostic) :
    diagnostic.fits source := by
  rw [fits, Option.all_eq_true]
  intro place placed
  obtain ⟨member, within⟩ := placeAmong_inside placed
  have narrow : hyphens place < widestField :=
    calc
      hyphens place
      _ ≤ place.column := hyphens_le_column place
      _ ≤ place.text.length := within
      _ < 65535 := short place.text member
  exact decide_eq_true narrow

/-- A report can be written if the caret is not padded to more than the widest field. -/
theorem report?_eq_some_iff {diagnostic : Diagnostic} {source report : String} :
    diagnostic.report? source = some report ↔
      (∀ place, place? source.toList diagnostic.offset = some place → hyphens place < 65535) ∧
        report = diagnostic.report source := by
  have condition : diagnostic.fits source ↔
      ∀ place, place? source.toList diagnostic.offset = some place → hyphens place < 65535 := by
    rw [fits, Option.all_eq_true]
    simp only [decide_eq_true_eq, widestField, Nat.succ_le_iff]
  rw [report?, ← condition]
  by_cases fit : diagnostic.fits source
  · simp [fit, eq_comm]
  · simp [fit]

/-- The column of the caret is one of the line. -/
theorem report?_of_short {diagnostic : Diagnostic} {source : String} {place : Place}
    (placed : place? source.toList diagnostic.offset = some place)
    (inside : place.column < place.text.length) (short : place.text.length ≤ 65535) :
    diagnostic.report? source = some (diagnostic.report source) := by
  refine report?_eq_some_iff.mpr ⟨fun other placed' => ?_, rfl⟩
  cases placed.symm.trans placed'
  calc
    hyphens place
    _ ≤ place.column := hyphens_le_column place
    _ < place.text.length := inside
    _ ≤ 65535 := short

/-- There is a report of a place in the text where a visible character stands, if the line there has
no more than 65535 characters, its line feed counted. Its last three lines show that line, by the
number that the line feeds before it give, and point at that character. -/
theorem report_points (diagnostic : Diagnostic) (source : String) {c : Char}
    (here : source.toList[diagnostic.offset]? = some c) (visible : isSpace c = false)
    (short : ∀ line, (lines source.toList)[(source.toList.take diagnostic.offset).count '\n']? =
      some line → line.length ≤ 65535) :
    ∃ report, diagnostic.report? source = some report ∧
    ∃ earlier bar row caret indent shown spaces,
      lines report.toList = earlier ++ [bar, row, caret].map (· ++ ['\n']) ∧
      (lines source.toList)[(source.toList.take diagnostic.offset).count '\n']? =
        some (indent ++ (shown ++ spaces)) ∧
      (∀ c ∈ indent, isIndent c) ∧ (∀ c ∈ spaces, isSpace c) ∧
      Points ((source.toList.take diagnostic.offset).count '\n' + 1) shown c bar row caret := by
  obtain ⟨inside, -⟩ := List.getElem?_eq_some_iff.mp here
  obtain ⟨line, column, placed, member, -, within, found⟩ := place?_of_lt inside
  obtain ⟨spaces, split, behind⟩ := exists_trimmed line
  have before : ∀ c ∈ line.takeWhile isIndent, isIndent c := fun c => List.mem_takeWhile_imp
  obtain ⟨-, pointed⟩ := getElem?_of_visible (split ▸ found.trans here) visible before behind
  have bare := feed_not_mem_trimRight (List.mem_of_getElem? member) split
  obtain ⟨bar, numbered, caret, cut, points⟩ := points_excerptLines
    ((source.toList.take diagnostic.offset).count '\n' + 1) pointed
  have shown : (diagnostic.report source).toList =
      (headline diagnostic.fault ++ "-> " ++ diagnostic.file).toList ++ ['\n'] ++
        ([bar, numbered, caret].map (· ++ ['\n'])).flatten := by
    have written := toList_excerpt
      ⟨(source.toList.take diagnostic.offset).count '\n' + 1, line, column⟩
    simp only [hyphens, cut] at written
    simp [report, placed, written]
  have ended :=
    lines_ended (cut ▸ feed_not_mem_excerptLines _ (fun _ => isDigit_of_mem_toString) bare)
  refine ⟨_, report?_of_short placed within (short line member),
    lines ((headline diagnostic.fault ++ "-> " ++ diagnostic.file).toList ++ ['\n']), bar,
    numbered, caret, _, _, spaces, ?_, member.trans (congrArg some split), before, behind, points⟩
  rw [shown, lines, piecesAfter_append rfl]
  exact congrArg _ ended

/-- A number of two digits, and an indentation of a tab and two blanks. -/
theorem report_points_tenth :
    ("let\n\n\n\n\n\n\n\n\n\t  x = )  \n".toList[19]? = some ')' ∧ isSpace ')' = false ∧
      (lines "let\n\n\n\n\n\n\n\n\n\t  x = )  \n".toList)[9]? =
        some "\t  x = )  \n".toList ∧ "\t  x = )  \n".toList.length ≤ 65535) ∧
    ∃ report, report? ⟨.noStart .rparen, "shell", 19⟩
      "let\n\n\n\n\n\n\n\n\n\t  x = )  \n" = some report ∧
    ∃ earlier bar row caret indent shown spaces,
      lines report.toList = earlier ++ [bar, row, caret].map (· ++ ['\n']) ∧
      (lines "let\n\n\n\n\n\n\n\n\n\t  x = )  \n".toList)[9]? =
        some (indent ++ (shown ++ spaces)) ∧
      (∀ c ∈ indent, isIndent c) ∧ (∀ c ∈ spaces, isSpace c) ∧
      Points 10 shown ')' bar row caret := by
  have line : (lines "let\n\n\n\n\n\n\n\n\n\t  x = )  \n".toList)[9]? =
      some "\t  x = )  \n".toList := by decide
  have short : "\t  x = )  \n".toList.length ≤ 65535 := by decide
  refine ⟨⟨by decide, by decide, line, short⟩, ?_⟩
  refine report_points ⟨.noStart .rparen, "shell", 19⟩
    "let\n\n\n\n\n\n\n\n\n\t  x = )  \n" (by decide) (by decide) fun other same => ?_
  cases line.symm.trans same
  exact short

end Diagnostic

end MonkeySyntax
