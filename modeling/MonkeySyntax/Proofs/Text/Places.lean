import MonkeySyntax.Proofs.Text.Lines
import Mathlib.Data.Prod.Lex

/-! Looking up an offset undoes the numbering of characters by line and column. The lines are the
only way to cut the text behind its line feeds; the lines before a place and the column in its line
add up to its offset, so an offset further on is also further on in the order of lines and
columns. -/
namespace MonkeySyntax.Text

section

variable {α : Type u} {last : α → Bool}

theorem piecesAfter_final {front : List α} {mark : α} (bare : ∀ a ∈ front, last a = false)
    (unmarked : last mark = false) : piecesAfter last (front ++ [mark]) = [front ++ [mark]] := by
  induction front with
  | nil => simp [piecesAfter, unmarked]
  | cons a front ih =>
    obtain ⟨plain, bare⟩ := List.forall_mem_cons.mp bare
    simp [piecesAfter, plain, ih bare]

theorem Pieces.piecesAfter_flatten {pieces : List (List α)} (cut : Pieces last pieces) :
    piecesAfter last pieces.flatten = pieces := by
  induction cut with
  | nil => rfl
  | final front bare unmarked => simpa using piecesAfter_final bare unmarked
  | ended front bare ends _ ih =>
    rw [List.flatten_cons, List.append_assoc, List.singleton_append, piecesAfter_mark bare ends, ih]

end

/-- There is one way to cut a text into lines. -/
theorem lines_eq_iff {text : List Char} {rows : List (List Char)} :
    lines text = rows ↔ rows.flatten = text ∧ Pieces (· == '\n') rows := by
  constructor
  · rintro rfl
    exact ⟨flatten_piecesAfter _ text, pieces_piecesAfter text⟩
  · rintro ⟨rfl, cut⟩
    exact cut.piecesAfter_flatten

theorem lines_eq_nil_iff {text : List Char} : lines text = [] ↔ text = [] := by
  constructor
  · intro none
    have joined := flatten_piecesAfter (· == '\n') text
    rwa [show piecesAfter _ text = [] from none, List.flatten_nil, eq_comm] at joined
  · rintro rfl
    rfl

theorem placeAmong_of_le (number : Nat) {offset : Nat} {before : List (List Char)}
    {line : List Char} (past : (before ++ [line]).flatten.length ≤ offset) :
    placeAmong number offset (before ++ [line]) =
      some ⟨number + before.length, line, line.length⟩ := by
  induction before generalizing number offset with
  | nil =>
    have past : line.length ≤ offset := by simpa using past
    simp [placeAmong, past]
  | cons first before ih =>
    rw [List.cons_append, List.flatten_cons, List.length_append] at past
    have behind : ¬ offset < first.length := by omega
    rw [List.cons_append, placeAmong, if_neg behind, if_neg (by simp), ih (number + 1) (by omega),
      List.length_cons, Nat.add_assoc, Nat.add_comm 1]

/-- An offset past a text stands behind its last line. -/
theorem place?_of_le {text : List Char} {offset : Nat} (nonempty : text ≠ [])
    (past : text.length ≤ offset) :
    ∃ row, (lines text).getLast? = some row ∧
      place? text offset = some ⟨(lines text).length, row, row.length⟩ := by
  obtain ⟨before, row, cut⟩ :=
    (List.eq_nil_or_concat' (lines text)).resolve_left (mt lines_eq_nil_iff.mp nonempty)
  have joined : (before ++ [row]).flatten = text := cut ▸ flatten_piecesAfter _ text
  refine ⟨row, ?_, ?_⟩
  · rw [cut, List.getLast?_concat]
  · rw [place?, cut, placeAmong_of_le 1 (joined.symm ▸ past), List.length_append,
      List.length_singleton, Nat.add_comm]

theorem place?_eq_none_iff {text : List Char} {offset : Nat} :
    place? text offset = none ↔ text = [] := by
  constructor
  · intro none
    by_contra nonempty
    rcases Nat.lt_or_ge offset text.length with inside | past
    · obtain ⟨row, column, found, -⟩ := place?_of_lt inside
      rw [none] at found
      cases found
    · obtain ⟨row, -, found⟩ := place?_of_le nonempty past
      rw [none] at found
      cases found
  · rintro rfl
    rfl

namespace Place

/-- Line and column, the line first. -/
def key (place : Place) : ℕ ×ₗ ℕ := toLex (place.number, place.column)

/-- The place is that of the offset inside the text: its line is numbered by the line feeds that
come before, the column leads to the same character, and what comes before adds up. -/
structure Locates (place : Place) (text : List Char) (offset : Nat) : Prop where
  number : place.number = (text.take offset).count '\n' + 1
  row : (lines text)[place.number - 1]? = some place.text
  inside : place.column < place.text.length
  character : place.text[place.column]? = text[offset]?
  total : ((lines text).take (place.number - 1)).flatten.length + place.column = offset

namespace Locates

variable {text : List Char} {here there : Place} {offset offset' : Nat}

theorem offset_eq (locates : here.Locates text offset) (locates' : there.Locates text offset')
    (same : here.key = there.key) : offset = offset' := by
  obtain ⟨number, column⟩ : here.number = there.number ∧ here.column = there.column := by
    simpa [key] using same
  rw [← locates.total, ← locates'.total, number, column]

theorem key_lt (locates : here.Locates text offset) (locates' : there.Locates text offset')
    (before : offset < offset') : here.key < there.key := by
  have fewer : here.number ≤ there.number := by
    rw [locates.number, locates'.number, Nat.add_le_add_iff_right]
    exact (List.take_sublist_take_left (Nat.le_of_lt before)).count_le _
  rw [key, key, Prod.Lex.toLex_lt_toLex]
  rcases Nat.lt_or_eq_of_le fewer with less | same
  · exact .inl less
  · -- The same lines come before both, so the columns make the difference.
    have total := locates.total
    have total' := locates'.total
    rw [same] at total
    exact .inr ⟨same, by omega⟩

end Locates

end Place

theorem exists_locates {text : List Char} {offset : Nat} (inside : offset < text.length) :
    ∃ place, place? text offset = some place ∧ place.Locates text offset := by
  obtain ⟨row, column, found, member, total, short, same⟩ := place?_of_lt inside
  exact ⟨_, found, rfl, member, short, same, total⟩

/-- A text has one way to be cut into lines, and no place only if it is empty. An offset inside it
has the place that leads back to it; one past it stands behind the last line. Line and column
together tell the offsets inside apart and stand in their order. -/
theorem place?_inverts (text : List Char) :
    (∀ rows, rows.flatten = text ∧ Pieces (· == '\n') rows ↔ rows = lines text) ∧
    (∀ offset, place? text offset = none ↔ text = []) ∧
    (∀ offset, offset < text.length →
      ∃ place, place? text offset = some place ∧ place.Locates text offset) ∧
    (∀ offset, text.length ≤ offset → text ≠ [] →
      ∃ row, (lines text).getLast? = some row ∧
        place? text offset = some ⟨(lines text).length, row, row.length⟩) ∧
    ∀ offset offset' here there, offset < text.length → offset' < text.length →
      place? text offset = some here → place? text offset' = some there →
      (here.key = there.key → offset = offset') ∧ (offset < offset' → here.key < there.key) := by
  refine ⟨fun rows => ?_, fun offset => place?_eq_none_iff, fun offset => exists_locates,
    fun offset past nonempty => place?_of_le nonempty past, ?_⟩
  · rw [← lines_eq_iff, eq_comm]
  · intro offset offset' here there inside inside' found found'
    obtain ⟨_, located, locates⟩ := exists_locates inside
    obtain ⟨_, located', locates'⟩ := exists_locates inside'
    cases found.symm.trans located
    cases found'.symm.trans located'
    exact ⟨locates.offset_eq locates', locates.key_lt locates'⟩

/-- The end of a line and the empty line behind it; the last line has no line feed, and an offset
past the text stands behind it. -/
theorem place?_inverts_feeds :
    let text := "é \n\nx".toList
    let here : Place := ⟨1, "é \n".toList, 2⟩
    let there : Place := ⟨2, "\n".toList, 0⟩
    2 < text.length ∧ 3 < text.length ∧ text.length ≤ 9 ∧ text ≠ [] ∧
      here.Locates text 2 ∧ there.Locates text 3 ∧ here.key < there.key ∧
      place? text 9 = some ⟨3, "x".toList, 1⟩ := by
  intro text here there
  obtain ⟨-, -, located, past, order⟩ := place?_inverts text
  have found : place? text 2 = some here := by decide
  have found' : place? text 3 = some there := by decide
  obtain ⟨_, same, locates⟩ := located 2 (by decide)
  obtain ⟨_, same', locates'⟩ := located 3 (by decide)
  obtain ⟨_, last, behind⟩ := past 9 (by decide) (by decide)
  cases found.symm.trans same
  cases found'.symm.trans same'
  cases last.symm.trans (show (lines text).getLast? = some "x".toList by decide)
  exact ⟨by decide, by decide, by decide, by decide, locates, locates',
    (order 2 3 here there (by decide) (by decide) found found').2 (by decide), behind⟩

end MonkeySyntax.Text
