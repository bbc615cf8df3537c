import MonkeySyntax.Text.Line
import Mathlib.Data.List.Basic

/-! Lines of a text and the place of an offset inside it. Each line but the last is ended by a line
feed, and none has a line feed before its end; so as many line feeds stand before an offset as lines
end before it, and what is left of the offset is its column. -/
namespace MonkeySyntax.Text

variable {α : Type u} {last : α → Bool}

theorem piecesAfter_mark {front : List α} {mark : α} (bare : ∀ a ∈ front, last a = false)
    (ends : last mark) (rest : List α) :
    piecesAfter last (front ++ mark :: rest) = (front ++ [mark]) :: piecesAfter last rest := by
  induction front with
  | nil => simp [piecesAfter, ends]
  | cons a front ih =>
    obtain ⟨plain, bare⟩ := List.forall_mem_cons.mp bare
    simp [piecesAfter, plain, ih bare]

/-- Lists are cut into pieces one after the other if the first of them ends with a piece. -/
theorem piecesAfter_append {front : List α} {mark : α} (ends : last mark) (rest : List α) :
    piecesAfter last (front ++ [mark] ++ rest) =
      piecesAfter last (front ++ [mark]) ++ piecesAfter last rest := by
  induction front with
  | nil => simp [piecesAfter, ends]
  | cons a front ih =>
    simp only [List.cons_append, piecesAfter] at ih ⊢
    rw [ih]
    split
    · rfl
    · -- The element goes to the first piece of what follows, and the mark is in some piece.
      cases pieces : piecesAfter last (front ++ [mark]) with
      | nil =>
        have none := flatten_piecesAfter last (front ++ [mark])
        simp [pieces] at none
      | cons piece others => rfl

theorem feed_not_mem_iff {row : List Char} :
    '\n' ∉ row ↔ ∀ c ∈ row, (c == '\n') = false := by
  constructor
  · exact fun free c here => beq_false_of_ne (ne_of_mem_of_not_mem here free)
  · exact fun bare feed => absurd (bare _ feed) (by decide)

theorem lines_ended {rows : List (List Char)} (bare : ∀ row ∈ rows, '\n' ∉ row) :
    lines (rows.map (· ++ ['\n'])).flatten = rows.map (· ++ ['\n']) := by
  induction rows with
  | nil => rfl
  | cons row rows ih =>
    obtain ⟨plain, bare⟩ := List.forall_mem_cons.mp bare
    rw [List.map_cons, List.flatten_cons, List.append_assoc, lines, List.singleton_append,
      piecesAfter_mark (feed_not_mem_iff.mp plain) rfl]
    exact congrArg _ (ih bare)

/-- Pieces none of which has a mark before its end, and of which only the final one may lack a mark
there. -/
inductive Pieces (last : α → Bool) : List (List α) → Prop
  | nil : Pieces last []
  | final (front : List α) : (∀ a ∈ front, last a = false) → last mark = false →
      Pieces last [front ++ [mark]]
  | ended (front : List α) : (∀ a ∈ front, last a = false) → last mark → Pieces last rest →
      Pieces last ((front ++ [mark]) :: rest)

theorem pieces_piecesAfter (text : List α) : Pieces last (piecesAfter last text) := by
  induction text with
  | nil => exact .nil
  | cons a rest ih =>
    rw [piecesAfter]
    split
    · next ends => exact .ended [] (List.forall_mem_nil _) ends ih
    · next plain =>
      have plain : last a = false := Bool.eq_false_iff.mpr plain
      -- The element opens the piece that follows it, or is a piece by itself.
      split
      · exact .final [] (List.forall_mem_nil _) plain
      · next piece others pieces =>
        rw [pieces] at ih
        cases ih with
        | final front bare unmarked =>
          exact .final (a :: front) (List.forall_mem_cons.mpr ⟨plain, bare⟩) unmarked
        | ended front bare ends whole =>
          exact .ended (a :: front) (List.forall_mem_cons.mpr ⟨plain, bare⟩) ends whole

/-- A piece that others follow has one mark. -/
theorem Pieces.uncons {piece : List α} {more : List (List α)} (pieces : Pieces last (piece :: more))
    (followed : more ≠ []) : piece.countP last = 1 ∧ Pieces last more := by
  cases pieces with
  | final => exact absurd rfl followed
  | ended front bare ends rest =>
    have none := List.countP_eq_zero.mpr fun a here => Bool.eq_false_iff.mp (bare a here)
    exact ⟨by simp [List.countP_append, none, ends], rest⟩

/-- As many marks come before a piece as pieces, and the piece has none before its end. -/
theorem Pieces.split {before after : List (List α)} {piece : List α}
    (pieces : Pieces last (before ++ piece :: after)) :
    before.flatten.countP last = before.length ∧
      ∃ front mark, piece = front ++ [mark] ∧ ∀ a ∈ front, last a = false := by
  induction before with
  | nil =>
    cases pieces with
    | final front bare | ended front bare => exact ⟨rfl, front, _, rfl, bare⟩
  | cons first before ih =>
    obtain ⟨one, rest⟩ := Pieces.uncons pieces (by simp)
    obtain ⟨count, found⟩ := ih rest
    exact ⟨by simp [List.countP_append, one, count, Nat.add_comm], found⟩

theorem lines_split {text row : List Char} {before after : List (List Char)}
    (cut : lines text = before ++ row :: after) :
    before.flatten.count '\n' = before.length ∧
      ∃ front mark, row = front ++ [mark] ∧ '\n' ∉ front := by
  have pieces : Pieces (· == '\n') (before ++ row :: after) := cut ▸ pieces_piecesAfter text
  obtain ⟨count, front, mark, same, bare⟩ := pieces.split
  exact ⟨count, front, mark, same, feed_not_mem_iff.mpr bare⟩

theorem feed_not_mem_dropLast {text row : List Char} (member : row ∈ lines text) :
    '\n' ∉ row.dropLast := by
  obtain ⟨before, after, cut⟩ := List.append_of_mem member
  obtain ⟨-, front, mark, rfl, free⟩ := lines_split cut
  rwa [List.dropLast_concat]

theorem placeAmong_inside {number offset : Nat} {pieces : List (List Char)} {place : Place}
    (placed : placeAmong number offset pieces = some place) :
    place.text ∈ pieces ∧ place.column ≤ place.text.length := by
  induction pieces generalizing number offset with
  | nil => cases placed
  | cons line rest ih =>
    rw [placeAmong] at placed
    split at placed
    · next inside =>
      cases placed
      exact ⟨List.mem_cons_self, Nat.le_of_lt inside⟩
    · split at placed
      · cases placed
        exact ⟨List.mem_cons_self, Nat.le_refl _⟩
      · obtain ⟨member, within⟩ := ih placed
        exact ⟨List.mem_cons_of_mem _ member, within⟩

theorem placeAmong_of_lt (number : Nat) {offset : Nat} {pieces : List (List Char)}
    (inside : offset < pieces.flatten.length) :
    ∃ before line after column, pieces = before ++ line :: after ∧
      offset = before.flatten.length + column ∧ column < line.length ∧
      placeAmong number offset pieces = some ⟨number + before.length, line, column⟩ := by
  induction pieces generalizing number offset with
  | nil => simp at inside
  | cons first rest ih =>
    by_cases here : offset < first.length
    · exact ⟨[], first, rest, offset, rfl, by simp, here, by simp [placeAmong, here]⟩
    · rw [List.flatten_cons, List.length_append] at inside
      have more : rest ≠ [] := by rintro rfl; exact here (by simpa using inside)
      obtain ⟨before, line, after, column, rfl, place, bound, found⟩ :=
        ih (number + 1) (by omega : offset - first.length < rest.flatten.length)
      refine ⟨first :: before, line, after, column, rfl, ?_, bound, ?_⟩
      · rw [List.flatten_cons, List.length_append]; omega
      · rw [placeAmong, if_neg here, if_neg (by simp), found, List.length_cons, Nat.add_assoc,
          Nat.add_comm 1]

/-- An offset inside a text stands on the line behind as many lines as line feeds come before it, in
the column that the lengths of these lines leave of it. -/
theorem place?_of_lt {text : List Char} {offset : Nat} (inside : offset < text.length) :
    ∃ row column,
      place? text offset = some ⟨(text.take offset).count '\n' + 1, row, column⟩ ∧
      (lines text)[(text.take offset).count '\n']? = some row ∧
      ((lines text).take ((text.take offset).count '\n')).flatten.length + column = offset ∧
      column < row.length ∧ row[column]? = text[offset]? := by
  have joined : (lines text).flatten = text := flatten_piecesAfter _ text
  obtain ⟨before, row, after, column, cut, rfl, bound, found⟩ :=
    placeAmong_of_lt 1 (joined.symm ▸ inside)
  obtain ⟨earlier, front, mark, rfl, free⟩ := lines_split cut
  rw [cut, List.flatten_append, List.flatten_cons] at joined
  have count : (text.take (before.flatten.length + column)).count '\n' = before.length := by
    have short : column ≤ front.length := by simpa [Nat.lt_succ_iff] using bound
    have none : (front.take column).count '\n' = 0 :=
      List.count_eq_zero.mpr fun feed => free (List.mem_of_mem_take feed)
    rw [← joined, List.take_length_add_append, List.append_assoc,
      List.take_append_of_le_length short, List.count_append, none, earlier, Nat.add_zero]
  refine ⟨front ++ [mark], column, ?_, ?_, ?_, bound, ?_⟩
  · rw [count, place?, found, Nat.add_comm]
  · rw [count, cut]; simp
  · rw [count, cut]; simp
  · rw [← joined, List.getElem?_append_right (Nat.le_add_right ..), Nat.add_sub_cancel_left,
      List.getElem?_append_left bound]

end MonkeySyntax.Text
