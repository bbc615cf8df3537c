/-! Lines of a text and the place of an offset among them. A line keeps its line feed, so the lines
of a text join to the text; an offset past the end is placed behind the last line. -/
namespace MonkeySyntax.Text

/-- The pieces of a list, each ended by its first `last` element; the final piece may lack one. -/
def piecesAfter (last : α → Bool) : List α → List (List α)
  | [] => []
  | a :: rest =>
    if last a then [a] :: piecesAfter last rest
    else match piecesAfter last rest with
      | [] => [[a]]
      | piece :: others => (a :: piece) :: others

theorem flatten_piecesAfter (last : α → Bool) (text : List α) :
    (piecesAfter last text).flatten = text := by
  induction text with
  | nil => rfl
  | cons a rest ih =>
    simp only [piecesAfter]
    split
    · simp [ih]
    · split
      · next h => simp_all
      · next h => simpa [h] using ih

def lines (text : List Char) : List (List Char) := piecesAfter (· == '\n') text

/-- A line's number from one, its text, and a column from zero within it. -/
structure Place where
  number : Nat
  text : List Char
  column : Nat
  deriving DecidableEq

def placeAmong (number offset : Nat) : List (List Char) → Option Place
  | [] => none
  | line :: rest =>
    if offset < line.length then some ⟨number, line, offset⟩
    else if rest.isEmpty then some ⟨number, line, line.length⟩
    else placeAmong (number + 1) (offset - line.length) rest

def place? (text : List Char) (offset : Nat) : Option Place := placeAmong 1 offset (lines text)

end MonkeySyntax.Text
