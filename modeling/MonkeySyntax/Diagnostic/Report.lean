import MonkeySyntax.Diagnostic.Basic
import MonkeySyntax.Text.Classes
import MonkeySyntax.Text.Line

/-! Reports: the fault and its tip, the file, and the line of the text with a caret below the place.
The line loses its indentation and its trailing white space, and the caret moves left with it. A
text without lines has only the first two lines of the report. The caret is padded to a field whose
width is known to 16 bits, so there is no report of a place further to the right: writing one is a
panic. -/
namespace MonkeySyntax.Diagnostic

open Text

def headline (fault : Fault) : String :=
  match fault.tip? with
  | none => "Error: " ++ fault.name ++ "\n"
  | some tip => "Error: " ++ fault.name ++ " (" ++ tip ++ ")\n"

/-- Spaces up to a bar that ends a field two wider than the line number. -/
def gutter (number : String) : String :=
  String.ofList (List.replicate (number.length + 1) ' ') ++ "|"

/-- The hyphens before the caret: as many as there are columns before the place in what is shown. -/
def hyphens (place : Place) : Nat := place.column - (place.text.takeWhile isIndent).length

def excerpt (place : Place) : String :=
  let number := toString place.number
  let shown := trimRight (place.text.dropWhile isIndent)
  gutter number ++ "\n" ++
    number ++ " | " ++ String.ofList shown ++ "\n" ++
    gutter number ++ " " ++ String.ofList (List.replicate (hyphens place) '-') ++ "^\n"

/-- The widest field that a text can be padded to. -/
def widestField : Nat := 65535

/-- The field of the caret and the hyphens before it is not too wide. -/
def fits (diagnostic : Diagnostic) (source : String) : Bool :=
  (place? source.toList diagnostic.offset).all fun place => hyphens place + 1 ≤ widestField

/-- The text of a report, if it can be written. -/
def report (diagnostic : Diagnostic) (source : String) : String :=
  headline diagnostic.fault ++ "-> " ++ diagnostic.file ++ "\n" ++
    match place? source.toList diagnostic.offset with
    | none => ""
    | some place => excerpt place

/-- The report, or nothing if writing it is a panic. -/
def report? (diagnostic : Diagnostic) (source : String) : Option String :=
  if diagnostic.fits source then some (diagnostic.report source) else none

end MonkeySyntax.Diagnostic
