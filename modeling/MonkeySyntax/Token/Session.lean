import MonkeySyntax.Token.Cursor

/-! Sessions with a cursor: any sequence of moves, readings, and returns to earlier positions. -/
namespace MonkeySyntax.Cursor

inductive Command where
  | next | advance | peek | atEnd | file | save | restore
  deriving DecidableEq

inductive Reading where
  | token (token : Token)
  | char (c : Char)
  | flag (value : Bool)
  | text (value : String)
  | nothing

structure Session where
  cursor : Cursor
  saved : List Cursor

namespace Session

def start (cursor : Cursor) : Session := ⟨cursor, []⟩

def step (session : Session) : Command → Reading × Session
  | .next => (.token session.cursor.next.1, ⟨session.cursor.next.2, session.saved⟩)
  | .advance => (.nothing, ⟨session.cursor.advance, session.saved⟩)
  | .peek => (.char session.cursor.peek, session)
  | .atEnd => (.flag session.cursor.atEnd, session)
  | .file => (.text session.cursor.file, session)
  | .save => (.nothing, ⟨session.cursor, session.cursor :: session.saved⟩)
  | .restore =>
    match session.saved with
    | [] => (.nothing, session)
    | cursor :: saved => (.nothing, ⟨cursor, saved⟩)

def run (session : Session) : List Command → List Reading × Session
  | [] => ([], session)
  | command :: rest =>
    let (reading, after) := session.step command
    let (readings, final) := after.run rest
    (reading :: readings, final)

end Session

end MonkeySyntax.Cursor
