import MonkeySyntax.Parsing.Run
import MonkeySyntax.Tree.Render

/-! One turn of a conversation: what is answered to a line. A line is read on its own, with its line
feed; the answer is its trace and then its canonical text, or else the list of its faults. -/
namespace MonkeySyntax.Console

open Text

def prompt : String := ">> "

def farewell : String := "Exiting...\n"

def face : String := r#"
           __,__
  .--.  .-"     "-.  .--.
 / .. \/  .-. .-.  \/ .. \
| |  '|  /   Y   \  |'  | |
| \   \  \ 0 | 0 /  /   / |
 \ '- ,\.-"""""""-./, -' /
  ''-' /_   ^ ^   _\ '-''
      |  \._   _./  |
      \   \ '~' /   /
       '._ '-=-' _.'
          '-----'
"#

def complaint (diagnostics : List Diagnostic) : List String :=
  face :: "Woops! We ran into some monkey business here!\n" :: " parser errors:\n" ::
    diagnostics.map fun diagnostic => "\t" ++ diagnostic.fault.message ++ "\n"

def traceLines (parsed : Parsed) : List String := parsed.trace.map (· ++ "\n")

/-- The texts that answer a line, in the order in which they are written. -/
def answer (options : Options) (line : String) : List String :=
  let parsed := readText options Cursor.defaultFile line
  traceLines parsed ++
    if parsed.diagnostics.isEmpty then [renderAll parsed.program ++ "\n"]
    else complaint parsed.diagnostics

def isFarewell (line : String) : Bool :=
  let word := String.ofList (trim line.toList)
  word = "exit" || word = "quit"

inductive Turn where
  | answered (texts : List String)
  | finished
  | undecodable

/-- The turn taken on the bytes of a line. -/
def turn (options : Options) (bytes : ByteArray) : Turn :=
  match String.fromUTF8? bytes with
  | none => .undecodable
  | some line => if isFarewell line then .finished else .answered (answer options line)

end MonkeySyntax.Console
