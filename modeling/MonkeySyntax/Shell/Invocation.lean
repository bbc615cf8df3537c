import MonkeySyntax.Console.Conversation
import MonkeySyntax.Diagnostic.Report
import MonkeySyntax.Shell.Files

/-! What the program does when it is called: it reads one file and writes its canonical text or the
reports of its faults, or holds a conversation when no file is named. Each flag only adds lines of
its own. A report that cannot be written ends the program with a panic. Files, input, the clock and
what a panic is announced with are given from outside. -/
namespace MonkeySyntax.Shell

inductive Flag where
  | trace | tokens | timings
  deriving DecidableEq

structure Invocation where
  flags : List Flag := []
  file : Option String := none

structure Exit where
  code : Nat
  output : ByteArray
  errors : String

def Exit.success (text : String) : Exit := ⟨0, text.toUTF8, ""⟩

/-- How long each phase took, as text. -/
structure Durations where
  tokens : String
  parse : String
  total : String

/-- What a panic over a field too wide says; where it says so is up to the runtime. -/
def widthMessage : String := "Formatting argument out of range\n"

structure Surroundings where
  fetch : String → Except ReadFailure ByteArray
  input : ByteArray
  user : Option String
  durations : Durations
  /-- What is written to the errors when the program panics. -/
  alarm : String := widthMessage

def unreadable (path : String) (failure : ReadFailure) : Exit :=
  ⟨1, .empty, "Failed to read " ++ path ++ ": " ++ failure.reason ++ "\n"⟩

/-- A file is reported by the last part of its path. -/
def reportedName (path : String) : String := (FileTree.names path).getLastD path

def options (flags : List Flag) : Options := { trace := .trace ∈ flags }

def tokenLines (name text : String) : String :=
  String.join ((Cursor.ofText name text).tokens.map (·.line ++ "\n"))

/-- The reports in order, up to the first that cannot be written, and whether there is none such. -/
def reports (text : String) : List Diagnostic → String × Bool
  | [] => ("", true)
  | diagnostic :: rest =>
    match diagnostic.report? text with
    | none => ("", false)
    | some report => (report ++ (reports text rest).1, (reports text rest).2)

/-- The result of reading a text, without any flag's additions. -/
def result (parsed : Parsed) (text : String) : String :=
  if parsed.diagnostics.isEmpty then renderAll parsed.program ++ "\n"
  else (reports text parsed.diagnostics).1

/-- All output on a text, in the order in which it is written. -/
def fileOutput (flags : List Flag) (durations : Durations) (name text : String) (parsed : Parsed) :
    String :=
  let given (flag : Flag) (addition : String) := if flag ∈ flags then addition else ""
  let succeeded := parsed.diagnostics.isEmpty
  given .tokens
      (tokenLines name text ++ given .timings ("Tokenized in " ++ durations.tokens ++ "\n")) ++
    given .timings ("Parsed in " ++ durations.parse ++ "\n") ++
    String.join (Console.traceLines parsed) ++
    result parsed text ++
    if succeeded then given .timings ("Total time: " ++ durations.total ++ "\n") else ""

def panicCode : Nat := 101

/-- How a run ends that has read the text and written the output. -/
def conclude (alarm : String) (parsed : Parsed) (text : String) (output : ByteArray) : Exit :=
  if parsed.diagnostics.isEmpty then ⟨0, output, ""⟩
  else if (reports text parsed.diagnostics).2 then ⟨1, output, ""⟩
  else ⟨panicCode, output, alarm⟩

def runFile (flags : List Flag) (durations : Durations) (alarm path : String)
    (content : ByteArray) : Exit :=
  match String.fromUTF8? content with
  | none => unreadable path .undecodable
  | some text =>
    let name := reportedName path
    let parsed := readText (options flags) name text
    conclude alarm parsed text (fileOutput flags durations name text parsed).toUTF8

def greeting (user : Option String) : String :=
  "Hello " ++ user.getD "there" ++ "! This is the Monkey programming language!\n" ++
    "Feel free to type in commands\n"

def stopped (failure : Console.Failure) : String := "REPL stopped: " ++ failure.message ++ "\n"

def runConsole (flags : List Flag) (user : Option String) (input : ByteArray) : Exit :=
  let sink := ((Sink.empty none).write (greeting user)).2
  match Console.run (options flags) input sink with
  | (none, after) => ⟨0, after.written, ""⟩
  | (some failure, after) => ⟨1, after.written, stopped failure⟩

def perform (surroundings : Surroundings) : Invocation → Exit
  | ⟨flags, none⟩ => runConsole flags surroundings.user surroundings.input
  | ⟨flags, some path⟩ =>
    match surroundings.fetch path with
    | .error failure => unreadable path failure
    | .ok content => runFile flags surroundings.durations surroundings.alarm path content

end MonkeySyntax.Shell
