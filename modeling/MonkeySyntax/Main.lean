import MonkeySyntax.Shell.Command
import MonkeySyntax.Shell.Elapsed

/-! The command run on real files, a real terminal and a real clock. -/
namespace MonkeySyntax.Shell

/-- Error codes of the system come with either sign. -/
def failureOf : IO.Error → ReadFailure
  | .noFileOrDirectory .. => .missing
  | failure@(.inappropriateType _ code _) =>
    if code = 20 ∨ code = 0 - 20 then .notDirectory
    else if code = 21 ∨ code = 0 - 21 then .directory
    else .other (toString failure)
  | failure => .other (toString failure)

def fetchFile (path : String) : IO (Except ReadFailure ByteArray) := do
  try
    return .ok (← IO.FS.readBinFile path)
  catch failure =>
    return .error (failureOf failure)

/-- Times the phases on the text before its output is composed. -/
def measure (flags : List Flag) (name text : String) : IO Durations := do
  let started ← IO.monoNanosNow
  discard <| IO.lazyPure fun _ => tokenLines name text
  let tokenized ← IO.monoNanosNow
  discard <| IO.lazyPure fun _ => readText (options flags) name text
  let parsed ← IO.monoNanosNow
  return ⟨elapsedText (tokenized - started), elapsedText (parsed - tokenized),
    elapsedText (parsed - started)⟩

def finish (exit : Exit) : IO UInt32 := do
  (← IO.getStdout).write exit.output
  (← IO.getStdout).flush
  (← IO.getStderr).putStr exit.errors
  return exit.code.toUInt32

def readFile (flags : List Flag) (path : String) : IO UInt32 := do
  match ← fetchFile path with
  | .error failure => finish (unreadable path failure)
  | .ok content =>
    let durations ←
      if .timings ∈ flags then
        measure flags (reportedName path) ((String.fromUTF8? content).getD "")
      else pure ⟨"", "", ""⟩
    finish (runFile flags durations widthMessage path content)

partial def readLine (input : IO.FS.Stream) (line : ByteArray) : IO ByteArray := do
  let byte ← input.read 1
  if byte.isEmpty then return line
  let line := line ++ byte
  if byte.data.toList = [Console.lineFeed] then return line
  readLine input line

partial def converse (options : Options) (input output : IO.FS.Stream) :
    IO (Option Console.Failure) := do
  output.putStr Console.prompt
  output.flush
  let line ← readLine input .empty
  if line.isEmpty then return none
  match Console.turn options line with
  | .undecodable => return some .undecodable
  | .finished =>
    output.putStr Console.farewell
    return none
  | .answered texts =>
    texts.forM output.putStr
    converse options input output

def holdConversation (flags : List Flag) : IO UInt32 := do
  let output ← IO.getStdout
  output.putStr (greeting (← IO.getEnv "USER"))
  match ← converse (options flags) (← IO.getStdin) output with
  | none => return 0
  | some failure =>
    output.flush
    (← IO.getStderr).putStr (stopped failure)
    return 1

def start (arguments : List String) : IO UInt32 :=
  match Request.ofArguments arguments with
  | .version => finish (.success versionText)
  | .help => finish (.success helpText)
  | .misuse => finish misused
  | .perform ⟨flags, none⟩ => holdConversation flags
  | .perform ⟨flags, some path⟩ => readFile flags path

end MonkeySyntax.Shell

def main (arguments : List String) : IO UInt32 := MonkeySyntax.Shell.start arguments
