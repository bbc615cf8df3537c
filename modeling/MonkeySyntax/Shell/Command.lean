import MonkeySyntax.Shell.Invocation

/-! The command line, outermost: it makes an invocation of the arguments and answers the rest by
itself. Arguments are read from left to right; the first one that asks for the version or the help,
or that is a mistake, decides, and a bare double dash ends the flags. Reading them is a library's
work and its texts are the library's; only the invocation that is made of them matters within. -/
namespace MonkeySyntax.Shell

namespace Flag

def all : List Flag := [trace, tokens, timings]

def text : Flag → String
  | trace => "--trace"
  | tokens => "--tokens"
  | timings => "--timings"

end Flag

inductive Request where
  | version
  | help
  | misuse
  | perform (invocation : Invocation)

namespace Request

/-- A file name; one at most, and not the empty one. -/
def operand? (argument : String) (invocation : Invocation) : Option Invocation :=
  if argument.isEmpty || invocation.file.isSome then none
  else some { invocation with file := some argument }

def operands (invocation : Invocation) : List String → Request
  | [] => .perform invocation
  | argument :: rest =>
    match operand? argument invocation with
    | none => .misuse
    | some after => operands after rest

/-- Short flags may share a dash, but the first of them already decides. -/
def ofShort : List Char → Request
  | 'V' :: _ => .version
  | 'h' :: _ => .help
  | _ => .misuse

def readFrom (invocation : Invocation) : List String → Request
  | [] => .perform invocation
  | argument :: rest =>
    match argument.toList with
    | ['-', '-'] => operands invocation rest
    | '-' :: '-' :: _ =>
      if argument = "--version" then .version
      else if argument = "--help" then .help
      else match Flag.all.find? (·.text == argument) with
        | none => .misuse
        | some flag =>
          if flag ∈ invocation.flags then .misuse
          else readFrom { invocation with flags := invocation.flags ++ [flag] } rest
    | '-' :: c :: short => ofShort (c :: short)
    | _ =>
      match operand? argument invocation with
      | none => .misuse
      | some after => readFrom after rest

def ofArguments (arguments : List String) : Request := readFrom {} arguments

end Request

def versionText : String := "monkey 0.1.0\n"

def usage : String := "Usage: monkey [OPTIONS] [FILE]\n"

def helpText : String :=
  "Lexer and parser for the Monkey language\n\n" ++ usage ++ "\n" ++
    "  [FILE]         Source file to parse; starts the REPL when omitted\n" ++
    "      --trace    Print the parse trace\n" ++
    "      --tokens   Print every token before parsing\n" ++
    "      --timings  Print how long each phase took\n"

def misused : Exit := ⟨2, .empty, usage⟩

def run (surroundings : Surroundings) (arguments : List String) : Exit :=
  match Request.ofArguments arguments with
  | .version => .success versionText
  | .help => .success helpText
  | .misuse => misused
  | .perform invocation => perform surroundings invocation

end MonkeySyntax.Shell
