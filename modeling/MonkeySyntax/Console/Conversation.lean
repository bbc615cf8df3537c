import MonkeySyntax.Console.Sink
import MonkeySyntax.Console.Turn
import MonkeySyntax.Text.Line

/-! Conversations: a prompt before each line and once more at the end of the input. A line that is
not text, or an output that is full, ends the conversation at once. -/
namespace MonkeySyntax.Console

open Text

inductive Failure where
  | undecodable | full
  deriving DecidableEq

namespace Failure

def name : Failure → String
  | undecodable => "InvalidData"
  | full => "WriteZero"

def message : Failure → String
  | undecodable => "stream did not contain valid UTF-8"
  | full => "failed to write whole buffer"

end Failure

def lineFeed : UInt8 := 10

def linesOf (input : ByteArray) : List ByteArray :=
  (piecesAfter (· == lineFeed) input.data.toList).map fun bytes => ⟨bytes.toArray⟩

/-- The failure that ended it, if one did, and the output. -/
def converse (options : Options) : List ByteArray → Sink → Option Failure × Sink
  | [], sink =>
    match sink.write prompt with
    | (true, after) => (none, after)
    | (false, after) => (some .full, after)
  | line :: rest, sink =>
    match sink.write prompt with
    | (false, after) => (some .full, after)
    | (true, prompted) =>
      match turn options line with
      | .undecodable => (some .undecodable, prompted)
      | .finished =>
        match prompted.write farewell with
        | (true, after) => (none, after)
        | (false, after) => (some .full, after)
      | .answered texts =>
        match prompted.writeEach texts with
        | (true, after) => converse options rest after
        | (false, after) => (some .full, after)

def run (options : Options) (input : ByteArray) (sink : Sink) : Option Failure × Sink :=
  converse options (linesOf input) sink

end MonkeySyntax.Console
