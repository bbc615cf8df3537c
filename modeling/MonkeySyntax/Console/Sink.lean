/-! Outputs that may fill up. A sink with a capacity takes exactly that many bytes; a text that does
not fit is cut there and refused. -/
namespace MonkeySyntax

structure Sink where
  capacity : Option Nat
  written : ByteArray

namespace Sink

def empty (capacity : Option Nat) : Sink := ⟨capacity, .empty⟩

/-- Whether the whole text was taken, and the sink afterwards. -/
def write (text : String) (sink : Sink) : Bool × Sink :=
  let all := sink.written ++ text.toUTF8
  match sink.capacity with
  | none => (true, ⟨none, all⟩)
  | some capacity => (all.size ≤ capacity, ⟨some capacity, all.extract 0 capacity⟩)

theorem write_unlimited (text : String) (written : ByteArray) :
    (Sink.mk none written).write text = (true, ⟨none, written ++ text.toUTF8⟩) := rfl

/-- Stops at the first text that is refused. -/
def writeEach : List String → Sink → Bool × Sink
  | [], sink => (true, sink)
  | text :: rest, sink =>
    match sink.write text with
    | (true, after) => after.writeEach rest
    | (false, after) => (false, after)

end Sink

end MonkeySyntax
