/-! A log of what was begun and ended, each line indented by one tab for every step still open. A
disabled trace stays empty. -/
namespace MonkeySyntax

structure Trace where
  enabled : Bool := false
  level : Nat := 0
  log : Array String := #[]
  deriving DecidableEq

namespace Trace

def tabs (count : Nat) : String := String.ofList (List.replicate count '\t')

def enter (label : String) (trace : Trace) : Trace :=
  if trace.enabled then
    { trace with
      level := trace.level + 1
      log := trace.log.push (tabs trace.level ++ "BEGIN " ++ label) }
  else trace

def leave (label : String) (trace : Trace) : Trace :=
  if trace.enabled then
    { trace with
      level := trace.level - 1
      log := trace.log.push (tabs (trace.level - 1) ++ "END " ++ label) }
  else trace

theorem enter_of_disabled {trace : Trace} (h : trace.enabled = false) (label : String) :
    trace.enter label = trace := by
  simp [enter, h]

theorem leave_of_disabled {trace : Trace} (h : trace.enabled = false) (label : String) :
    trace.leave label = trace := by
  simp [leave, h]

end Trace

end MonkeySyntax
