/-! Durations as text: the largest unit that they reach, with as many decimals as they need. -/
namespace MonkeySyntax.Shell

/-- The units above the nanosecond, with their lengths in nanoseconds. -/
def units : List (String × Nat) := [("s", 1000000000), ("ms", 1000000), ("µs", 1000)]

/-- The decimals of a part of a unit, without the zeros that end them. -/
def fractionText (length part : Nat) : String :=
  let decimals := (toString (length + part)).toList.drop 1
  let shown := (decimals.reverse.dropWhile (· == '0')).reverse
  if shown.isEmpty then "" else "." ++ String.ofList shown

def elapsedText (nanoseconds : Nat) : String :=
  match units.find? fun (_, length) => length ≤ nanoseconds with
  | none => toString nanoseconds ++ "ns"
  | some (unit, length) =>
    toString (nanoseconds / length) ++ fractionText length (nanoseconds % length) ++ unit

end MonkeySyntax.Shell
