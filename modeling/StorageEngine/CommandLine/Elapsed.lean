/-!
# Elapsed time

How a length of time is printed: in the largest unit of which it holds at least one, to two
decimal places, a half rounded up.
-/

namespace StorageEngine.CommandLine

/-- A number of hundredths, with two decimal places. -/
def renderHundredths (hundredths : Nat) : String :=
  let fraction := hundredths % 100
  let padding := if fraction < 10 then "0" else ""
  s!"{hundredths / 100}.{padding}{fraction}"

/-- A number of nanoseconds, in a unit of so many of them. -/
def renderIn (nanos unit : Nat) : String :=
  renderHundredths ((100 * nanos + unit / 2) / unit)

/-- The written form of a length of time. -/
def renderElapsed (nanos : Nat) : String :=
  if 1000000000 ≤ nanos then renderIn nanos 1000000000 ++ "s"
  else if 1000000 ≤ nanos then renderIn nanos 1000000 ++ "ms"
  else if 1000 ≤ nanos then renderIn nanos 1000 ++ "µs"
  else renderIn nanos 1 ++ "ns"

end StorageEngine.CommandLine
