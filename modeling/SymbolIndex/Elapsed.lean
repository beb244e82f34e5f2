/-!
# Elapsed time

The shown form of a time span: a decimal number of seconds, milliseconds,
microseconds or nanoseconds, in the largest unit that the span fills.
-/

namespace SymbolIndex

namespace Elapsed

/-- The digits of a fraction `part / 10 ^ places`, without zeros at the end. -/
def fractionDigits (part places : Nat) : String :=
  let digits := (toString part).toList
  let padded := List.replicate (places - digits.length) '0' ++ digits
  String.ofList (padded.reverse.dropWhile (· = '0')).reverse

/-- A number of units and a rest below one unit of `10 ^ places` parts. -/
def decimal (whole part places : Nat) (unit : String) : String :=
  if part = 0 then s!"{whole}{unit}" else s!"{whole}.{fractionDigits part places}{unit}"

def render (nanoseconds : Nat) : String :=
  if nanoseconds ≥ 1000000000 then
    decimal (nanoseconds / 1000000000) (nanoseconds % 1000000000) 9 "s"
  else if nanoseconds ≥ 1000000 then
    decimal (nanoseconds / 1000000) (nanoseconds % 1000000) 6 "ms"
  else if nanoseconds ≥ 1000 then decimal (nanoseconds / 1000) (nanoseconds % 1000) 3 "µs"
  else s!"{nanoseconds}ns"

end Elapsed

end SymbolIndex
