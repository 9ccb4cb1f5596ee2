import DurableWorkflow.Text.Quoted

/-!
# Durations

Spans of time as workflow code gives them, to the nanosecond. Commands carry whole milliseconds in
a machine word, so a longer span is cut to the greatest one.
-/

namespace DurableWorkflow

/-- A span of time. -/
structure Duration where
  /-- Its length in nanoseconds. -/
  nanoseconds : Nat
  deriving DecidableEq, Inhabited

namespace Duration

/-- A span of whole milliseconds. -/
def ofMillis (ms : Nat) : Duration :=
  ⟨ms * 1000000⟩

/-- A span of seconds and nanoseconds. -/
def ofSeconds (seconds nanoseconds : Nat) : Duration :=
  ⟨seconds * 1000000000 + nanoseconds⟩

/-- The least number of milliseconds that lasts at least as long. -/
def millisUp (d : Duration) : Nat :=
  (d.nanoseconds + 999999) / 1000000

/-- The whole milliseconds of a span, at most the greatest machine word. -/
def millis (d : Duration) : Nat :=
  min (d.nanoseconds / 1000000) (UInt64.size - 1)

/-- A number of units in decimal, `count` of them with `width` further digits, of which trailing
zeros are left out. -/
def decimal (whole part width : Nat) : String :=
  let digits := Nat.toDigits 10 part
  let padded := List.replicate (width - digits.length) '0' ++ digits
  let trimmed := (padded.reverse.dropWhile (· == '0')).reverse
  if part = 0 then toString whole else toString whole ++ "." ++ String.ofList trimmed

/-- A span in inspected form, in the largest unit it fills. -/
def inspect (d : Duration) : String :=
  let n := d.nanoseconds
  if 1000000000 ≤ n then decimal (n / 1000000000) (n % 1000000000) 9 ++ "s"
  else if 1000000 ≤ n then decimal (n / 1000000) (n % 1000000) 6 ++ "ms"
  else if 1000 ≤ n then decimal (n / 1000) (n % 1000) 3 ++ "µs"
  else decimal n 0 0 ++ "ns"

end Duration

end DurableWorkflow
