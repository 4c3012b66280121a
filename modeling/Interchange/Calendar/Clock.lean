import Interchange.Calendar.Date

/-!
Times of day, read from `hour:minute:second` and written with two digits each. A minute may have a
sixty-first second.
-/

namespace Interchange.Calendar

structure Clock where
  hour : Nat
  minute : Nat
  second : Nat
  deriving DecidableEq, Repr

def Clock.isValid (c : Clock) : Bool := c.hour < 24 && c.minute < 60 && c.second ≤ 60

/-- Reads a time; nothing may follow it. -/
def Clock.read (cs : List Char) : Option Clock := do
  let (hour, cs) ← takeField cs
  let (minute, cs) ← takeField (← takeMark ':' cs)
  let (second, cs) ← takeField (← takeMark ':' cs)
  let clock : Clock := ⟨hour, minute, second⟩
  if cs.isEmpty && clock.isValid then some clock else none

def Clock.text (c : Clock) : String :=
  Decimal.padZeros 2 c.hour ++ ":" ++ Decimal.padZeros 2 c.minute ++ ":" ++
    Decimal.padZeros 2 c.second

end Interchange.Calendar
