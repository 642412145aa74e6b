import FlowDiagram.Calendar.Date
/-! Instants in universal time, to the nanosecond. -/

namespace FlowDiagram.Calendar

/-- A date and a time of day. Nanoseconds beyond a whole second count in a leap second after it,
which any second may have. -/
structure Instant where
  date : Date
  hour : Nat
  minute : Nat
  second : Nat
  nano : Nat
  date_valid : date.IsValid
  hour_lt : hour < 24
  minute_lt : minute < 60
  second_lt : second < 60
  nano_lt : nano < 2000000000
deriving DecidableEq

namespace Instant

/-- Minutes of a day that may lie before or after the date, as a time of the date that they lie
on. They stay within a day of it. -/
def shiftDate (d : Date) (minutes : Int) : Date × Nat :=
  if minutes < 0 then (d.previous, (minutes + 1440).toNat)
  else if 1440 ≤ minutes then (d.next, (minutes - 1440).toNat)
  else (d, minutes.toNat)

/-- The instant at a date and a time of day, if there is one. -/
def at? (date : Date) (minuteOfDay second nano : Nat) : Option Instant :=
  if h : date.IsValid ∧ minuteOfDay < 1440 ∧ second < 60 ∧ nano < 2000000000 then
    some
      { date, hour := minuteOfDay / 60, minute := minuteOfDay % 60, second, nano
        date_valid := h.1
        hour_lt := by omega
        minute_lt := by omega
        second_lt := h.2.2.1
        nano_lt := h.2.2.2 }
  else none

end Instant

end FlowDiagram.Calendar
