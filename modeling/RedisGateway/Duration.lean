import RedisGateway.Number.Shortest

/-!
Spans of time in whole microseconds, positive or negative.
-/

namespace RedisGateway

/-- A span of time. -/
structure Duration where
  microseconds : Int
  deriving DecidableEq, Repr, Inhabited

namespace Duration

/-- A span is at most this many days long, give or take a part of a day. -/
def maxDays : Int := 999999999

def ofMilliseconds (n : Int) : Duration := ⟨n * 1000⟩

/-- Whole days, rounded down. -/
def days (d : Duration) : Int := d.microseconds.fdiv 86400000000

/-- Whole seconds past the days. -/
def seconds (d : Duration) : Int := (d.microseconds.fmod 86400000000).fdiv 1000000

/-- Microseconds past the seconds. -/
def fraction (d : Duration) : Int := d.microseconds.fmod 1000000

/-- A span within the limit on days. -/
def inRange (d : Duration) : Bool := -maxDays ≤ d.days && d.days ≤ maxDays

/-- A span of so many microseconds, if spans can be that long. -/
def ofMicroseconds? (n : Int) : Option Duration :=
  if (Duration.mk n).inRange then some ⟨n⟩ else none

/-- The length in seconds, rounded to the nearest binary64 value. -/
def totalSeconds (d : Duration) : Binary64 :=
  .ofRatio (d.microseconds < 0) d.microseconds.natAbs 1000000

/-- The constructor call that makes the span, with its parts that are not zero. -/
def describe (d : Duration) : String :=
  let part (name : String) (n : Int) : List String :=
    if n = 0 then [] else [name ++ "=" ++ toString n]
  match part "days" d.days ++ part "seconds" d.seconds ++ part "microseconds" d.fraction with
  | [] => "datetime.timedelta(0)"
  | ps => "datetime.timedelta(" ++ ", ".intercalate ps ++ ")"

/-- Days, hours, minutes and seconds as a clock shows them. -/
def clock (d : Duration) : String :=
  let two (n : Int) : String := Binary64.padLeft 2 (toString n)
  let days := if d.days = 0 then ""
    else toString d.days ++ (if d.days.natAbs = 1 then " day, " else " days, ")
  let fraction := if d.fraction = 0 then "" else "." ++ Binary64.padLeft 6 (toString d.fraction)
  days ++ toString (d.seconds.fdiv 3600) ++ ":" ++ two ((d.seconds.fdiv 60).fmod 60) ++ ":" ++
    two (d.seconds.fmod 60) ++ fraction

end Duration
end RedisGateway
