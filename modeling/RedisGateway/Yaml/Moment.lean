import RedisGateway.Text.Numeral

/-!
Dates and points in time as YAML documents write them.
-/

namespace RedisGateway.Yaml

/-- A date, and a time of day with it. -/
structure Moment where
  year : Nat
  month : Nat
  day : Nat
  /-- Hours, minutes and seconds. -/
  time : Option (Nat × Nat × Nat) := none
  /-- The distance of the zone from the universal time in minutes. -/
  zone : Option Int := none
  deriving Repr

namespace Moment

/-- Digits from `least` to `most` of them, and what follows. -/
def digits? (least most : Nat) (cs : List Char) : Option (Nat × List Char) :=
  let ds := (cs.take most).takeWhile Text.isDigit
  if least ≤ ds.length then some (Text.natOfDigits ds, cs.drop ds.length) else none

/-- A mark, and what follows. -/
def mark? (c : Char) : List Char → Option (List Char)
  | d :: cs => if c = d then some cs else none
  | [] => none

def isBlank (c : Char) : Bool := c = ' ' || c = '\t'

/-- A zone: the universal time, or hours and perhaps minutes with a sign. -/
def zone? (cs : List Char) : Option (Option Int) :=
  match cs.dropWhile isBlank with
  | [] => if cs.isEmpty then some none else none
  | ['Z'] => some (some 0)
  | s :: cs =>
    if s = '+' || s = '-' then do
      let (hours, cs) ← digits? 1 2 cs
      let minutes ← match cs with
        | [] => some 0
        | ':' :: cs => match digits? 2 2 cs with
          | some (m, []) => some m
          | _ => none
        | _ => none
      let n : Int := hours * 60 + minutes
      return some (if s = '-' then -n else n)
    else none

/-- The time of day and the zone behind a date. -/
def time? (cs : List Char) : Option ((Nat × Nat × Nat) × Option Int) := do
  let cs ← match cs with
    | 'T' :: cs | 't' :: cs => some cs
    | c :: cs => if isBlank c then some (cs.dropWhile isBlank) else none
    | [] => none
  let (hour, cs) ← digits? 1 2 cs
  let (minute, cs) ← digits? 2 2 (← mark? ':' cs)
  let (second, cs) ← digits? 2 2 (← mark? ':' cs)
  let cs := match cs with
    | '.' :: cs => cs.dropWhile Text.isDigit
    | cs => cs
  return ((hour, minute, second), ← zone? cs)

/-- The moment that a text denotes. -/
def read? (cs : List Char) : Option Moment := do
  let (year, cs) ← digits? 4 4 cs
  let (month, cs) ← digits? 1 2 (← mark? '-' cs)
  let (day, cs) ← digits? 1 2 (← mark? '-' cs)
  match cs with
  | [] => return { year, month, day }
  | cs =>
    let (time, zone) ← time? cs
    return { year, month, day, time := some time, zone }

def isLeap (year : Nat) : Bool := year % 4 = 0 && (year % 100 ≠ 0 || year % 400 = 0)

/-- The number of days of a month. -/
def daysIn (year month : Nat) : Nat :=
  if month = 2 then (if isLeap year then 29 else 28)
  else if [4, 6, 9, 11].contains month then 30 else 31

/-- What is impossible about a moment, if anything. -/
def impossible? (m : Moment) : Option String :=
  let (hour, minute, second) := m.time.getD (0, 0, 0)
  let zone := m.zone.getD 0
  if 1440 ≤ zone.natAbs then
    some ("offset must be a timedelta strictly between -timedelta(hours=24) and " ++
      "timedelta(hours=24), not " ++ (Duration.mk (zone * 60000000)).describe ++ ".")
  else if m.year = 0 then some "year 0 is out of range"
  else if m.month = 0 ∨ 12 < m.month then some "month must be in 1..12"
  else if m.day = 0 ∨ daysIn m.year m.month < m.day then some "day is out of range for month"
  else if 23 < hour then some "hour must be in 0..23"
  else if 59 < minute then some "minute must be in 0..59"
  else if 59 < second then some "second must be in 0..59"
  else none

/-- The moment that a text denotes, as a value. A line feed may end the text. -/
def value (cs : List Char) : Except Fault Value :=
  match read? (if cs.getLast? = some '\n' then cs.dropLast else cs) with
  | none => .error .notAMoment
  | some m => match m.impossible? with
    | some reason => .error (.badMoment reason)
    | none => .ok (.moment (String.ofList cs))

end Moment
end RedisGateway.Yaml
