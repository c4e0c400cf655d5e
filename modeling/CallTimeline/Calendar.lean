namespace CallTimeline

structure Date where
  year : Nat
  month : Nat
  day : Nat
deriving Repr, DecidableEq

namespace Date

def isLeap (year : Nat) : Bool :=
  year % 4 == 0 && (year % 100 != 0 || year % 400 == 0)

def yearLength (year : Nat) : Nat :=
  if isLeap year then 366 else 365

def monthLengths (year : Nat) : List Nat :=
  [31, if isLeap year then 29 else 28, 31, 30, 31, 30, 31, 31, 30, 31, 30, 31]

/-- The month and the day in it of the day that is `days` days after the beginning of `month`. -/
def inMonths (month days : Nat) : List Nat → Nat × Nat
  | [] => (month, days + 1)
  | length :: rest =>
    if days < length then (month, days + 1) else inMonths (month + 1) (days - length) rest

theorem yearLength_pos (year : Nat) : 0 < yearLength year := by
  unfold yearLength
  split <;> omega

def after (year days : Nat) : Date :=
  if days < yearLength year then
    let (month, day) := inMonths 1 days (monthLengths year)
    { year, month, day }
  else after (year + 1) (days - yearLength year)
termination_by days
decreasing_by
  have := yearLength_pos year
  omega

end Date

structure Moment where
  seconds : Nat

namespace Moment

def secondsPerDay : Nat := 86400

def date (moment : Moment) : Date :=
  Date.after 1970 (moment.seconds / secondsPerDay)

def clock (moment : Moment) : List String :=
  let second := moment.seconds % secondsPerDay
  [second / 3600, second / 60 % 60, second % 60].map twoDigits
where
  twoDigits (n : Nat) : String := (if n < 10 then "0" else "") ++ toString n

def calendar (moment : Moment) : List String :=
  toString moment.date.year :: [moment.date.month, moment.date.day].map clock.twoDigits

def text (moment : Moment) : String :=
  "-".intercalate moment.calendar ++ "T" ++ ":".intercalate moment.clock ++ "+0000"

def stamp (moment : Moment) : String :=
  String.join moment.calendar ++ "_" ++ String.join moment.clock

end Moment

end CallTimeline
