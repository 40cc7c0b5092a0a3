/-
The proleptic Gregorian calendar. Days are counted from 0000-03-01, so that the leap day is the last of its year: a
year then is twelve months of 31, 30, 31, 30, 31 days over and over, cut off at its end. Four hundred years have
146097 days, a hundred years 36524 but for the last of four hundred, four years 1461 but for the last of a hundred.
-/

namespace OpcPubSub.Time

/-- a day of the calendar -/
structure Date where
  year : Int
  month : Nat
  day : Nat
deriving DecidableEq, Repr

def isLeap (year : Int) : Bool := year % 4 = 0 && (year % 100 ≠ 0 || year % 400 = 0)

def daysInMonth (year : Int) (month : Nat) : Nat :=
  if month = 2 then (if isLeap year then 29 else 28)
  else if month = 4 ∨ month = 6 ∨ month = 9 ∨ month = 11 then 30
  else 31

/-- the date is in the calendar -/
def Date.valid (d : Date) : Bool := 1 ≤ d.month && d.month ≤ 12 && 1 ≤ d.day && d.day ≤ daysInMonth d.year d.month

/-- days from 0000-03-01 to a date -/
def Date.toDays (d : Date) : Int :=
  let year := if d.month ≤ 2 then d.year - 1 else d.year
  let month := if d.month ≤ 2 then d.month + 9 else d.month - 3
  let era := year / 400
  let y := year % 400
  era * 146097 + y * 365 + y / 4 - y / 100 + ((153 * month + 2) / 5 : Nat) + d.day - 1

/-- the date that many days after 0000-03-01 -/
def Date.ofDays (n : Int) : Date :=
  let era := n / 146097
  let rest := (n % 146097).toNat
  let century := min (rest / 36524) 3
  let rest := rest - century * 36524
  let quad := rest / 1461
  let rest := rest - quad * 1461
  let single := min (rest / 365) 3
  let dayOfYear := rest - single * 365
  let year : Int := era * 400 + (century * 100 + quad * 4 + single : Nat)
  let m := (5 * dayOfYear + 2) / 153
  let day := dayOfYear - (153 * m + 2) / 5 + 1
  if m < 10 then ⟨year, m + 3, day⟩ else ⟨year + 1, m - 9, day⟩

/-- days from 0000-03-01 to 1970-01-01 -/
def epochDays : Int := 719468

end OpcPubSub.Time
