/-
Instants in UTC as seconds since 1970-01-01T00:00:00Z and nanoseconds, and their RFC 3339 text.

Written are four-digit years with a fraction of no, three, six or nine digits, the fewest that are exact, and `Z`.
Read are four-digit years, `T`, `t` or a space before the time, any fraction (digits after the ninth are dropped), and
`Z`, `z` or an offset below 24 hours whose sign may be the minus sign U+2212. Second 60 is a leap second: it is kept
as second 59 with a thousand million nanoseconds more.
-/
import OpcPubSub.Text.Decimal
import OpcPubSub.Time.Calendar

namespace OpcPubSub.Time

/-- an instant; `nanos` is a thousand million or more only inside a leap second -/
structure Instant where
  seconds : Int
  nanos : Nat
deriving DecidableEq, Repr

/-- the years that have instants -/
def firstYear : Int := -262143

def lastYear : Int := 262142

/-- the instant of so many seconds and nanoseconds; a thousand million nanoseconds or more only in the last second of a
minute, where a leap second may be -/
def Instant.ofUnix? (seconds : Int) (nanos : Nat) : Option Instant :=
  let year := (Date.ofDays (seconds / 86400 + epochDays)).year
  if firstYear ≤ year ∧ year ≤ lastYear ∧ (nanos < 1000000000 ∨ nanos < 2000000000 ∧ seconds % 60 = 59) then
    some ⟨seconds, nanos⟩
  else none

/-- the fraction of a second with the fewest groups of three digits -/
def fractionText (nanos : Nat) : List Char :=
  if nanos = 0 then []
  else if nanos % 1000000 = 0 then '.' :: Text.padded 3 (nanos / 1000000)
  else if nanos % 1000 = 0 then '.' :: Text.padded 6 (nanos / 1000)
  else '.' :: Text.padded 9 nanos

/-- the text of an instant in a year from 0 to 9999 -/
def Instant.text (t : Instant) : List Char :=
  let date := Date.ofDays (t.seconds / 86400 + epochDays)
  let second := (t.seconds % 86400).toNat
  Text.padded 4 date.year.toNat ++ '-' :: Text.padded 2 date.month ++ '-' :: Text.padded 2 date.day ++
    'T' :: Text.padded 2 (second / 3600) ++ ':' :: Text.padded 2 (second / 60 % 60) ++
    ':' :: Text.padded 2 (second % 60) ++ fractionText t.nanos ++ ['Z']

/-- the text after an expected character -/
def dropChar (c : Char) : List Char → Option (List Char)
  | d :: cs => if c = d then some cs else none
  | [] => none

/-- a fraction of a second in nanoseconds; none written is zero -/
def readFraction : List Char → Option (Nat × List Char)
  | '.' :: cs =>
    let ds := cs.takeWhile Char.isDigit
    if ds.isEmpty then none
    else
      match Text.takeDigits 9 0 (ds.take 9 ++ List.replicate (9 - ds.length) '0') with
      | some (n, _) => some (n, cs.dropWhile Char.isDigit)
      | none => none
  | cs => some (0, cs)

/-- hours and minutes of an offset, in seconds -/
def readOffsetDigits (cs : List Char) : Option (Int × List Char) := do
  let (hours, cs) ← Text.takeDigits 2 0 cs
  let cs ← dropChar ':' cs
  let (minutes, cs) ← Text.takeDigits 2 0 cs
  if hours < 24 ∧ minutes < 60 then some ((hours * 3600 + minutes * 60 : Nat), cs) else none

/-- the offset of a local time from UTC, in seconds -/
def readOffset : List Char → Option (Int × List Char)
  | 'Z' :: cs => some (0, cs)
  | 'z' :: cs => some (0, cs)
  | '+' :: cs => readOffsetDigits cs
  | '-' :: cs => (readOffsetDigits cs).map fun (n, cs) => (-n, cs)
  | '\u2212' :: cs => (readOffsetDigits cs).map fun (n, cs) => (-n, cs)
  | _ => none

/-- the three two-digit numbers of a clock time -/
def readClock (cs : List Char) : Option ((Nat × Nat × Nat) × List Char) := do
  let (hour, cs) ← Text.takeDigits 2 0 cs
  let cs ← dropChar ':' cs
  let (minute, cs) ← Text.takeDigits 2 0 cs
  let cs ← dropChar ':' cs
  let (second, cs) ← Text.takeDigits 2 0 cs
  if hour < 24 ∧ minute < 60 ∧ second ≤ 60 then some ((hour, minute, second), cs) else none

/-- a date of the calendar -/
def readDate (cs : List Char) : Option (Date × List Char) := do
  let (year, cs) ← Text.takeDigits 4 0 cs
  let cs ← dropChar '-' cs
  let (month, cs) ← Text.takeDigits 2 0 cs
  let cs ← dropChar '-' cs
  let (day, cs) ← Text.takeDigits 2 0 cs
  let date : Date := ⟨year, month, day⟩
  if date.valid then some (date, cs) else none

/-- the character between date and time -/
def dropSeparator : List Char → Option (List Char)
  | c :: cs => if c = 'T' ∨ c = 't' ∨ c = ' ' then some cs else none
  | [] => none

/-- a whole text as an instant -/
def Instant.ofText? (cs : List Char) : Option Instant := do
  let (date, cs) ← readDate cs
  let cs ← dropSeparator cs
  let ((hour, minute, second), cs) ← readClock cs
  let (nanos, cs) ← readFraction cs
  let (offset, cs) ← readOffset cs
  if cs.isEmpty then
    let leap := second = 60
    let clock := hour * 3600 + minute * 60 + (if leap then 59 else second)
    some ⟨(date.toDays - epochDays) * 86400 + clock - offset, if leap then nanos + 1000000000 else nanos⟩
  else none

end OpcPubSub.Time
