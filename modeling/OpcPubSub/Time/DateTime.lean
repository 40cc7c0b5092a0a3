/-
Timestamps: ticks of 100 nanoseconds since 1601-01-01T00:00:00Z, from zero to the end of year 9999. The two ends are
sentinels without an instant of their own: the least is written `0001-01-01T00:00:00Z`, the greatest
`9999-12-31T23:59:59Z`, and what lies outside is moved to the nearer end.

Ticks are computed in 64-bit words, as counters that exchange them do; an instant too far away for that goes to the
end on its side.
-/
import OpcPubSub.Error
import OpcPubSub.Text.Quoted
import OpcPubSub.Time.Instant

namespace OpcPubSub

namespace Time

def ticksPerSecond : Int := 10000000

/-- seconds from 1601-01-01 to 1970-01-01 -/
def epochSeconds : Int := 11644473600

/-- ticks from 1601-01-01 to 1970-01-01 -/
def epochTicks : Int := epochSeconds * ticksPerSecond

/-- ticks from 1601-01-01 to 9999-12-31T23:59:59Z -/
def maxTicks : Int := (253402300799 + epochSeconds) * ticksPerSecond

/-- the number, if a signed 64-bit word holds it -/
def word? (n : Int) : Option Int := if -9223372036854775808 ≤ n ∧ n ≤ 9223372036854775807 then some n else none

end Time

open Time

structure DateTime where
  ticks : Int
  nonneg : 0 ≤ ticks := by decide
  le_max : ticks ≤ maxTicks := by decide
deriving DecidableEq

namespace DateTime

/-- the least timestamp, a sentinel -/
def min : DateTime := { ticks := 0 }

/-- the greatest timestamp, a sentinel -/
def max : DateTime := { ticks := maxTicks }

instance : Inhabited DateTime := ⟨min⟩

/-- the timestamp of so many ticks, or the nearer end -/
def ofTicks (n : Int) : DateTime :=
  if h : n < 0 then min else if h' : maxTicks < n then max else ⟨n, by omega, by omega⟩

def isMin (t : DateTime) : Bool := t.ticks == 0

/-- the timestamp of an instant, fractions of a tick dropped -/
def ofInstant (t : Instant) : DateTime :=
  let ticks := (word? (t.seconds * ticksPerSecond)).bind fun n =>
    (word? (n + epochTicks)).bind fun n => word? (n + (t.nanos / 100 : Nat))
  match ticks with
  | some n => ofTicks n
  | none => if t.seconds < 0 then min else max

/-- the instant of a timestamp; the sentinels have none -/
def instant? (t : DateTime) : Option Instant :=
  if t.ticks ≤ 0 ∨ maxTicks ≤ t.ticks then none
  else
    let n := t.ticks - epochTicks
    Instant.ofUnix? (n / ticksPerSecond) (n % ticksPerSecond * 100).toNat

def minText : String := "0001-01-01T00:00:00Z"

def maxText : String := "9999-12-31T23:59:59Z"

def text (t : DateTime) : String :=
  if maxTicks ≤ t.ticks then maxText
  else
    match t.instant? with
    | some i => String.ofList i.text
    | none => minText

/-- read a timestamp; the texts of the sentinels come first -/
def ofText (s : String) : Except Fault DateTime :=
  if s = minText then .ok min
  else if s = maxText then .ok max
  else
    match Instant.ofText? s.toList with
    | some i => .ok (ofInstant i)
    | none => .error (.decode ("invalid timestamp " ++ Text.quoted s))

end DateTime

end OpcPubSub
