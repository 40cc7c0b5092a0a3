/-
Families of series. A family has a value for each label set that was ever touched, in the order of first touch; a
label set never touched counts as zero. Counters count modulo 2^64, gauges in signed 64-bit words, and histograms keep
the number and the sum of durations in microseconds and, for each of eight bounds, how many did not exceed it.
-/
import OpcPubSub.Metrics.Labels
import OpcPubSub.Text.Decimal

namespace OpcPubSub.Metrics

structure Family (α : Type) where
  series : List (LabelSet × α) := []
deriving DecidableEq

/-- the series with the value for `key` changed, starting from `zero` if there is none -/
def modifySeries {α : Type} (key : LabelSet) (zero : α) (f : α → α) : List (LabelSet × α) → List (LabelSet × α)
  | [] => [(key, f zero)]
  | (k, v) :: rest => if k = key then (k, f v) :: rest else (k, v) :: modifySeries key zero f rest

namespace Family

variable {α : Type}

def modify (family : Family α) (labels : List Label) (zero : α) (f : α → α) : Family α :=
  ⟨modifySeries (.ofList labels) zero f family.series⟩

def get? (family : Family α) (labels : List Label) : Option α := family.series.lookup (.ofList labels)

/-- one sample line -/
def sample (name labels value : String) : String := name ++ "\x7b" ++ labels ++ "\x7d " ++ value

end Family

/-! ### Counters -/

abbrev Counter := Family UInt64

namespace Counter

def add (c : Counter) (labels : List Label) (n : UInt64) : Counter := Family.modify c labels 0 (· + n)

def inc (c : Counter) (labels : List Label) : Counter := add c labels 1

def get (c : Counter) (labels : List Label) : UInt64 := (Family.get? c labels).getD 0

def lines (c : Counter) (name : String) : List String :=
  ("# TYPE " ++ name ++ " counter") ::
    c.series.map fun (labels, n) => Family.sample name labels.text (Text.decimal n.toNat)

end Counter

/-! ### Gauges -/

abbrev Gauge := Family Int64

namespace Gauge

def add (g : Gauge) (labels : List Label) (n : Int64) : Gauge := Family.modify g labels 0 (· + n)

def inc (g : Gauge) (labels : List Label) : Gauge := add g labels 1

def dec (g : Gauge) (labels : List Label) : Gauge := add g labels (-1)

def get (g : Gauge) (labels : List Label) : Int64 := (Family.get? g labels).getD 0

def lines (g : Gauge) (name : String) : List String :=
  ("# TYPE " ++ name ++ " gauge") ::
    g.series.map fun (labels, n) => Family.sample name labels.text (Text.decimal n.toInt)

end Gauge

/-! ### Histograms -/

/-- a length of time -/
structure Duration where
  nanos : Nat
deriving DecidableEq, Repr

/-- whole microseconds, as many as 64 bits hold -/
def Duration.micros (d : Duration) : UInt64 := UInt64.ofNat (min (d.nanos / 1000) (UInt64.size - 1))

/-- the durations of one series -/
structure Distribution where
  count : UInt64 := 0
  sum : UInt64 := 0
  /-- how many were at most each bound, and the bound -/
  buckets : List (UInt64 × UInt64)
deriving DecidableEq, Repr

/-- the bounds of the buckets, in microseconds -/
def bounds : List UInt64 := [10, 50, 100, 500, 1000, 5000, 10000, 100000]

namespace Distribution

def empty : Distribution := { buckets := bounds.map ((0, ·)) }

def observe (d : Distribution) (micros : UInt64) : Distribution where
  count := d.count + 1
  sum := d.sum + micros
  buckets := d.buckets.map fun (n, bound) => (if micros ≤ bound then n + 1 else n, bound)

/-- the sample lines of a series -/
def lines (d : Distribution) (name : String) (labels : LabelSet) : List String :=
  let text := labels.text
  let before := if text.isEmpty then "" else text ++ ","
  let bucket (bound : String) (n : UInt64) : String :=
    Family.sample (name ++ "_bucket") (before ++ "le=\"" ++ bound ++ "\"") (Text.decimal n.toNat)
  d.buckets.map (fun (n, bound) => bucket (Text.decimal bound.toNat) n) ++
    [bucket "+Inf" d.count,
     Family.sample (name ++ "_sum") text (Text.decimal d.sum.toNat),
     Family.sample (name ++ "_count") text (Text.decimal d.count.toNat)]

end Distribution

abbrev Histogram := Family Distribution

namespace Histogram

def observe (h : Histogram) (labels : List Label) (d : Duration) : Histogram :=
  Family.modify h labels .empty fun cell => cell.observe d.micros

def count (h : Histogram) (labels : List Label) : UInt64 := ((Family.get? h labels).map Distribution.count).getD 0

def lines (h : Histogram) (name : String) : List String :=
  ("# TYPE " ++ name ++ " histogram") :: h.series.flatMap fun (labels, d) => d.lines name labels

end Histogram

end OpcPubSub.Metrics
