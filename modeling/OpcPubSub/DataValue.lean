/-
Data values: a variant with the attributes a publisher captured beside it. An attribute that is absent is not
written.
-/
import OpcPubSub.Variant

namespace OpcPubSub

structure DataValue where
  value : Variant
  status : Option StatusCode := none
  sourceTimestamp : Option DateTime := none
  sourcePicoseconds : Option UInt16 := none
  serverTimestamp : Option DateTime := none
  serverPicoseconds : Option UInt16 := none

namespace DataValue

/-- a value without attributes -/
def plain (v : Variant) : DataValue := { value := v }

/-- the same value with the same attributes -/
def same (a b : DataValue) : Bool :=
  a.value.same b.value && a.status = b.status && a.sourceTimestamp = b.sourceTimestamp &&
    a.sourcePicoseconds = b.sourcePicoseconds && a.serverTimestamp = b.serverTimestamp &&
    a.serverPicoseconds = b.serverPicoseconds

end DataValue

/-- the version of a dataset's metadata -/
structure ConfigurationVersion where
  major : UInt32 := 0
  minor : UInt32 := 0
deriving DecidableEq, Repr

end OpcPubSub
