/-
Status codes: 32 bits, of which the top two carry the severity. Some codes have a symbolic name.
-/
import OpcPubSub.Text.Hex

namespace OpcPubSub

structure StatusCode where
  bits : UInt32
deriving DecidableEq, Repr

namespace StatusCode

def good : StatusCode := ⟨0⟩
def uncertain : StatusCode := ⟨0x40000000⟩
def bad : StatusCode := ⟨0x80000000⟩

instance : Inhabited StatusCode := ⟨good⟩

/-- the codes that have a name -/
def known : List (StatusCode × String) :=
  [(good, "Good"),
   (uncertain, "Uncertain"),
   (⟨0x40900000⟩, "UncertainLastUsableValue"),
   (bad, "Bad"),
   (⟨0x80010000⟩, "BadUnexpectedError"),
   (⟨0x80020000⟩, "BadInternalError"),
   (⟨0x80050000⟩, "BadCommunicationError"),
   (⟨0x800A0000⟩, "BadTimeout"),
   (⟨0x80310000⟩, "BadNoCommunication"),
   (⟨0x80320000⟩, "BadWaitingForInitialData"),
   (⟨0x80340000⟩, "BadNodeIdUnknown"),
   (⟨0x808D0000⟩, "BadOutOfService")]

/-- the top two bits -/
def severity (c : StatusCode) : Nat := c.bits.toNat >>> 30

def isGood (c : StatusCode) : Bool := c.severity == 0

def isUncertain (c : StatusCode) : Bool := c.severity == 1

def isBad (c : StatusCode) : Bool := 2 ≤ c.severity

/-- the name of a code that has one -/
def symbol? (c : StatusCode) : Option String := (known.find? fun k => k.1 == c).map Prod.snd

/-- the name, or the eight hexadecimal digits -/
def display (c : StatusCode) : String :=
  match c.symbol? with
  | some name => name
  | none => "0x" ++ String.ofList ((Text.hexDigits 8 c.bits.toNat).map Char.toUpper)

end StatusCode

end OpcPubSub
