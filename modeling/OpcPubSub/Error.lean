/-
Everything that can go wrong, as one type. A failure is a stable code, which metric labels and callers rely on, and a
line of text. Parts of the library that know the cause of a failure keep an inductive type of causes beside their
code and turn a cause into a `Fault` in one place; what comes from outside (a data source, a transport) arrives as
text.
-/

namespace OpcPubSub

/-- stable codes, one per kind of failure -/
inductive Code where
  | writerMisuse
  | duplicateField
  | singleMessageCount
  | invalidValue
  | decode
  | badConfig
  | unsupportedVersion
  | transport
  | internal
deriving DecidableEq, Repr

/-- the code as metric labels and logs show it -/
def Code.label : Code → String
  | .writerMisuse => "WRITER_MISUSE"
  | .duplicateField => "DUPLICATE_FIELD"
  | .singleMessageCount => "SINGLE_MESSAGE_COUNT"
  | .invalidValue => "INVALID_VALUE"
  | .decode => "DECODE"
  | .badConfig => "BAD_CONFIG"
  | .unsupportedVersion => "UNSUPPORTED_VERSION"
  | .transport => "TRANSPORT"
  | .internal => "INTERNAL"

/-- a failure of the encoder, the decoder, the configuration or the publisher -/
inductive Fault where
  /-- the writer was driven against its rules -/
  | writer (text : String)
  /-- a payload, or one object of a document, names this field twice -/
  | duplicateField (name : String)
  /-- single message mode was asked to carry this many messages -/
  | singleMessageCount (count : Nat)
  /-- no document can hold the value -/
  | invalidValue (text : String)
  /-- the text is no document, or not the document that was expected -/
  | decode (text : String)
  | badConfig (text : String)
  | unsupportedVersion
  | transport (text : String)
  | internal (text : String)
deriving DecidableEq, Repr

namespace Fault

def code : Fault → Code
  | .writer _ => .writerMisuse
  | .duplicateField _ => .duplicateField
  | .singleMessageCount _ => .singleMessageCount
  | .invalidValue _ => .invalidValue
  | .decode _ => .decode
  | .badConfig _ => .badConfig
  | .unsupportedVersion => .unsupportedVersion
  | .transport _ => .transport
  | .internal _ => .internal

/-- the line a person reads -/
def message : Fault → String
  | .writer t => "json writer misuse: " ++ t
  | .duplicateField n => "duplicate payload field: " ++ n
  | .singleMessageCount n => s!"single dataset message mode requires at most one message, got {n}"
  | .invalidValue t => "invalid value: " ++ t
  | .decode t => "decode failed: " ++ t
  | .badConfig t => "bad config: " ++ t
  | .unsupportedVersion => "unsupported config version"
  | .transport t => "transport: " ++ t
  | .internal t => "internal: " ++ t

end Fault

end OpcPubSub
