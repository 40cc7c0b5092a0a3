/-
Why a document is not what a reader expected. What was found instead is quoted as compact JSON.
-/
import OpcPubSub.Json.Render
import OpcPubSub.Text.Quoted
import OpcPubSub.Variant

namespace OpcPubSub.Decoding

inductive Cause where
  | expectedObject (what : String) (got : Json)
  | expectedString (what : String) (got : Json)
  | expectedUnsigned (what : String) (got : Json)
  | expectedTimestamp (got : Json)
  | expectedBody (type : ScalarType) (got : Json)
  | expectedInteger (kind : IntKind) (got : Json)
  | expectedMessages (got : Json)
  | outOfRange (kind : IntKind) (got : Json)
  | badGuid (text : String)
  | badBase64
  /-- a reversible variant whose type id is no unsigned integer -/
  | noTypeId
  | unknownTypeId (id : Nat)
  /-- a bare array without items -/
  | emptyArray
  | structuredBare
  /-- a bare array whose items are no array of scalars -/
  | notArray (fault : Variant.ArrayFault)
  | missing (name : String)
  | missingPayload
  | badWriterId (text : String)
  | unknownFrameKind (text : String)
  | unknownMessageType (text : String)
  | badClassId (text : String)
  /-- what is wrong with one payload field -/
  | field (name : String) (fault : Fault)

namespace Cause

def message : Cause → String
  | expectedObject what got => what ++ ": expected JSON object, got " ++ got.render
  | expectedString what got => what ++ ": expected string, got " ++ got.render
  | expectedUnsigned what got => what ++ ": expected unsigned integer, got " ++ got.render
  | expectedTimestamp got => "expected timestamp string, got " ++ got.render
  | expectedBody type got => "expected " ++ type.name ++ " body, got " ++ got.render
  | expectedInteger kind got => "expected integer for " ++ kind.name ++ ", got " ++ got.render
  | expectedMessages got => "expected array of dataset messages, got " ++ got.render
  | outOfRange kind got => got.render ++ " out of range for " ++ kind.name
  | badGuid text => "bad guid " ++ Text.quoted text
  | badBase64 => "bad base64"
  | noTypeId => "reversible variant without numeric Type"
  | unknownTypeId id => s!"unsupported variant type id {id}"
  | emptyArray => "cannot infer the element type of an empty bare array"
  | structuredBare => "structured bare values are not supported"
  | notArray fault => fault.fault.message
  | missing name => "missing " ++ name
  | missingPayload => "dataset message without Payload"
  | badWriterId text => "DataSetWriterId " ++ Text.quoted text ++ " is not a u16"
  | unknownFrameKind text => "unknown dataset MessageType " ++ Text.quoted text
  | unknownMessageType text => "unsupported MessageType " ++ Text.quoted text
  | badClassId text => "DataSetClassId " ++ Text.quoted text
  | field name fault => "field " ++ Text.quoted name ++ ": " ++ fault.message

def fault (c : Cause) : Fault := .decode c.message

end Cause

end OpcPubSub.Decoding
