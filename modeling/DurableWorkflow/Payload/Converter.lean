import DurableWorkflow.Failure
import DurableWorkflow.Json.Reader
import DurableWorkflow.Payload.Data
import DurableWorkflow.Payload.Type

/-!
# Payload converters

A converter turns documents into the payload texts that histories store, and back. Which one is
used is up to the host; workflow code meets it only through `Converter.encode` and
`Converter.decode`, and a refusal of either becomes a failure of the workflow.

## Main definitions

* `Converter` — a pair of partial functions between documents and payloads.
* `Converter.json`, `Converter.versioned`, `Converter.picky` — the converters at hand.
* `Converter.encode`, `Converter.decode`, `Converter.decodeAs` — conversion at a payload type.
-/

namespace DurableWorkflow

/-- A conversion was refused. -/
inductive ConversionError where
  /-- A value has no payload. -/
  | encode (message : String)
  /-- A payload has no value. -/
  | decode (message : String)
  deriving DecidableEq, Inhabited

namespace ConversionError

/-- The wording of a refusal. -/
def message : ConversionError → String
  | .encode m => "encode: " ++ m
  | .decode m => "decode: " ++ m

/-- The failure that a refusal means for a workflow. -/
def toFailure (error : ConversionError) : Failure :=
  .dataConversion error.message

end ConversionError

/-- Functions between documents in normal form and payloads, either of which may refuse. -/
structure Converter where
  /-- The payload of a document. -/
  toPayload : Json → Except ConversionError String
  /-- The document of a payload. -/
  ofPayload : String → Except ConversionError Json

namespace Converter

/-- Payloads are JSON texts, and the empty payload means null. -/
def json : Converter where
  toPayload document := .ok document.text
  ofPayload payload :=
    if payload.isEmpty then .ok .null else (Json.read payload).mapError .decode

/-- The mark in front of versioned payloads. -/
def versionMark : String :=
  "v1:"

/-- Payloads are JSON texts behind a version mark. -/
def versioned : Converter where
  toPayload document := (json.toPayload document).map (versionMark ++ ·)
  ofPayload payload :=
    if versionMark.toList.isPrefixOf payload.toList then
      json.ofPayload (String.ofList (payload.toList.drop versionMark.length))
    else .error (.decode ("missing " ++ versionMark ++ " prefix"))

/-- Payloads are JSON texts, but no text value is accepted. -/
def picky : Converter where
  toPayload document :=
    match document with
    | .string s => .error (.encode ("string " ++ s ++ " refused"))
    | document => json.toPayload document
  ofPayload := json.ofPayload

/-- The payload of a document, which is put into normal form first. -/
def encode (converter : Converter) (document : Json) : Except ConversionError String :=
  converter.toPayload document.normalize

/-- The payload of a structured value. -/
def encodeData (converter : Converter) (value : Data) : Except ConversionError String := do
  let document ← value.toJson.mapError fun fault => .encode fault.message
  converter.encode document

/-- The payload of a value of a payload type. -/
def encodeAs (converter : Converter) (t : PayloadType) (value : t.Value) :
    Except ConversionError String :=
  converter.encode (t.toJson value)

/-- The value of a payload at a type. -/
def decodeAs (converter : Converter) (t : PayloadType) (payload : String) :
    Except ConversionError t.Value := do
  let document ← converter.ofPayload payload
  (t.ofJson document).mapError fun mismatch => .decode mismatch.message

/-- The document of a payload at a type: the value it denotes there, written out again. -/
def decode (converter : Converter) (t : PayloadType) (payload : String) :
    Except ConversionError Json :=
  (converter.decodeAs t payload).map t.toJson

end Converter

end DurableWorkflow
