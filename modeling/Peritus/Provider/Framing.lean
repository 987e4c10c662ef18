import Peritus.LineStream

/-!
Incremental framing of provider streams: server-sent events and records of
newline-delimited JSON.
-/

namespace Peritus.Provider.Framing

open Checked LineStream

/-- `usize::MAX`, on a platform of 64 bits. -/
abbrev usizeMax : Nat := 2 ^ 64 - 1

inductive ProviderCoreErrorKind
  | limitExceeded
  | malformedStream
deriving DecidableEq

structure ProviderCoreError where
  kind : ProviderCoreErrorKind
  operation : String
  detail : String
deriving DecidableEq

def framingError (kind : ProviderCoreErrorKind) (detail : String) :
    ProviderCoreError :=
  ⟨kind, "framing", detail⟩

def malformed (detail : String) : ProviderCoreError :=
  framingError .malformedStream detail

def limit (detail : String) : ProviderCoreError :=
  framingError .limitExceeded detail

/-! ### Limits -/

def productionMaxFrameBytes : Nat := 8 * 1024 * 1024

def productionMaxBufferBytes : Nat := 16 * 1024 * 1024

structure FramingLimits where
  maxFrameBytes : Nat
  maxBufferBytes : Nat
  consistent : ¬ (maxFrameBytes = 0 ∨ maxBufferBytes = 0 ∨
    maxFrameBytes > productionMaxFrameBytes ∨
    maxBufferBytes > productionMaxBufferBytes ∨ maxFrameBytes > maxBufferBytes)
deriving DecidableEq

/-! ### What both parsers do with bytes -/

abbrev lineFeed : UInt8 := 10

abbrev carriageReturn : UInt8 := 13

def stripCarriageReturn (line : List UInt8) : List UInt8 :=
  if line.getLast? = some carriageReturn then line.dropLast else line

def fromUtf8 (bytes : List UInt8) : Option String :=
  String.fromUTF8? ⟨bytes.toArray⟩

/-- The check on the bytes kept and those added. -/
def reserve (limits : FramingLimits) (combined : Nat) :
    Except ProviderCoreError Unit := do
  ensure (decide (combined ≤ usizeMax))
    (limit "framing buffer length overflowed")
  ensure (decide (combined ≤ limits.maxBufferBytes))
    (limit "framing buffer exceeds its byte bound")

/-- A carriage return at the end may belong to the line's end. -/
def unterminatedTooLong (limits : FramingLimits) (pending : List UInt8) : Bool :=
  decide (limits.maxFrameBytes < (stripCarriageReturn pending).length)

/-- The rules of a parser, but for what it does with a line and at the end. -/
def rulesOf {σ ω : Type} (limits : FramingLimits) (tooLongDetail : String)
    (process : σ → List UInt8 → Except ProviderCoreError (σ × List ω))
    (close : σ → Except ProviderCoreError (List ω)) :
    Rules UInt8 σ ω ProviderCoreError where
  separator := lineFeed
  process state line := process state (stripCarriageReturn line)
  close
  reserve := reserve limits
  tooLong := unterminatedTooLong limits
  tooLongError := limit tooLongDetail
  pushedError := malformed "cannot add bytes after framing is finished"
  finishedError := malformed "framing was already finished"

/-! ### Server-sent events -/

structure SseFrame where
  event : Option String
  data : String
  id : Option String
deriving DecidableEq

inductive SseItem
  | event (frame : SseFrame)
  | comment (text : String)
  | done
deriving DecidableEq

/-- The fields of the frame being read. -/
structure SseFields where
  event : Option String
  dataLines : List String
  id : Option String
  frameBytes : Nat
deriving DecidableEq

def resetFrame : SseFields := ⟨none, [], none, 0⟩

def addFrameBytes (limits : FramingLimits) (fields : SseFields) (bytes : Nat) :
    Except ProviderCoreError SseFields := do
  ensure (decide (fields.frameBytes + bytes ≤ usizeMax))
    (limit "SSE frame byte count overflowed")
  ensure (decide (fields.frameBytes + bytes ≤ limits.maxFrameBytes))
    (limit "SSE frame exceeds its byte bound")
  return { fields with frameBytes := fields.frameBytes + bytes }

/-- The bytes of the data lines, one more for each. -/
def dataBytes : Nat → List String → Except ProviderCoreError Nat
  | total, [] => .ok total
  | total, line :: rest => do
      ensure (decide (total + line.utf8ByteSize + 1 ≤ usizeMax))
        (limit "SSE data length overflowed")
      dataBytes (total + line.utf8ByteSize + 1) rest

def frameItem (event : Option String) (lines : List String) (id : Option String) :
    SseItem :=
  let data := "\n".intercalate lines
  if data = "[DONE]" then .done else .event ⟨event, data, id⟩

def dispatch (limits : FramingLimits) (fields : SseFields) :
    Except ProviderCoreError (SseFields × List SseItem) :=
  if fields.dataLines = [] then .ok (resetFrame, [])
  else do
    let bytes ← dataBytes 0 fields.dataLines
    ensure (decide (bytes - 1 ≤ limits.maxFrameBytes))
      (limit "SSE data exceeds its frame byte bound")
    return (resetFrame, [frameItem fields.event fields.dataLines fields.id])

def stripSpace : List Char → List Char
  | ' ' :: rest => rest
  | text => text

/-- The field's name and value; a line without a colon is a name. -/
def splitField (line : List Char) : String × String :=
  match line.findIdx? (fun char => decide (char = ':')) with
  | none => (String.ofList line, "")
  | some position =>
      (String.ofList (line.take position),
        String.ofList (stripSpace (line.drop (position + 1))))

def addField (fields : SseFields) (field value : String) : SseFields :=
  if field = "event" then { fields with event := some value }
  else if field = "data" then
    { fields with dataLines := fields.dataLines ++ [value] }
  else if field = "id" ∧ '\x00' ∉ value.toList then
    { fields with id := some value }
  else fields

def processLine (limits : FramingLimits) (fields : SseFields)
    (line : List UInt8) : Except ProviderCoreError (SseFields × List SseItem) :=
  match fromUtf8 line with
  | none => .error (malformed "SSE line is not valid UTF-8")
  | some text =>
      match text.toList with
      | [] => dispatch limits fields
      | ':' :: comment => do
          ensure (decide (line.length ≤ limits.maxFrameBytes))
            (limit "SSE comment exceeds its frame byte bound")
          return (fields, [.comment (String.ofList (stripSpace comment))])
      | chars => do
          let counted ← addFrameBytes limits fields line.length
          let (field, value) := splitField chars
          return (addField counted field value, [])

def sseRules (limits : FramingLimits) :
    Rules UInt8 SseFields SseItem ProviderCoreError :=
  rulesOf limits "unterminated SSE line exceeds the frame byte bound"
    (processLine limits) fun fields => do
      let (_, items) ← dispatch limits fields
      return items

structure SseParser where
  limits : FramingLimits
  parser : Parser UInt8 SseFields

namespace SseParser

def new (limits : FramingLimits) : SseParser := ⟨limits, resetFrame, [], false⟩

def push (parser : SseParser) (chunk : List UInt8) :
    Except ProviderCoreError (SseParser × List SseItem) := do
  let (next, items) ← (sseRules parser.limits).push parser.parser chunk
  return (⟨parser.limits, next⟩, items)

def finish (parser : SseParser) :
    Except ProviderCoreError (SseParser × List SseItem) := do
  let (next, items) ← (sseRules parser.limits).finish parser.parser
  return (⟨parser.limits, next⟩, items)

/-- The items of a stream pushed in chunks and finished. -/
def run (parser : SseParser) :
    List (List UInt8) → Except ProviderCoreError (List SseItem)
  | [] => do
      let (_, items) ← parser.finish
      return items
  | chunk :: rest => do
      let (next, items) ← parser.push chunk
      let more ← run next rest
      return items ++ more

end SseParser

/-! ### Newline-delimited JSON -/

structure NdjsonFrame where
  record : String
deriving DecidableEq

def parseLine (limits : FramingLimits) (line : List UInt8) :
    Except ProviderCoreError (Option NdjsonFrame) :=
  if line = [] then .ok none
  else do
    ensure (decide (line.length ≤ limits.maxFrameBytes))
      (limit "NDJSON record exceeds its frame byte bound")
    match fromUtf8 line with
    | none => .error (malformed "NDJSON record is not valid UTF-8")
    | some text => .ok (some ⟨text⟩)

def ndjsonRules (limits : FramingLimits) :
    Rules UInt8 Unit NdjsonFrame ProviderCoreError :=
  rulesOf limits "unterminated NDJSON record exceeds the frame byte bound"
    (fun _ line => do
      let frame ← parseLine limits line
      return ((), frame.toList))
    fun _ => .ok []

structure NdjsonParser where
  limits : FramingLimits
  parser : Parser UInt8 Unit

namespace NdjsonParser

def new (limits : FramingLimits) : NdjsonParser := ⟨limits, (), [], false⟩

def push (parser : NdjsonParser) (chunk : List UInt8) :
    Except ProviderCoreError (NdjsonParser × List NdjsonFrame) := do
  let (next, frames) ← (ndjsonRules parser.limits).push parser.parser chunk
  return (⟨parser.limits, next⟩, frames)

def finish (parser : NdjsonParser) :
    Except ProviderCoreError (NdjsonParser × List NdjsonFrame) := do
  let (next, frames) ← (ndjsonRules parser.limits).finish parser.parser
  return (⟨parser.limits, next⟩, frames)

/-- The records of a stream pushed in chunks and finished. -/
def run (parser : NdjsonParser) :
    List (List UInt8) → Except ProviderCoreError (List NdjsonFrame)
  | [] => do
      let (_, frames) ← parser.finish
      return frames
  | chunk :: rest => do
      let (next, frames) ← parser.push chunk
      let more ← run next rest
      return frames ++ more

end NdjsonParser

end Peritus.Provider.Framing
