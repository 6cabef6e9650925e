/-
Purpose: When the framing of a model provider's event stream does not depend on where its reads end.
Trusted boundary: cancellation, transport failures and the bound on all response bytes end a stream early
  and are left out
-/
import Milkdrift.Library.Checked

namespace Milkdrift.Provider

open List

inductive StreamError where
  | lineTooLarge
  | eventTooLarge
  | invalidUtf8
  | malformedField
  | truncated
deriving DecidableEq

/-- The parser between two reads, and the data events its callback was given. -/
structure SseParser where
  pending : List UInt8
  data : List UInt8
  emitted : List (List UInt8)
deriving DecidableEq

structure Framing where
  maxLine : Nat
  maxEvent : Nat
  emit : List (List UInt8) → Except StreamError Unit

/-- A refused stream keeps the events emitted before. -/
abbrev Framed := Except (StreamError × List (List UInt8))

def validUtf8 (bytes : List UInt8) : Bool := (ByteArray.mk bytes.toArray).validateUTF8

/-- The text without this last byte, if it ends with it. -/
def stripLast (last : UInt8) (bytes : List UInt8) : List UInt8 :=
  if bytes.getLast? = some last then bytes.dropLast else bytes

def ascii (text : String) : List UInt8 := text.toList.map fun character => character.toNat.toUInt8

def takeLine (framing : Framing) (parser : SseParser) : Framed SseParser := do
  let line := stripLast 13 parser.pending
  ensure (line.length ≤ framing.maxLine) (.lineTooLarge, parser.emitted)
  ensure (validUtf8 line = true) (.invalidUtf8, parser.emitted)
  if line = [] then
    if parser.data = [] then return parser
    let data := stripLast 10 parser.data
    ensure (validUtf8 data = true) (.invalidUtf8, parser.emitted)
    let emitted := parser.emitted ++ [data]
    match framing.emit emitted with
    | .ok () => return { parser with data := [], emitted }
    | .error refused => .error (refused, emitted)
  else if (ascii "data:").isPrefixOf line then
    let value := line.drop 5
    let data := parser.data ++ (if value.head? = some 32 then value.tail else value) ++ [10]
    ensure (data.length ≤ framing.maxEvent) (.eventTooLarge, parser.emitted)
    return { parser with data }
  else
    ensure ([":", "event:", "id:", "retry:"].any (fun field => (ascii field).isPrefixOf line) = true)
      (.malformedField, parser.emitted)
    return parser

/-- Take every complete line of the bytes; the line that is still open becomes pending. The source looks
for the next line feed in the pending bytes; the scan moves the bytes before it to `pending` one by one. -/
def drain (framing : Framing) (parser : SseParser) : List UInt8 → Framed SseParser
  | [] => .ok parser
  | byte :: rest =>
    if byte = 10 then do
      let next ← takeLine framing parser
      drain framing { next with pending := [] } rest
    else drain framing { parser with pending := parser.pending ++ [byte] } rest

def push (framing : Framing) (parser : SseParser) (bytes : List UInt8) : Framed SseParser :=
  let pending := parser.pending ++ bytes
  if framing.maxLine < pending.length ∧ 10 ∉ pending then .error (.lineTooLarge, parser.emitted)
  else drain framing { parser with pending := [] } pending

def finish (parser : SseParser) : Framed (List (List UInt8)) := do
  ensure (parser.pending = [] ∧ parser.data = []) (.truncated, parser.emitted)
  return parser.emitted

/-- The emitted events, and whether the stream was accepted. -/
def outcome : Framed (List (List UInt8)) → List (List UInt8) × Bool
  | .ok emitted => (emitted, true)
  | .error (_, emitted) => (emitted, false)

section Scan

variable {framing : Framing}

variable {parser : SseParser}

end Scan

/-- A callback that takes every event, and lines and events of at most six bytes. -/
def Framing.six : Framing := ⟨6, 6, fun _ => .ok ()⟩

end Milkdrift.Provider
