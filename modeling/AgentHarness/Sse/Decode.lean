/-
The decoder of a response's event stream: bytes into lines, lines into
events, events into the text of the answer, each as far as it has come when
a read ends. Every length is bounded and the time is looked at around every
read and at the end of every event.

The JSON parser is a parameter, and so is what the clock reads.
-/
import AgentHarness.Lib.Clock
import AgentHarness.Lib.Json.Value
import AgentHarness.Lib.Text
import AgentHarness.Lib.Word

namespace AgentHarness.Sse

open Text Except Clock

/-! ## Limits -/

def maxEventBytes : UInt64 := 1024 * 1024
def maxResponseBytes : UInt64 := 4 * 1024 * 1024
def maxTextBytes : UInt64 := 256 * 1024

/-- The budget is in nanoseconds, as the clock's readings are. -/
structure Limits where
  eventBytes : UInt64
  responseBytes : UInt64
  textBytes : UInt64
  totalBudget : Nat
  deriving DecidableEq, Repr

def Limits.production : Limits where
  eventBytes := maxEventBytes
  responseBytes := maxResponseBytes
  textBytes := maxTextBytes
  totalBudget := 2 * 60 * 1000000000

inductive DecodeError where
  | invalid
  | limitExceeded
  | timedOut
  | modelFailed
  | emptyText
  deriving DecidableEq, Repr

/-- `usize::checked_add` -/
abbrev checkedAdd (a b : Nat) : Option Nat := Word.checkedAdd UInt64.size a b

/-- A length that could be added up and is within a limit. -/
def within (limit : UInt64) (length : Option Nat) : Except DecodeError Nat := do
  let length ← okOr length .limitExceeded
  rejectIf (length > limit.toNat) .limitExceeded
  return length

theorem within_checkedAdd (limit : UInt64) (a b : Nat) :
    within limit (checkedAdd a b) = if a + b ≤ limit.toNat then .ok (a + b) else .error .limitExceeded := by
  unfold within
  rw [Word.checkedAdd_within limit.toNat_lt_size]
  by_cases h : a + b ≤ limit.toNat
  · rw [if_pos h, if_neg (Nat.not_lt.mpr h)]
    rfl
  · rw [if_neg h, if_pos (Nat.not_le.mp h)]

/-! ## Events -/

structure TextState where
  deltas : String
  outputItem : Option String
  done : Option String
  deriving DecidableEq, Repr

def TextState.initial : TextState where
  deltas := ""
  outputItem := none
  done := none

inductive EventOutcome where
  | continued
  | completed (text : String)
  deriving DecidableEq, Repr

/-- The types of events the decoder tells apart. -/
inductive EventType where
  | outputTextDelta
  | outputItemDone
  | outputTextDone
  | completed
  | failed
  | other
  deriving DecidableEq, Repr

def EventType.ofName (name : String) : EventType :=
  match name with
  | "response.output_text.delta" => .outputTextDelta
  | "response.output_item.done" => .outputItemDone
  | "response.output_text.done" => .outputTextDone
  | "response.completed" => .completed
  | "response.failed" | "response.incomplete" | "error" => .failed
  | _ => .other

/-- A member that is a text. -/
def getStr (key : String) (event : Json) : Option String := (event.get key).bind Json.asStr

def appendBounded (limits : Limits) (target text : String) : Except DecodeError String := do
  let _ ← within limits.textBytes (checkedAdd target.utf8ByteSize text.utf8ByteSize)
  return target ++ text

def ensureTextBound (limits : Limits) (text : String) : Except DecodeError Unit :=
  rejectIf (text.utf8ByteSize > limits.textBytes.toNat) .limitExceeded

/-- The text of a part of a message, if it is one to be output. -/
def outputText (part : Json) : Option String :=
  if getStr "type" part = some "output_text" then getStr "text" part else none

def appendPart (limits : Limits) (text : String) (part : Json) : Except DecodeError String :=
  match outputText part with
  | none => .ok text
  | some part => appendBounded limits text part

/-- The parts of an item that is a message of the assistant's. -/
def assistantContent (item : Json) : Option (List Json) :=
  if getStr "type" item ≠ some "message" ∨ getStr "role" item ≠ some "assistant" then none
  else (item.get "content").bind Json.asArray

def assistantItemText (limits : Limits) (event : Json) : Except DecodeError (Option String) := do
  let item ← okOr (event.get "item") .invalid
  match assistantContent item with
  | none => return none
  | some content =>
    let text ← content.foldlM (appendPart limits) ""
    return if text.isEmpty then none else some text

/-- The text to answer with: the last item's, else the deltas, else the last
text that was done. -/
def TextState.answer (state : TextState) : Except DecodeError String := do
  let deltas := if state.deltas.isEmpty then none else some state.deltas
  let text ← okOr ((state.outputItem.or deltas).or state.done) .emptyText
  rejectIf text.isEmpty .emptyText
  return text

section
variable (fromStr : String → Option Json) (limits : Limits)

def dispatch (data : String) (state : TextState) : Except DecodeError (EventOutcome × TextState) := do
  let event ← okOr (fromStr data) .invalid
  let eventType ← okOr (getStr "type" event) .invalid
  match EventType.ofName eventType with
  | .outputTextDelta =>
    let delta ← okOr (getStr "delta" event) .invalid
    let deltas ← appendBounded limits state.deltas delta
    return (.continued, { state with deltas })
  | .outputItemDone =>
    match ← assistantItemText limits event with
    | some text => return (.continued, { state with outputItem := some text })
    | none => return (.continued, state)
  | .outputTextDone =>
    let text ← okOr (getStr "text" event) .invalid
    ensureTextBound limits text
    return (.continued, { state with done := some text })
  | .completed => return (.completed (← state.answer), state)
  | .failed => .error .modelFailed
  | .other => return (.continued, state)

/-! ## Lines -/

def lf : UInt8 := 0x0a
def cr : UInt8 := 0x0d

/-- What the decoder has of the line, the event and the response so far. -/
structure Decoder where
  pending : Bytes
  eventData : String
  eventBytes : Nat
  state : TextState
  deriving DecidableEq, Repr

def Decoder.initial : Decoder where
  pending := []
  eventData := ""
  eventBytes := 0
  state := .initial

/-- The line without a carriage return at its end. -/
def stripCr (line : Bytes) : Bytes := if line.getLast? = some cr then line.dropLast else line

/-- The text before a character and after it. -/
def splitOnce (c : Char) (line : String) : Option (String × String) :=
  match line.toList.span (· ≠ c) with
  | (_, []) => none
  | (field, _ :: value) => some (String.ofList field, String.ofList value)

def stripSpace (value : String) : String :=
  match value.toList with
  | ' ' :: rest => String.ofList rest
  | _ => value

/-- The value of a line of data. -/
def dataValue (line : String) : Option String :=
  if line.toList.head? = some ':' then none
  else match splitOnce ':' line with
    | none => none
    | some (field, value) => if field ≠ "data" then none else some (stripSpace value)

/-- The data with one more value. -/
def joinData (eventData value : String) : String := if eventData.isEmpty then value else eventData ++ "\n" ++ value

def addField (line : String) (d : Decoder) : Except DecodeError Decoder :=
  match dataValue line with
  | none => .ok d
  | some value => do
    let additional := value.utf8ByteSize + (if d.eventData.isEmpty then 0 else 1)
    let _ ← within limits.eventBytes (checkedAdd d.eventData.utf8ByteSize additional)
    return { d with eventData := joinData d.eventData value }

/-- The end of an event. -/
def closeEvent (d : Decoder) : Except DecodeError (Option String × Decoder) := do
  let (completed, state) ←
    if d.eventData.isEmpty then pure (none, d.state)
    else do
      match ← dispatch fromStr limits d.eventData d.state with
      | (.continued, state) => pure (none, state)
      | (.completed text, state) => pure (some text, state)
  return (completed, { d with eventData := "", eventBytes := 0, state })

/-! ## Reads -/

variable (clock : Nat → Nat)

def checkBudget : Clocked DecodeError Unit := deadline clock limits.totalBudget .timedOut

/-- A line without its end. Its length and one are one machine word. -/
def processLine (line : Bytes) (d : Decoder) : Clocked DecodeError (Option String × Decoder) := do
  let line := stripCr line
  let eventBytes ← within limits.eventBytes (checkedAdd d.eventBytes (line.length + 1))
  let line ← okOr (ofUtf8? line) DecodeError.invalid
  if line.isEmpty then
    checkBudget limits clock
    closeEvent fromStr limits { d with eventBytes }
  else return (none, ← addField limits line { d with eventBytes })

def processChunk : Bytes → Decoder → Clocked DecodeError (Option String × Decoder)
  | [], d => return (none, d)
  | byte :: chunk, d =>
    if byte = lf then do
      match ← processLine fromStr limits clock d.pending { d with pending := [] } with
      | (some text, d) => return (some text, d)
      | (none, d) => processChunk chunk d
    else do
      let _ ← within limits.eventBytes ((checkedAdd d.eventBytes d.pending.length).bind (checkedAdd · 1))
      processChunk chunk { d with pending := d.pending ++ [byte] }

inductive ErrorKind where
  | timedOut
  | wouldBlock
  | other
  deriving DecidableEq, Repr

/-- A failed read, and whether it is a timeout of the client's underneath. -/
structure ReadError where
  kind : ErrorKind
  isTimeout : Bool
  deriving DecidableEq, Repr

def mapReadError (error : ReadError) : DecodeError :=
  if error.kind = .timedOut ∨ error.kind = .wouldBlock ∨ error.isTimeout then .timedOut else .invalid

def bufferBytes : Nat := 8 * 1024

/-- Read until the answer is there. After the reads that are given the stream
has ended. -/
def decodeFrom : List (Except ReadError Bytes) → Nat → Decoder → Clocked DecodeError String
  | [], _, _ => do
    checkBudget limits clock
    checkBudget limits clock
    throw .invalid
  | read :: reads, responseBytes, d => do
    checkBudget limits clock
    let chunk ← read.mapError mapReadError
    checkBudget limits clock
    rejectIf chunk.isEmpty DecodeError.invalid
    let responseBytes ← within limits.responseBytes (checkedAdd responseBytes chunk.length)
    match ← processChunk fromStr limits clock chunk d with
    | (some text, _) => return text
    | (none, d) => decodeFrom reads responseBytes d

def decode (reads : List (Except ReadError Bytes)) : Except DecodeError String :=
  begun (decodeFrom fromStr limits clock reads 0 .initial)

end

end AgentHarness.Sse
