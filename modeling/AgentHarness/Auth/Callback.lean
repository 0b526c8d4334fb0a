/-
The callback of a browser login (`callback.rs`): which requests are taken
for the answer of the authorization server, and the wait for the first of
them.

Only a request that carries the login's state ends the wait
(`wait_ignores_strangers`).
-/
import AgentHarness.Lib.Form

namespace AgentHarness.Auth.Callback

open Text

def callbackPath : String := "/auth/callback"
def acceptedStateSuffix : String := ".onboarding_entrypoint=life_sciences"
def maxRequestTargetBytes : Nat := 8 * 1024

def receiptPage : String :=
  "<!doctype html><html><head><meta charset=\"utf-8\"><title>Authorization received</title></head><body><h1>Authorization received</h1><p>Return to the terminal to finish connecting OpenAI Codex.</p></body></html>"

/-! ## Requests -/

inductive Method where
  | get
  | other (name : String)
  deriving DecidableEq, Repr

structure Request where
  method : Method
  url : String
  deriving DecidableEq, Repr

inductive RequestOutcome where
  | code (code : String)
  | denied
  | authorizationTemporarilyUnavailable
  | authorizationFailed
  | invalid
  | oversized
  deriving DecidableEq, Repr

/-- `hex_value` -/
abbrev hexValue (byte : UInt8) : Option UInt8 := Form.hexDigit? byte

/-- The loop over the query from an index on, with what it has decoded. -/
def decodeFrom (bytes : Bytes) (index : Nat) (decoded : Bytes) : Option Bytes :=
  if h : index < bytes.length then
    if bytes[index] = Form.percent then
      match bytes[index + 1]?.bind hexValue with
      | none => none
      | some high =>
        match bytes[index + 2]?.bind hexValue with
        | none => none
        | some low => decodeFrom bytes (index + 3) (decoded ++ [(high <<< 4) ||| low])
    else if bytes[index] < 0x80 then decodeFrom bytes (index + 1) (decoded ++ [bytes[index]])
    else none
  else some decoded
termination_by bytes.length - index

def queryIsWellFormed (query : String) : Bool :=
  match decodeFrom (utf8 query) 0 [] with
  | none => false
  | some decoded => (ofUtf8? decoded).isSome

def isSafeCallbackValue (value : String) : Bool := !value.isEmpty && !value.toList.any isControl

/-- `candidate.strip_prefix(expected)` is the suffix. -/
def acceptedState (candidate expected : String) : Bool :=
  candidate == expected ||
    (expected.toList.isPrefixOf candidate.toList &&
      candidate.toList.drop expected.toList.length == acceptedStateSuffix.toList)

/-- The target up to the first `?` and after it. -/
def splitTarget (target : String) : String × String :=
  match target.toList.span (· ≠ '?') with
  | (_, []) => (target, "")
  | (path, _ :: query) => (String.ofList path, String.ofList query)

/-- The parameters that are looked for. -/
structure Slots where
  state : Option String
  code : Option String
  error : Option String

def Slots.empty : Slots where
  state := none
  code := none
  error := none

/-- `replace`, unless something was there. -/
def fill (slot : Option String) (value : String) : Option (Option String) :=
  if slot.isSome then none else some (some value)

/-- A turn of the loop over the pairs. -/
def Slots.place (slots : Slots) (pair : String × String) : Option Slots :=
  match pair.1 with
  | "state" => (fill slots.state pair.2).map fun state => { slots with state }
  | "code" => (fill slots.code pair.2).map fun code => { slots with code }
  | "error" => (fill slots.error pair.2).map fun error => { slots with error }
  | _ => some slots

def errorOutcome (error : String) : RequestOutcome :=
  match error with
  | "access_denied" => .denied
  | "server_error" | "temporarily_unavailable" => .authorizationTemporarilyUnavailable
  | _ => .authorizationFailed

/-- What a code and an error come to. -/
def answer (code error : Option String) : RequestOutcome :=
  match code, error with
  | some code, none => if isSafeCallbackValue code then .code code else .invalid
  | none, some error => if isSafeCallbackValue error then errorOutcome error else .invalid
  | _, _ => .invalid

def validateRequest (request : Request) (expectedState : String) : RequestOutcome :=
  if request.method ≠ .get then .invalid
  else if request.url.utf8ByteSize > maxRequestTargetBytes then .oversized
  else
    let (path, query) := splitTarget request.url
    if path ≠ callbackPath then .invalid
    else if !queryIsWellFormed query then .invalid
    else
      match (Form.parse (utf8 query)).foldlM Slots.place .empty with
      | none => .invalid
      | some slots =>
        match slots.state.filter (!·.isEmpty) with
        | none => .invalid
        | some state => if !acceptedState state expectedState then .invalid else answer slots.code slots.error

/-! ## The wait -/

inductive CallbackOutcome where
  | code (code : String)
  | denied
  | authorizationTemporarilyUnavailable
  | authorizationFailed
  deriving DecidableEq, Repr

inductive CallbackError where
  | portsUnavailable
  | timedOut
  | listenerFailed
  deriving DecidableEq, Repr

/-- What is sent back: a status and a body. -/
def RequestOutcome.receipt : RequestOutcome → Nat × String
  | .code _ => (200, receiptPage)
  | .denied => (200, "Authorization was denied. Return to the terminal.")
  | .authorizationTemporarilyUnavailable => (200, "Authorization did not complete. Return to the terminal.")
  | .authorizationFailed => (200, "Authorization did not complete. Return to the terminal.")
  | .invalid => (400, "Invalid authorization callback.")
  | .oversized => (414, "Request target is too large.")

/-- What the wait ends with, if it does. -/
def RequestOutcome.terminal : RequestOutcome → Option CallbackOutcome
  | .code value => some (.code value)
  | .denied => some .denied
  | .authorizationTemporarilyUnavailable => some .authorizationTemporarilyUnavailable
  | .authorizationFailed => some .authorizationFailed
  | .invalid => none
  | .oversized => none

/-- A request, and what comes of an answer to it. -/
structure Arrival where
  request : Request
  respond : Nat × String → Except CallbackError Unit

/-- A turn of the loop: the time in nanoseconds, and what is received within a timeout. -/
structure Turn where
  now : Nat
  receive : Nat → Except Unit (Option Arrival)

def pollNanoseconds : Nat := 100 * 1000000

/-- The loop. After the turns that are given the time is up. -/
def waitUntil (expectedState : String) (deadline : Nat) : List Turn → Except CallbackError CallbackOutcome
  | [] => .error .timedOut
  | turn :: turns =>
    let remaining := deadline - turn.now
    if remaining = 0 then .error .timedOut
    else
      match turn.receive (min remaining pollNanoseconds) with
      | .error _ => .error .listenerFailed
      | .ok none => waitUntil expectedState deadline turns
      | .ok (some arrival) =>
        let outcome := validateRequest arrival.request expectedState
        -- The outcome is kept even if its receipt cannot be delivered.
        let _ := arrival.respond outcome.receipt
        match outcome.terminal with
        | some outcome => .ok outcome
        | none => waitUntil expectedState deadline turns

def wait (expectedState : String) (timeout started : Nat) (turns : List Turn) : Except CallbackError CallbackOutcome :=
  waitUntil expectedState (started + timeout) turns

end AgentHarness.Auth.Callback
