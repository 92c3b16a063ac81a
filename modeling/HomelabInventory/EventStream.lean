import HomelabInventory.Compatibility
import HomelabInventory.EventPayloads
import HomelabInventory.Utf8Decoding
import Mathlib.Control.Lawful

/-!
# The event stream of the installation

`installation-event-coordinator.mjs`: `consumeSse` reads the body of the event stream
chunk by chunk, cuts the text into frames at blank lines, and hands each event to the
coordinator. `parseFrame` reads one frame.
-/

namespace HomelabInventory.EventStream

open CatalogProtocol (Value)
open Compatibility (isSpace)

/-! ## Frames and events -/

/-- `MAX_FRAME_BYTES` -/
def maxFrameBytes : ℕ := 64 * 1024

/-- `EVENT_KINDS` -/
def eventKinds : List String :=
  shareEventKinds ++ ["account-claim", "account-unlink", "recovery"]

/-- An event of the stream, with what its data says. -/
structure Event where
  id : ℕ
  kind : String
  payload : Value

def frameTooLarge : Failure :=
  ⟨"lab.gd event stream frame is too large.", "sharing-events-invalid"⟩

def endedMidFrame : Failure :=
  ⟨"lab.gd event stream ended mid-frame.", "sharing-events-invalid"⟩

def frameInvalid : Failure :=
  ⟨"lab.gd event stream frame is invalid.", "sharing-events-invalid"⟩

/-- `Buffer.byteLength(text)` -/
def byteLength (text : List Char) : ℕ := (text.map Char.utf8Size).sum

/-- The text without white space at its ends is empty: `!text.trim()`. -/
def isBlank (text : List Char) : Bool := text.all isSpace

/-- The name and the value of a line: what is before the first colon, and what is after it
without one space at its start. -/
def fieldOfLine (line : List Char) : String × String :=
  let name := line.takeWhile (· ≠ ':')
  match line.dropWhile (· ≠ ':') with
  | [] => (String.ofList line, "")
  | _ :: ' ' :: value => (String.ofList name, String.ofList value)
  | _ :: value => (String.ofList name, String.ofList value)

/-- The fields of a frame read so far. -/
structure Fields where
  id : Option String
  kind : Option String
  data : List String

/-- Take one line of a frame. -/
def Fields.takeLine (fields : Fields) (line : List Char) : Fields :=
  if line = [] ∨ line.head? = some ':' then fields
  else
    match fieldOfLine line with
    | ("id", value) => { fields with id := some value }
    | ("event", value) => { fields with kind := some value }
    | ("data", value) => { fields with data := fields.data ++ [value] }
    | _ => fields

/-- The value of an id: `/^[1-9]\\d*$/` with a safe integer as its number. -/
def safeId (id : String) : Option ℕ :=
  match id.toList with
  | [] => none
  | first :: rest =>
    if first ≠ '0' ∧ (first :: rest).all Char.isDigit then
      let number := (first :: rest).foldl (fun n c => n * 10 + (c.toNat - '0'.toNat)) 0
      if number ≤ maxSafeInteger then some number else none
    else none

/-- Read a frame. `parseJson` stands for `JSON.parse`, and gives nothing where that throws. -/
def parseFrame (parseJson : String → Option Value) (frame : List Char) : Except Failure Event :=
  if byteLength frame > maxFrameBytes then .error frameTooLarge
  else
    let fields := (frame.splitOn '\n').foldl Fields.takeLine ⟨none, none, []⟩
    match fields.id.bind safeId, fields.kind, fields.data with
    | some id, some kind, [data] =>
      if kind ∈ eventKinds then
        match parseJson data with
        | none => .error payloadInvalid
        | some payload => do
          validatePayload kind payload
          .ok ⟨id, kind, payload⟩
      else .error frameInvalid
    | _, _, _ => .error frameInvalid

/-! ## The reader -/

/-- `text.replace(/\\r\\n?/gu, '\\n')` -/
def normalizeLineEnds : List Char → List Char
  | [] => []
  | [c] => [if c = '\r' then '\n' else c]
  | c :: d :: rest =>
    if c = '\r' then
      if d = '\n' then '\n' :: normalizeLineEnds rest
      else '\n' :: normalizeLineEnds (d :: rest)
    else c :: normalizeLineEnds (d :: rest)

/-- Cut the text at its first blank line, `indexOf('\\n\\n')`: the frame before and the text
after. -/
def cutFrame : List Char → Option (List Char × List Char)
  | c :: d :: rest =>
    if c = '\n' ∧ d = '\n' then some ([], rest)
    else (cutFrame (d :: rest)).map fun cut => (c :: cut.1, cut.2)
  | _ => none

theorem length_of_cutFrame {text frame rest : List Char}
    (h : cutFrame text = some (frame, rest)) : rest.length < text.length := by
  induction text generalizing frame with
  | nil => cases h
  | cons c tail ih =>
    cases tail with
    | nil => cases h
    | cons d more =>
      unfold cutFrame at h
      split at h
      · cases h
        simp only [List.length_cons]
        omega
      · cases hcut : cutFrame (d :: more) with
        | none => rw [hcut] at h; cases h
        | some cut =>
          obtain ⟨frame', rest'⟩ := cut
          rw [hcut] at h
          cases h
          exact (ih hcut).trans (Nat.lt_succ_self _)

section Reader

variable {m : Type → Type} [Monad m] (parseJson : String → Option Value)
  (onEvent : Event → ExceptT Failure m Unit)

/-- Hand a frame on, unless it is empty or a comment. -/
def takeFrame (frame : List Char) : ExceptT Failure m Unit :=
  if frame = [] ∨ frame.head? = some ':' then pure ()
  else do
    let event ← ExceptT.mk (pure (parseFrame parseJson frame))
    onEvent event

/-- Hand on the complete frames at the start of the buffer; what is left is returned. -/
def drainFrames (buffer : List Char) : ExceptT Failure m (List Char) :=
  match h : cutFrame buffer with
  | none => pure buffer
  | some (frame, rest) =>
    have : rest.length < buffer.length := length_of_cutFrame h
    do
      takeFrame parseJson onEvent frame
      drainFrames rest
termination_by buffer.length

/-- One turn of the loop with the text that was decoded. -/
def takeText (buffer text : List Char) : ExceptT Failure m (List Char) := do
  let buffer := buffer ++ normalizeLineEnds text
  if byteLength buffer > maxFrameBytes * 2 then throw frameTooLarge
  drainFrames parseJson onEvent buffer

/-- The loop over what the reader gives, and the turn after its last chunk. -/
def consumeChunks (state : Utf8.State × Bool) (buffer : List Char) :
    List (List UInt8) → ExceptT Failure m Unit
  | [] => do
    let buffer ← takeText parseJson onEvent buffer (Utf8.decoder.finish state)
    if !isBlank buffer then throw endedMidFrame
  | value :: chunks => do
    let decoded := Utf8.decoder.run state value
    let buffer ← takeText parseJson onEvent buffer decoded.1
    consumeChunks decoded.2 buffer chunks

/-- Read a stream that arrives in these chunks. -/
def consumeSse (chunks : List (List UInt8)) : ExceptT Failure m Unit :=
  consumeChunks parseJson onEvent Utf8.decoder.start [] chunks

end Reader

end HomelabInventory.EventStream
