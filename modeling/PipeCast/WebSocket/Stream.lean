import PipeCast.Text.Utf8
import PipeCast.WebSocket.Frame

/-!
# What a client sends

A connection's bytes become frames, and frames become what the client meant: a
whole message, a control frame, or a request to close. Control frames may come
between the frames of a message. The first violation ends the stream.
-/

set_option autoImplicit false

namespace PipeCast.WebSocket

open Text

/-- A reason to close, as it travels in a close frame. -/
structure Close where
  code : UInt16
  reason : String
  deriving DecidableEq, Repr

namespace Close

/-- Whether a code may travel in a close frame. Some codes are reserved, and some
describe what only one side can see. -/
def isAllowed (code : UInt16) : Bool :=
  [1000, 1001, 1002, 1003, 1007, 1008, 1009, 1010, 1011, 1012, 1013].contains code ||
    (3000 ≤ code && code ≤ 4999)

/-- The answer to a close frame: the same, unless its code is not allowed. -/
def answer (close : Close) : Close :=
  if isAllowed close.code then close else ⟨1002, "Protocol violation"⟩

end Close

inductive Inbound where
  | text (message : String)
  | binary (length : Nat)
  | ping (payload : List UInt8)
  | pong
  | close (reason : Option Close)
  deriving DecidableEq, Repr

/-- The beginning of a message that arrives in several frames. -/
inductive Partial where
  /-- A text, decoded as far as it has come. -/
  | text (decoder : Utf8.Decoder) (length : Nat)
  | binary (length : Nat)
  deriving DecidableEq, Repr

def messageLimit : Nat := 67108864

namespace Partial

def length : Partial → Nat
  | .text _ length => length
  | .binary length => length

/-- Adds the payload of a frame. A text is refused at the first fault; a character
may be divided between frames. -/
def extend (message : Partial) (payload : List UInt8) : Except Violation Partial :=
  if messageLimit < message.length + payload.length then .error .messageTooLong
  else
    match message with
    | .text decoder length =>
        let decoder := decoder.pushAll payload
        if decoder.isSound then .ok (.text decoder (length + payload.length)) else .error .notText
    | .binary length => .ok (.binary (length + payload.length))

def complete : Partial → Except Violation Inbound
  | .text decoder _ =>
      let read := decoder.finish
      if read.all Option.isSome then .ok (.text (String.ofList (read.filterMap id)))
      else .error .notText
  | .binary length => .ok (.binary length)

end Partial

/-- What is known of a client's bytes between arrivals. -/
structure Stream where
  unparsed : List UInt8
  unfinished : Option Partial
  deriving DecidableEq, Repr

namespace Stream

def fresh : Stream := ⟨[], none⟩

def readClose : List UInt8 → Except Violation (Option Close)
  | [] => .ok none
  | [_] => .error .shortClose
  | high :: low :: reason =>
      match Utf8.readStrict? reason with
      | some text => .ok (some ⟨high.toUInt16 * 256 + low.toUInt16, text⟩)
      | none => .error .notText

def acceptControl (frame : Frame) : Except Violation Inbound :=
  if !frame.isFinal then .error .fragmentedControl
  else if 125 < frame.payload.length then .error .longControl
  else
    match frame.opcode with
    | .close => (readClose frame.payload).map .close
    | .ping => .ok (.ping frame.payload)
    | _ => .ok .pong

def acceptData (unfinished : Option Partial) (frame : Frame) :
    Except Violation (Option Partial × Option Inbound) := do
  let message ←
    match frame.opcode, unfinished with
    | .continuation, none => .error .strayContinuation
    | .continuation, some message => message.extend frame.payload
    | _, some _ => .error .messageInterrupted
    | .text, none => Partial.extend (.text .fresh 0) frame.payload
    | _, none => Partial.extend (.binary 0) frame.payload
  if frame.isFinal then return (none, some (← message.complete))
  else return (some message, none)

def accept (unfinished : Option Partial) (frame : Frame) :
    Except Violation (Option Partial × Option Inbound) :=
  if !frame.isMasked then .error .unmasked
  else if frame.usesReserved then .error .reservedBits
  else if frame.opcode.isControl then
    (acceptControl frame).map fun inbound => (unfinished, some inbound)
  else acceptData unfinished frame

/-- Takes every frame that has arrived. The result lists what the client sent,
latest first, with the violation that ended the stream, if any. -/
def advance (unfinished : Option Partial) (received : List Inbound) (bytes : List UInt8) :
    Stream × List Inbound × Option Violation :=
  match _parsed : Frame.parse bytes with
  | .wanting => (⟨bytes, unfinished⟩, received, none)
  | .refused violation => (⟨bytes, unfinished⟩, received, some violation)
  | .found (frame, beyond) =>
      match accept unfinished frame with
      | .error violation => (⟨bytes, unfinished⟩, received, some violation)
      | .ok (unfinished, inbound) =>
          advance unfinished (inbound.toList ++ received) (bytes.drop (2 + beyond))
  termination_by bytes.length
  decreasing_by
    have present := Frame.length_pos_of_parse (by assumption)
    simp only [List.length_drop]
    omega

def feed (stream : Stream) (bytes : List UInt8) : Stream × List Inbound × Option Violation :=
  let (stream, received, violation) := advance stream.unfinished [] (stream.unparsed ++ bytes)
  (stream, received.reverse, violation)

end Stream

end PipeCast.WebSocket
