/-!
# Frames

The units in which bytes travel over a WebSocket connection. A frame is read only
when all of it has arrived, except that a header which no frame may have is refused
as soon as the header is complete.
-/

set_option autoImplicit false

namespace PipeCast.WebSocket

inductive Opcode where
  | continuation
  | text
  | binary
  | close
  | ping
  | pong
  deriving DecidableEq, Repr

namespace Opcode

def code : Opcode → UInt8
  | .continuation => 0x0
  | .text => 0x1
  | .binary => 0x2
  | .close => 0x8
  | .ping => 0x9
  | .pong => 0xA

/-- The opcode of a number. The other numbers are reserved. -/
def ofCode? (code : UInt8) : Option Opcode :=
  [.continuation, .text, .binary, .close, .ping, .pong].find? fun opcode => opcode.code = code

/-- Control frames may come between the frames of a message, and are never parts
of one. -/
def isControl : Opcode → Bool
  | .close | .ping | .pong => true
  | .continuation | .text | .binary => false

end Opcode

/-- A frame, with its payload unmasked. -/
structure Frame where
  isFinal : Bool
  /-- Whether a bit reserved for extensions is set. -/
  usesReserved : Bool
  opcode : Opcode
  /-- Whether the payload travelled masked, as a client's must. -/
  isMasked : Bool
  payload : List UInt8
  deriving DecidableEq, Repr

inductive Violation where
  | reservedOpcode
  | frameTooLong
  | unmasked
  | reservedBits
  | fragmentedControl
  | longControl
  | strayContinuation
  | messageInterrupted
  | messageTooLong
  | notText
  | shortClose
  deriving DecidableEq, Repr

namespace Frame

def payloadLimit : Nat := 16777216

/-- The number that bytes spell, most significant first. -/
def number (bytes : List UInt8) : Nat :=
  bytes.foldl (fun value byte => value * 256 + byte.toNat) 0

/-- The bytes of a number, most significant first. -/
def spell : Nat → Nat → List UInt8
  | 0, _ => []
  | size + 1, value => spell size (value / 256) ++ [value.toUInt8]

/-- Combines each byte with the byte of the key that falls on it. -/
def mask (key payload : List UInt8) : List UInt8 :=
  payload.mapIdx fun index byte => byte ^^^ key.getD (index % 4) 0

/-- How many bytes after the second one give the length. -/
def extensionSize (lengthCode : Nat) : Nat :=
  if lengthCode = 126 then 2 else if lengthCode = 127 then 8 else 0

structure Header where
  isFinal : Bool
  usesReserved : Bool
  opcode : Opcode
  /-- The key of the mask, if the payload is masked. -/
  key : Option (List UInt8)
  length : Nat
  /-- How many bytes the header took after the first two. -/
  beyond : Nat
  deriving DecidableEq, Repr

/-- What the bytes at hand hold. -/
inductive Parse (Found : Type) where
  | wanting
  | refused (violation : Violation)
  | found (found : Found)
  deriving DecidableEq, Repr

/-- Reads the header that begins with two bytes, of which the rest has come so far.
A reserved opcode is refused before a length that no frame may have. -/
def parseHeader (first second : UInt8) (rest : List UInt8) : Parse Header :=
  let lengthCode := (second &&& 0x7F).toNat
  let isMasked := second &&& 0x80 ≠ 0
  let extension := extensionSize lengthCode
  let beyond := if isMasked then extension + 4 else extension
  if (rest.take beyond).length < beyond then .wanting
  else
    match Opcode.ofCode? (first &&& 0x0F) with
    | none => .refused .reservedOpcode
    | some opcode =>
        let length := if extension = 0 then lengthCode else number (rest.take extension)
        if payloadLimit < length then .refused .frameTooLong
        else
          .found
            { isFinal := first &&& 0x80 ≠ 0
              usesReserved := first &&& 0x70 ≠ 0
              opcode := opcode
              key := if isMasked then some ((rest.drop extension).take 4) else none
              length := length
              beyond := beyond }

/-- Completes a frame from what follows its header. -/
def ofHeader (header : Header) (payload : List UInt8) : Frame where
  isFinal := header.isFinal
  usesReserved := header.usesReserved
  opcode := header.opcode
  isMasked := header.key.isSome
  payload :=
    match header.key with
    | some key => mask key payload
    | none => payload

/-- Reads the frame at the start of a connection's bytes. It comes with the number
of bytes that it took after the first two. -/
def parse : List UInt8 → Parse (Frame × Nat)
  | first :: second :: rest =>
      match parseHeader first second rest with
      | .wanting => .wanting
      | .refused violation => .refused violation
      | .found header =>
          let payload := (rest.drop header.beyond).take header.length
          if payload.length < header.length then .wanting
          else .found (ofHeader header payload, header.beyond + header.length)
  | _ => .wanting

/-- Only bytes that are there can hold a frame. -/
theorem length_pos_of_parse {bytes : List UInt8} {found : Frame × Nat}
    (parsed : parse bytes = .found found) : 0 < bytes.length := by
  cases bytes with
  | nil => simp [parse] at parsed
  | cons first rest => simp

/-- The bytes of a client's frame. The key of the mask is zero, so the payload
travels as it is. -/
def encode (isFinal : Bool) (opcode : Opcode) (payload : List UInt8) : List UInt8 :=
  let length := payload.length
  let first := opcode.code ||| if isFinal then 0x80 else 0
  let lengthBytes : List UInt8 :=
    if length < 126 then [0x80 ||| length.toUInt8]
    else if length < 65536 then 0xFE :: spell 2 length
    else 0xFF :: spell 8 length
  first :: (lengthBytes ++ [0, 0, 0, 0] ++ payload)

end Frame

end PipeCast.WebSocket
