/-!
# UTF-8 over byte lists

One decoder serves every reader of bytes in this library. It takes a byte at a
time, so decoding commutes with cutting the input anywhere, and it marks a fault
as an absent character: lossy reading, strict reading and the check of a text
that arrives in fragments are three views of the same run.

A fault is either a single byte that can begin nothing, or the longest beginning
of a sequence that is cut short. The byte that cuts a sequence short is read
again as a beginning of its own.
-/

set_option autoImplicit false

namespace PipeCast.Text.Utf8

/-- The character that stands for a fault when bytes are read lossily. -/
def replacement : Char := '\uFFFD'

/-- A sequence that has begun and not ended. The range bounds the next byte only;
every byte after it is a plain continuation byte. -/
structure Unfinished where
  value : Nat
  /-- How many bytes follow after the next one. -/
  further : Nat
  low : UInt8
  high : UInt8
  deriving DecidableEq, Repr

/-- What a byte does where a character may begin. -/
inductive Lead where
  | whole (character : Char)
  | opens (sequence : Unfinished)
  | stray
  deriving DecidableEq, Repr

/-- Overlong forms, surrogates and values above U+10FFFF are excluded here, by the
range allowed for the second byte. -/
def lead (byte : UInt8) : Lead :=
  if byte < 0x80 then .whole (Char.ofNat byte.toNat)
  else if byte < 0xC2 then .stray
  else if byte < 0xE0 then .opens ⟨byte.toNat - 0xC0, 0, 0x80, 0xBF⟩
  else if byte < 0xF0 then
    .opens ⟨byte.toNat - 0xE0, 1, if byte = 0xE0 then 0xA0 else 0x80,
      if byte = 0xED then 0x9F else 0xBF⟩
  else if byte < 0xF5 then
    .opens ⟨byte.toNat - 0xF0, 2, if byte = 0xF0 then 0x90 else 0x80,
      if byte = 0xF4 then 0x8F else 0xBF⟩
  else .stray

structure Decoder where
  /-- What has been read, newest first; `none` is a fault. -/
  read : List (Option Char)
  unfinished : Option Unfinished
  deriving DecidableEq, Repr

namespace Decoder

def fresh : Decoder := ⟨[], none⟩

def restart (decoder : Decoder) (byte : UInt8) : Decoder :=
  match lead byte with
  | .whole character => ⟨some character :: decoder.read, none⟩
  | .opens sequence => ⟨decoder.read, some sequence⟩
  | .stray => ⟨none :: decoder.read, none⟩

def push (decoder : Decoder) (byte : UInt8) : Decoder :=
  match decoder.unfinished with
  | none => decoder.restart byte
  | some sequence =>
      if sequence.low ≤ byte ∧ byte ≤ sequence.high then
        let value := sequence.value * 64 + (byte.toNat - 0x80)
        match sequence.further with
        | 0 => ⟨some (Char.ofNat value) :: decoder.read, none⟩
        | further + 1 => ⟨decoder.read, some ⟨value, further, 0x80, 0xBF⟩⟩
      else restart ⟨none :: decoder.read, none⟩ byte

def pushAll (decoder : Decoder) (bytes : List UInt8) : Decoder :=
  bytes.foldl push decoder

/-- Everything read, oldest first; a sequence still open at the end is a fault. -/
def finish (decoder : Decoder) : List (Option Char) :=
  match decoder.unfinished with
  | none => decoder.read.reverse
  | some _ => (none :: decoder.read).reverse

/-- No fault so far. A sequence that is still open is not yet a fault. -/
def isSound (decoder : Decoder) : Bool :=
  decoder.read.all Option.isSome

end Decoder

/-- The characters and faults of a complete input. -/
def decode (bytes : List UInt8) : List (Option Char) :=
  (Decoder.fresh.pushAll bytes).finish

/-- Every fault becomes one replacement character. -/
def decodeLossy (bytes : List UInt8) : List Char :=
  (decode bytes).map (·.getD replacement)

/-- The text of the bytes, if they hold no fault. -/
def decodeStrict? (bytes : List UInt8) : Option (List Char) :=
  let read := decode bytes
  if read.all Option.isSome then some (read.filterMap id) else none

def encode (text : List Char) : List UInt8 :=
  text.flatMap String.utf8EncodeChar

def readLossy (bytes : List UInt8) : String :=
  String.ofList (decodeLossy bytes)

def readStrict? (bytes : List UInt8) : Option String :=
  (decodeStrict? bytes).map String.ofList

def bytesOf (text : String) : List UInt8 :=
  encode text.toList

end PipeCast.Text.Utf8
