import PipeCast.Startup.IoError

/-!
# Pieces of a byte stream

A session's bytes arrive in reads of any sizes and end either with the input or
with an error. They are taken in pieces: a piece ends after a newline, or when it
has reached the limit, or with the input. An error loses the piece it interrupts
and no other.
-/

set_option autoImplicit false

namespace PipeCast.Reader

def newline : UInt8 := 0x0A

/-- The greatest number of bytes in a piece, its newline counted. -/
def pieceLimit : Nat := 65536

structure Source where
  arrivals : List (List UInt8)
  /-- The error that follows the last arrival; without one the input ends there. -/
  failure : Option IoError
  deriving DecidableEq, Repr

/-- What one read comes to. The end of the input is no read but the end of them. -/
abbrev Read := Except IoError (List UInt8)

/-- What a sequence of reads gives to a session. A read that was interrupted is made
again. No read is made after any other error. -/
def Source.ofReads : List Read → Source
  | [] => ⟨[], none⟩
  | .ok arrival :: later =>
      let source := ofReads later
      { source with arrivals := arrival :: source.arrivals }
  | .error error :: later =>
      if error.kind = .interrupted then ofReads later else ⟨[], some error⟩

/-- How far one arrival takes a piece. Bytes taken are listed newest first. -/
inductive Fill where
  /-- The piece is complete, and this much of the arrival is left. -/
  | complete (taken rest : List UInt8)
  /-- The arrival is used up, and the piece may still take this many bytes. -/
  | wanting (taken : List UInt8) (room : Nat)
  deriving DecidableEq, Repr

/-- Takes bytes up to and including a newline, as long as there is room. -/
def fill : Nat → List UInt8 → List UInt8 → Fill
  | 0, taken, arrival => .complete taken arrival
  | room + 1, taken, [] => .wanting taken (room + 1)
  | room + 1, taken, byte :: rest =>
      if byte = newline then .complete (byte :: taken) rest
      else fill room (byte :: taken) rest

inductive Reading where
  /-- A complete piece, and the arrivals left. -/
  | piece (bytes : List UInt8) (arrivals : List (List UInt8))
  /-- The arrivals ran out after these bytes of an incomplete piece. -/
  | exhausted (bytes : List UInt8)
  deriving DecidableEq, Repr

/-- Reads one piece across as many arrivals as it needs. -/
def readPiece (room : Nat) (taken : List UInt8) : List (List UInt8) → Reading
  | [] => .exhausted taken.reverse
  | arrival :: later =>
      match fill room taken arrival with
      | .complete taken rest => .piece taken.reverse (rest :: later)
      | .wanting taken room => readPiece room taken later

def pending (arrivals : List (List UInt8)) : Nat :=
  arrivals.flatten.length

theorem fill_complete_length {room : Nat} {taken arrival taken' rest : List UInt8}
    (filled : fill room taken arrival = .complete taken' rest) :
    taken'.length + rest.length = taken.length + arrival.length := by
  induction room, taken, arrival using fill.induct with
  | case1 taken arrival => simp_all [fill]
  | case2 room taken => simp [fill] at filled
  | case3 room taken rest' =>
      simp only [fill, if_true, Fill.complete.injEq] at filled
      obtain ⟨rfl, rfl⟩ := filled
      simp only [List.length_cons]
      omega
  | case4 room taken byte rest' notNewline ih =>
      simp only [fill, notNewline, if_false] at filled
      have := ih filled
      simp only [List.length_cons] at this ⊢
      omega

theorem fill_wanting_length {room room' : Nat} {taken arrival taken' : List UInt8}
    (filled : fill room taken arrival = .wanting taken' room') :
    taken'.length = taken.length + arrival.length ∧ 0 < room' := by
  induction room, taken, arrival using fill.induct with
  | case1 taken arrival => simp [fill] at filled
  | case2 room taken =>
      simp only [fill, Fill.wanting.injEq] at filled
      obtain ⟨rfl, rfl⟩ := filled
      simp
  | case3 room taken rest' => simp [fill] at filled
  | case4 room taken byte rest' notNewline ih =>
      simp only [fill, notNewline, if_false] at filled
      have := ih filled
      simp only [List.length_cons] at this ⊢
      omega

/-- A piece that is complete has taken a byte, unless it was complete before. -/
theorem fill_complete_takes {room : Nat} {taken arrival taken' rest : List UInt8}
    (filled : fill room taken arrival = .complete taken' rest) (open_ : 0 < room) :
    taken.length < taken'.length := by
  induction room, taken, arrival using fill.induct with
  | case1 taken arrival => simp at open_
  | case2 room taken => simp [fill] at filled
  | case3 room taken rest' =>
      simp only [fill, if_true, Fill.complete.injEq] at filled
      obtain ⟨rfl, rfl⟩ := filled
      simp
  | case4 room taken byte rest' notNewline ih =>
      simp only [fill, notNewline, if_false] at filled
      cases room with
      | zero =>
          simp only [fill, Fill.complete.injEq] at filled
          obtain ⟨rfl, rfl⟩ := filled
          simp
      | succ room =>
          have := ih filled (Nat.succ_pos room)
          simp only [List.length_cons] at this
          omega

/-- Nothing is lost or added by reading a piece, and a piece has at least one byte. -/
theorem readPiece_piece_length {arrivals rest : List (List UInt8)} {room : Nat}
    {taken bytes : List UInt8} (read : readPiece room taken arrivals = .piece bytes rest)
    (open_ : 0 < room) :
    bytes.length + pending rest = taken.length + pending arrivals ∧
      taken.length < bytes.length := by
  induction arrivals generalizing room taken with
  | nil => simp [readPiece] at read
  | cons arrival later ih =>
      simp only [readPiece] at read
      split at read
      · rename_i taken' rest' filled
        simp only [Reading.piece.injEq] at read
        obtain ⟨rfl, rfl⟩ := read
        have total := fill_complete_length filled
        have takes := fill_complete_takes filled open_
        simp only [pending, List.length_reverse, List.flatten_cons, List.length_append] at *
        omega
      · rename_i taken' room' filled
        have wanting := fill_wanting_length filled
        have := ih read wanting.2
        simp only [pending, List.flatten_cons, List.length_append] at *
        omega

/-- Acts on every piece of a list of arrivals in order. The bytes of a last piece
that is not complete are handed on beside the final state. -/
def onPieces {State : Type} (act : State → List UInt8 → State) (state : State)
    (arrivals : List (List UInt8)) : State × List UInt8 :=
  match _isRead : readPiece pieceLimit [] arrivals with
  | .exhausted bytes => (state, bytes)
  | .piece bytes rest => onPieces act (act state bytes) rest
  termination_by pending arrivals
  decreasing_by
    have shorter := readPiece_piece_length (by assumption) (by decide)
    simp only [List.length_nil] at shorter
    omega

/-- Acts on every piece that a session forwards: the end of input completes a last
piece that holds a byte, an error does not. -/
def Source.onPieces {State : Type} (source : Source) (act : State → List UInt8 → State)
    (state : State) : State :=
  match Reader.onPieces act state source.arrivals, source.failure with
  | (final, []), _ => final
  | (final, bytes), none => act final bytes
  | (final, _), some _ => final

/-- The pieces that a session forwards. -/
def Source.pieces (source : Source) : List (List UInt8) :=
  (source.onPieces (fun pieces piece => piece :: pieces) []).reverse

end PipeCast.Reader
