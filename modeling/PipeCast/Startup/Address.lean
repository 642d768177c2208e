import PipeCast.Text.Numeral

/-!
# Socket addresses

Addresses of both families, their canonical text and the reading of any accepted
spelling. The canonical text of the newer family is lower case, drops leading
zeros, writes the first longest run of two or more zero groups as two colons, and
shows an embedded older address in dotted form.
-/

set_option autoImplicit false

namespace PipeCast

open Text

inductive Address where
  /-- Four octets and a port. -/
  | four (octets : Vector UInt8 4) (port : UInt16)
  /-- Eight groups, a scope (zero for none) and a port. -/
  | six (groups : Vector UInt16 8) (scope : UInt32) (port : UInt16)
  deriving DecidableEq, Repr

namespace Address

def anyInterface (port : UInt16) : Address := .four #v[0, 0, 0, 0] port

/-! ## Canonical text -/

def dotted (octets : List UInt8) : String :=
  ".".intercalate (octets.map fun octet => toString octet.toNat)

/-- Lower case hexadecimal without leading zeros. -/
def hex (group : UInt16) : String :=
  String.ofList (Nat.toDigits 16 group.toNat)

def leadingZeros (groups : List UInt16) : Nat :=
  (groups.takeWhile (· = 0)).length

/-- The start and the length of the first longest run of zero groups, looked for
from `index` on; `best` is the longest found before. -/
def longestZeros (index : Nat) (best : Nat × Nat) : List UInt16 → Nat × Nat
  | [] => best
  | group :: rest =>
      let run := leadingZeros (group :: rest)
      longestZeros (index + 1) (if best.2 < run then (index, run) else best) rest

def colons (groups : List UInt16) : String :=
  ":".intercalate (groups.map hex)

/-- The octets of a pair of groups, high one first. -/
def octetsOf (groups : List UInt16) : List UInt8 :=
  groups.flatMap fun group => [(group / 256).toUInt8, (group % 256).toUInt8]

def groupsText (groups : List UInt16) : String :=
  match groups with
  | [0, 0, 0, 0, 0, 0xFFFF, high, low] => "::ffff:" ++ dotted (octetsOf [high, low])
  | _ =>
      let (start, run) := longestZeros 0 (0, 0) groups
      if 2 ≤ run then
        colons (groups.take start) ++ "::" ++ colons (groups.drop (start + run))
      else colons groups

/-- The canonical text of an address. -/
def text : Address → String
  | .four octets port => dotted octets.toList ++ ":" ++ toString port.toNat
  | .six groups scope port =>
      "[" ++ groupsText groups.toList ++
        (if scope = 0 then "" else "%" ++ toString scope.toNat) ++
        "]:" ++ toString port.toNat

/-! ## Reading -/

def splitAt (separator : Char) (text : List Char) : List (List Char) :=
  (text.splitOnP (· = separator))

/-- A plain decimal numeral of at most `limit`, without a sign. -/
def decimal? (limit : Nat) (text : List Char) : Option Nat :=
  if text.head? = some '+' then none else Numeral.read? limit text

/-- One octet of a dotted address. A leading zero is refused. -/
def octet? (text : List Char) : Option UInt8 :=
  if text.head? = some '0' ∧ text ≠ ['0'] then none
  else (decimal? 255 text).map Nat.toUInt8

def octets? (text : List Char) : Option (Vector UInt8 4) := do
  match ← (splitAt '.' text).mapM octet? with
  | [first, second, third, fourth] => some #v[first, second, third, fourth]
  | _ => none

/-- One group: one to four hexadecimal digits. -/
def group? (text : List Char) : Option UInt16 :=
  if text.isEmpty ∨ 4 < text.length then none
  else (text.foldlM (fun value character =>
    (Numeral.hexDigit? character).map (value * 16 + ·)) 0).map Nat.toUInt16

/-- The group that two octets make, high one first. -/
def paired (high low : UInt8) : UInt16 :=
  high.toUInt16 * 256 + low.toUInt16

/-- Groups between single colons, of which the last may be a dotted address. -/
def groups? : List (List Char) → Option (List UInt16)
  | [] => some []
  | [last] =>
      match octets? last with
      | some octets =>
          some [paired octets[0] octets[1], paired octets[2] octets[3]]
      | none => (group? last).map fun group => [group]
  | first :: rest => do
      let group ← group? first
      let groups ← groups? rest
      some (group :: groups)

/-- The parts before and after the first two adjacent colons. -/
def splitGap : List Char → Option (List Char × List Char)
  | [] => none
  | ':' :: ':' :: rest => some ([], rest)
  | character :: rest => (splitGap rest).map fun (before, after) => (character :: before, after)

/-- A part of an address, which may be empty beside a gap. -/
def part? (text : List Char) : Option (List UInt16) :=
  if text.isEmpty then some [] else groups? (splitAt ':' text)

/-- Eight groups, of which a gap stands for at least one. -/
def six? (text : List Char) : Option (Vector UInt16 8) :=
  let groups : Option (List UInt16) :=
    match splitGap text with
    | none => part? text
    | some (before, after) => do
        let front ← part? before
        let back ← part? after
        if front.length + back.length < 8 then
          some (front ++ List.replicate (8 - front.length - back.length) 0 ++ back)
        else none
  groups.bind fun found =>
    if sized : found.length = 8 then some ⟨found.toArray, by simp [sized]⟩ else none

def port? : List Char → Option UInt16
  | ':' :: digits => (decimal? 65535 digits).map Nat.toUInt16
  | _ => none

/-- Reads a socket address in any accepted spelling. -/
def read? (text : String) : Option Address :=
  match text.toList with
  | '[' :: rest => do
      let inside := rest.takeWhile (· ≠ ']')
      let port ← port? (rest.drop (inside.length + 1))
      let groups ← six? (inside.takeWhile (· ≠ '%'))
      match inside.dropWhile (· ≠ '%') with
      | [] => some (.six groups 0 port)
      | _ :: digits =>
          let scope ← decimal? 4294967295 digits
          some (.six groups scope.toUInt32 port)
  | characters => do
      let octets ← octets? (characters.takeWhile (· ≠ ':'))
      let port ← port? (characters.dropWhile (· ≠ ':'))
      some (.four octets port)

end Address

end PipeCast
