/-!
# Targets of requests

A target is a path from the root, a complete address with a scheme and an
authority, an authority alone, or an asterisk. Only the path of a target decides
what answers: a query after it and a fragment after that are checked or dropped.
-/

set_option autoImplicit false

namespace PipeCast.Http.Target

inductive Fault where
  | tooLong
  | empty
  | schemeTooLong
  | authority
  | character
  /-- The parts of the target do not make a whole. -/
  | form
  deriving DecidableEq, Repr

def Fault.message : Fault → String
  | .tooLong => "uri too long"
  | .empty => "empty string"
  | .schemeTooLong => "scheme too long"
  | .authority => "invalid authority"
  | .character => "invalid uri character"
  | .form => "invalid format"

def sizeLimit : Nat := 65534

def schemeLimit : Nat := 64

/-! ## Paths -/

/-- Whether a character may stand in a path. Quotes and braces may, though they
ought to be escaped. -/
def isPathCharacter (character : Char) : Bool :=
  0x20 < character.toNat && !("#<>?\x60".toList.contains character)

def isQueryCharacter (character : Char) : Bool :=
  0x20 < character.toNat && !("\"#<>".toList.contains character)

/-- The path at the start of a text. A question mark begins the query, and a number
sign a fragment, which may hold anything. -/
def path (text : List Char) : Except Fault (List Char) :=
  let path := text.takeWhile fun character => character ≠ '?' && character ≠ '#'
  let query :=
    match text.drop path.length with
    | '?' :: rest => rest.takeWhile (· ≠ '#')
    | _ => []
  if path.all isPathCharacter && query.all isQueryCharacter then .ok path
  else .error .character

/-! ## Authorities -/

structure Authority where
  /-- The colons that may belong to the port. -/
  colons : Nat
  isOpened : Bool
  isClosed : Bool
  /-- Whether there is a percent sign outside of brackets and user names. -/
  hasPercent : Bool
  endsInAt : Bool
  deriving DecidableEq, Repr

namespace Authority

def start : Authority := ⟨0, false, false, false, false⟩

def colonLimit : Nat := 8

/-- Whether a character without a meaning of its own may stand in an authority. -/
def isPlain (character : Char) : Bool :=
  character.isAlphanum || "!$&'()*+,-.;=_~".toList.contains character

/-- Reads one character. What stands between brackets or before an at sign does not
count as a port. -/
def step (authority : Authority) (character : Char) : Except Fault Authority :=
  let authority := { authority with endsInAt := character = '@' }
  match character with
  | ':' =>
      if authority.colons < colonLimit then
        .ok { authority with colons := authority.colons + 1 }
      else .error .authority
  | '[' =>
      if authority.hasPercent || authority.isOpened then .error .authority
      else .ok { authority with isOpened := true }
  | ']' =>
      if !authority.isOpened || authority.isClosed then .error .authority
      else .ok { authority with isClosed := true, colons := 0, hasPercent := false }
  | '@' => .ok { authority with colons := 0, hasPercent := false }
  | '%' => .ok { authority with hasPercent := true }
  | _ => if isPlain character then .ok authority else .error .character

/-- Whether an authority may end. It needs both brackets or none, at most one colon
before its port, and a host after a user name. -/
def isWhole (authority : Authority) : Bool :=
  authority.isOpened == authority.isClosed && authority.colons ≤ 1 &&
    !authority.endsInAt && !authority.hasPercent

end Authority

/-- Splits an authority off. It ends where a path, a query or a fragment begins. -/
def authority (text : List Char) : Except Fault (List Char × List Char) := do
  let name := text.takeWhile fun character => !("/?#".toList.contains character)
  let read ← name.foldlM Authority.step .start
  if read.isWhole then .ok (name, text.drop name.length) else .error .authority

/-! ## Targets -/

def isSchemeCharacter (character : Char) : Bool :=
  character.isAlphanum || ['+', '-', '.', '~'].contains character

/-- What follows the scheme of a text, if the text has one. -/
def afterScheme? (text : List Char) : Except Fault (Option (List Char)) :=
  let scheme := text.takeWhile isSchemeCharacter
  match text.drop scheme.length with
  | ':' :: '/' :: '/' :: rest =>
      if scheme.length ≤ schemeLimit then .ok (some rest) else .error .schemeTooLong
  | _ => .ok none

/-- The path of a target that does not begin with one. An address without a path
has the root as its path, and an authority alone has none. -/
def pathOfAddress (text : List Char) : Except Fault (List Char) := do
  match ← afterScheme? text with
  | none =>
      let (_, rest) ← authority text
      if rest.isEmpty then .ok [] else .error .form
  | some rest =>
      let (name, rest) ← authority rest
      if name.isEmpty then .error .form
      else
        let found ← path rest
        .ok (if found.isEmpty then ['/'] else found)

/-- Whether a character may stand in the target of a request line, even in a fragment.
Blanks would end the target, and control characters are refused. -/
def isLineCharacter (character : Char) : Bool :=
  0x20 < character.toNat && character.toNat ≠ 0x7F

def pathOf (text : String) : Except Fault (List Char) :=
  if sizeLimit < text.utf8ByteSize then .error .tooLong
  else
    match text.toList with
    | [] => .error .empty
    | ['*'] => .ok ['*']
    | ['?'] | ['#'] => .error .character
    | characters@('/' :: _) => path characters
    | characters => pathOfAddress characters

def pathOfLine (text : String) : Except Fault (List Char) :=
  if text.toList.all isLineCharacter then pathOf text else .error .character

end PipeCast.Http.Target
