import PipeCast.Http.Target

/-!
# Requests

A request has a method, a target and headers. Methods and the names of headers are
tokens: letters, digits and some punctuation. Values of headers may hold anything
but control characters. Header names are compared without regard to case.
-/

set_option autoImplicit false

namespace PipeCast.Http

structure Request where
  method : String
  /-- What is asked for, as it was written. -/
  target : String
  headers : List (String × String)
  deriving DecidableEq, Repr

namespace Request

def path (request : Request) : Except Target.Fault String :=
  (Target.pathOf request.target).map String.ofList

/-- The path that is asked for, when the request came over a connection or not. -/
def pathOver (request : Request) (isConnected : Bool) : Except Target.Fault String :=
  if isConnected then (Target.pathOfLine request.target).map String.ofList else request.path

/-- The value of a header, of which the name is given in lower case. -/
def header? (request : Request) (name : String) : Option String :=
  (request.headers.find? fun header => header.1.toLower = name).map (·.2)

/-! ## Faults -/

inductive Fault where
  | method
  | target (fault : Target.Fault)
  | headerName
  | headerValue
  deriving DecidableEq, Repr

def Fault.message : Fault → String
  | .method => "invalid HTTP method"
  | .target fault => fault.message
  | .headerName => "invalid HTTP header name"
  | .headerValue => "failed to parse header value"

def isTokenCharacter (character : Char) : Bool :=
  character.isAlphanum || "!#$%&'*+-.^_\x60|~".toList.contains character

def isToken (text : String) : Bool :=
  !text.isEmpty && text.toList.all isTokenCharacter

/-- Whether a character may stand in the value of a header. Of the control
characters only the tab may. -/
def isValueCharacter (character : Char) : Bool :=
  character = '\t' || (0x20 ≤ character.toNat && character.toNat ≠ 0x7F)

def headerFault? (header : String × String) : Option Fault :=
  if !isToken header.1 then some .headerName
  else if !header.2.toList.all isValueCharacter then some .headerValue
  else none

/-- What is wrong with a request, if anything is: its method first, then its target,
then its headers in order. -/
def fault? (request : Request) : Option Fault :=
  if !isToken request.method then some .method
  else
    match request.path with
    | .error fault => some (.target fault)
    | .ok _ => request.headers.findSome? headerFault?

end Request

end PipeCast.Http
