import PipeCast.Text.Utf8

/-!
# The environment of a process

An environment is a list of byte strings, each a name, an equals sign and a value.
Nothing keeps a value, or the name of an entry, from holding equals signs of its
own: an entry answers to every name that ends before one of its equals signs.
-/

set_option autoImplicit false

namespace PipeCast

open Text

/-- The variables of a process, as the system keeps them. -/
abbrev Environment := List (List UInt8)

namespace Environment

def equalsSign : UInt8 := 0x3D

/-- The byte that ends an entry. No name and no value can hold it. -/
def terminator : UInt8 := 0

/-- What an entry begins with if it answers to a name. -/
def opening (name : String) : List UInt8 := Utf8.bytesOf name ++ [equalsSign]

def answersTo (name : String) (entry : List UInt8) : Bool :=
  (opening name).isPrefixOf entry

/-- The value of a variable. The first entry that answers to the name counts.
Nothing answers to an empty name. -/
def value? (environment : Environment) (name : String) : Option (List UInt8) :=
  if name.isEmpty ∨ terminator ∈ Utf8.bytesOf name then none
  else (environment.find? (answersTo name)).map fun entry => entry.drop (opening name).length

/-- The value of a variable, if it is text. -/
def text? (environment : Environment) (name : String) : Option String :=
  (environment.value? name).bind Utf8.readStrict?

/-- Puts an entry in the place of the first that answers to a name, or at the end. -/
def replace (name : String) (entry : List UInt8) : Environment → Environment
  | [] => [entry]
  | first :: rest =>
      if answersTo name first then entry :: rest else first :: replace name entry rest

/-- Sets a variable. A value that holds the terminator cannot be set. -/
def set? (environment : Environment) (name : String) (value : List UInt8) :
    Option Environment :=
  if terminator ∈ value then none
  else some (replace name (opening name ++ value) environment)

/-- The environment of these variables. One whose name or value holds the terminator
cannot be passed on. -/
def ofVariables? (given : List (String × List UInt8)) : Option Environment :=
  given.mapM fun (name, value) =>
    let entry := opening name ++ value
    if terminator ∈ entry then none else some entry

end Environment

end PipeCast
