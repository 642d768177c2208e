import PipeCast.Files.Tree
import PipeCast.Startup.Environment
import PipeCast.Text.Alphanumeric
import PipeCast.Text.Blank

/-!
# Settings files

A settings file holds one variable a line: a name, an equals sign and a value,
optionally after the word `export`. Comments begin with a number sign. Values may
be quoted, may go on over lines while a quote is open, and may mention variables.

The variables of a file are added to an environment in order, up to the first line
that cannot be read. A variable that the environment already has as text stays as
it is. A value that no environment can hold puts an end to everything.
-/

set_option autoImplicit false

namespace PipeCast

open Text

namespace Settings

/-! ## Logical lines -/

/-- What the end of a line means for the next one. -/
inductive Ending where
  | complete
  | escape
  | strong
  | strongEscape
  | weak
  | weakEscape
  /-- A single blank, after which a number sign begins a comment. -/
  | blank
  | comment
  deriving DecidableEq, Repr

def Ending.outside (character : Char) (otherwise : Ending) : Ending :=
  if character = '\\' then .escape
  else if character = '"' then .weak
  else if character = '\'' then .strong
  else otherwise

def Ending.after (character : Char) : Ending → Ending
  | .blank => if character = '#' then .comment else .outside character .complete
  | .escape => .complete
  | .complete =>
      if isBlank character ∧ character ≠ '\n' ∧ character ≠ '\r' then .blank
      else .outside character .complete
  | .weak =>
      if character = '\\' then .weakEscape else if character = '"' then .complete else .weak
  | .weakEscape => .weak
  | .strong =>
      if character = '\\' then .strongEscape else if character = '\'' then .complete else .strong
  | .strongEscape => .strong
  | .comment => .comment

/-- Reads characters up to a comment, and tells how the line ends. The characters
read are listed latest first. -/
def scan (ending : Ending) (read : List Char) : List Char → Ending × List Char
  | [] => (ending, read)
  | character :: rest =>
      match ending.after character with
      | .comment => (.comment, read)
      | next => scan next (character :: read) rest

inductive Logical where
  | line (text : List Char) (rest : List (Option (List Char)))
  | finished
  | malformed
  deriving DecidableEq, Repr

def chomp (text : List Char) : List Char :=
  match text.reverse with
  | '\n' :: '\r' :: rest => rest.reverse
  | '\n' :: rest => rest.reverse
  | _ => text

/-- Joins lines as long as a quote is open. A line that is not text is absent. -/
def nextLine (ending : Ending) (read : List Char) : List (Option (List Char)) → Logical
  | [] => if ending = .complete then .finished else .malformed
  | none :: _ => .malformed
  | some line :: rest =>
      let whole := read ++ line
      if (trimStart whole).head? = some '#' then .line [] rest
      else
        match scan ending read.reverse line with
        | (.comment, kept) => .line kept.reverse rest
        | (.complete, _) => .line (chomp whole) rest
        | (next, _) => nextLine next whole rest

/-! ## Values -/

inductive Mention where
  | none
  | plain
  | braced
  deriving DecidableEq, Repr

/-- How far a value has been read. Characters are listed latest first. -/
structure Value where
  inStrong : Bool
  inWeak : Bool
  isEscaped : Bool
  /-- Whether only blanks and a comment may follow. -/
  isEnding : Bool
  mention : Mention
  name : List Char
  output : List Char
  deriving DecidableEq, Repr

namespace Value

def start : Value := ⟨false, false, false, false, .none, [], []⟩

def push (value : Value) (character : Char) : Value :=
  { value with output := character :: value.output }

/-- Replaces the name that was read by what it stands for. An unknown name stands
for nothing. -/
def substitute (environment : Environment) (value : Value) : Value :=
  let meaning := (environment.text? (String.ofList value.name.reverse)).getD ""
  { value with name := [], output := meaning.toList.reverse ++ value.output }

/-- Reads a character of the name of a mentioned variable, or the one after it. -/
def mentionStep (environment : Environment) (value : Value) (character : Char) : Value :=
  if isAlphanumeric character then { value with name := character :: value.name }
  else
    match value.mention with
    | .braced =>
        if character = '\x7d' then { substitute environment value with mention := .none }
        else { value with name := character :: value.name }
    | _ =>
        if character = '\x7b' ∧ value.name.isEmpty then { value with mention := .braced }
        else if character = '$' then substitute environment value
        else ({ substitute environment value with mention := .none }).push character

def escapeStep? (value : Value) (character : Char) : Option Value :=
  let value := { value with isEscaped := false }
  if ['\\', '\'', '"', '$', ' '].contains character then some (value.push character)
  else if character = 'n' then some (value.push '\n')
  else none

/-- Reads a character that has no meaning from what precedes it. -/
def plainStep (value : Value) (character : Char) : Value :=
  if character = '$' then { value with mention := .plain }
  else if value.inWeak then
    if character = '"' then { value with inWeak := false }
    else if character = '\\' then { value with isEscaped := true }
    else value.push character
  else if character = '\'' then { value with inStrong := true }
  else if character = '"' then { value with inWeak := true }
  else if character = '\\' then { value with isEscaped := true }
  else if character = ' ' ∨ character = '\t' then { value with isEnding := true }
  else value.push character

def read? (environment : Environment) (value : Value) : List Char → Option Value
  | [] => some value
  | character :: rest =>
      if value.isEnding then
        if character = ' ' ∨ character = '\t' then read? environment value rest
        else if character = '#' then some value
        else none
      else if value.isEscaped then
        (escapeStep? value character).bind fun next => read? environment next rest
      else if value.inStrong then
        read? environment
          (if character = '\'' then { value with inStrong := false } else value.push character) rest
      else if value.mention ≠ .none then
        read? environment (mentionStep environment value character) rest
      else read? environment (plainStep value character) rest

/-- The text of a value that has been read. A quote or a brace left open makes it
unreadable. -/
def finish? (environment : Environment) (value : Value) : Option String :=
  if value.mention = .braced ∨ value.inStrong ∨ value.inWeak then none
  else some (String.ofList (substitute environment value).output.reverse)

end Value

/-! ## Variables -/

def key? (text : List Char) : Option (List Char × List Char) :=
  match text with
  | [] => none
  | first :: _ =>
      if first.isAlpha || first = '_' then
        some (text.span fun character =>
          character.isAlphanum || character = '_' || character = '.')
      else none

def equals? : List Char → Option (List Char)
  | '=' :: rest => some (trimStart rest)
  | _ => none

/-- The name of a line, and what follows its equals sign. The word `export` may
stand before the name, or be the name. -/
def assignment? (text : List Char) : Option (List Char × List Char) := do
  let (key, rest) ← key? text
  let rest := trimStart rest
  match equals? rest with
  | some value => some (key, value)
  | none =>
      if key = "export".toList then
        let (key, rest) ← key? rest
        let value ← equals? (trimStart rest)
        some (key, value)
      else none

/-- Reads a logical line: nothing, a variable, or a fault. -/
def entry? (environment : Environment) (line : List Char) :
    Option (Option (String × String)) :=
  let text := trimStart (trimEnd line)
  if text.isEmpty ∨ text.head? = some '#' then some none
  else do
    let (key, value) ← assignment? text
    if value.isEmpty ∨ value.head? = some '#' then some (some (String.ofList key, ""))
    else
      let read ← Value.read? environment .start value
      let meaning ← read.finish? environment
      some (some (String.ofList key, meaning))

/-- A logical line takes at least one line. -/
theorem length_of_nextLine {ending : Ending} {read text : List Char}
    {lines rest : List (Option (List Char))}
    (next : nextLine ending read lines = .line text rest) : rest.length < lines.length := by
  induction lines generalizing ending read with
  | nil =>
      simp only [nextLine] at next
      split at next <;> simp at next
  | cons line later ih =>
      cases line with
      | none => simp [nextLine] at next
      | some line =>
          simp only [nextLine] at next
          split at next
          · simp only [Logical.line.injEq] at next
            simp [next.2]
          · split at next
            · simp only [Logical.line.injEq] at next
              simp [next.2]
            · simp only [Logical.line.injEq] at next
              simp [next.2]
            · have := ih next
              simp only [List.length_cons]
              omega

/-- Adds a variable, unless the environment has it as text. -/
def add? (environment : Environment) (name value : String) : Option Environment :=
  if (environment.text? name).isSome then some environment
  else environment.set? name (Utf8.bytesOf value)

/-- Adds the variables of lines, as long as they can be read. There is no result if
one of them cannot be set. -/
def load? (environment : Environment) (lines : List (Option (List Char))) :
    Option Environment :=
  match _next : nextLine .complete [] lines with
  | .finished | .malformed => some environment
  | .line line rest =>
      match entry? environment line with
      | none => some environment
      | some none => load? environment rest
      | some (some (name, value)) =>
          (add? environment name value).bind fun environment => load? environment rest
  termination_by lines.length
  decreasing_by all_goals exact length_of_nextLine (by assumption)

/-- The lines of a file, each with the byte that ends it. -/
def linesOf (bytes : List UInt8) : List (List UInt8) :=
  match bytes.splitOnP (· = 0x0A) |>.reverse with
  | [] => []
  | last :: earlier =>
      (earlier.reverse.map fun line => line ++ [0x0A]) ++ if last.isEmpty then [] else [last]

/-- Removes the mark that some editors put before a text. -/
def withoutMark : List UInt8 → List UInt8
  | 0xEF :: 0xBB :: 0xBF :: rest => rest
  | bytes => bytes

def addFile? (environment : Environment) (bytes : List UInt8) : Option Environment :=
  load? environment ((linesOf (withoutMark bytes)).map Utf8.decodeStrict?)

def fileName : List UInt8 := Utf8.bytesOf ".env"

/-- Adds the variables of the settings file of the working directory, if there is
one. -/
def addFrom? (environment : Environment) (files : Files) : Option Environment :=
  match files.look fileName with
  | .ok (.file bytes) => addFile? environment bytes
  | _ => some environment

end Settings

end PipeCast
