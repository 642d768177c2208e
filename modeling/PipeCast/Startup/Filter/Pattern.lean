import PipeCast.Startup.Filter.Pattern.Bracket
import PipeCast.Text.Alphanumeric

/-!
# Patterns for the values of fields

A directive may ask for a field whose value is a number or fits a pattern. Here a
pattern is only checked: its groups and its brackets are closed, a repetition has
something to repeat, nothing is nested too deep, and every part of it is allowed
under the options that are set where it stands.
-/

set_option autoImplicit false

namespace PipeCast.Log.Pattern

open Text

def depthLimit : Nat := 250

/-- A part of a pattern that has been read. -/
structure Part where
  depth : Nat
  /-- Whether it can be repeated. A change of options cannot. -/
  isRepeatable : Bool
  deriving DecidableEq, Repr

/-- What stood before a group, and holds again after it. -/
structure Outside where
  options : Options
  parts : List Part
  branches : List Nat
  deriving DecidableEq, Repr

structure Reading where
  options : Options
  /-- The parts of the present branch, latest first. -/
  parts : List Part
  /-- The depths of the branches before it in its group. -/
  branches : List Nat
  /-- The groups that are open, innermost first. -/
  outside : List Outside
  names : List (List Char)
  deriving DecidableEq, Repr

namespace Reading

def start : Reading := ⟨.start, [], [], [], []⟩

def branchDepth (reading : Reading) : Nat := depthOf (reading.parts.map (·.depth))

/-- The depth of the present group, which is that of its branches. -/
def depth (reading : Reading) : Nat := depthOf (reading.branchDepth :: reading.branches)

def add (reading : Reading) (depth : Nat) : Reading :=
  { reading with parts := ⟨depth, true⟩ :: reading.parts }

def addAtom? (reading : Reading) (atom : Atom) : Option Reading :=
  if reading.options.allows atom then some (reading.add 0) else none

def endBranch (reading : Reading) : Reading :=
  { reading with parts := [], branches := reading.branchDepth :: reading.branches }

/-- Opens a group, in which these options hold. -/
def openGroup (reading : Reading) (options : Options) : Reading :=
  { reading with
      options := options
      parts := []
      branches := []
      outside := ⟨reading.options, reading.parts, reading.branches⟩ :: reading.outside }

def closeGroup? (reading : Reading) : Option Reading :=
  match reading.outside with
  | [] => none
  | found :: outside =>
      some { reading with
        options := found.options
        parts := ⟨reading.depth + 1, true⟩ :: found.parts
        branches := found.branches
        outside := outside }

def changeOptions (reading : Reading) (marks : List Char) : Reading :=
  { reading with
      options := reading.options.change marks
      parts := ⟨0, false⟩ :: reading.parts }

def repeat? (reading : Reading) : Option Reading :=
  match reading.parts with
  | ⟨depth, true⟩ :: earlier => some { reading with parts := ⟨depth + 1, true⟩ :: earlier }
  | _ => none

/-! ## Groups -/

/-- Whether a text is a name: a letter or an underscore, then also numbers, points and
brackets. -/
def isName : List Char → Bool
  | [] => false
  | first :: rest =>
      (first = '_' || isAlphabetic first) && rest.all fun character =>
        isAlphanumeric character || ['_', '.', '[', ']'].contains character

/-- Reads the name of a group, which no other group may have, and opens the group. -/
def readNamed? (reading : Reading) (text : List Char) : Option (Reading × List Char) :=
  let name := text.takeWhile (· ≠ '>')
  match text.drop name.length with
  | [] => none
  | _ :: rest =>
      if isName name && !reading.names.contains name then
        some (({ reading with names := name :: reading.names }).openGroup reading.options, rest)
      else none

/-- Reads options up to a colon, which opens a group with them, or up to a
parenthesis. -/
def readOptions? (reading : Reading) (text : List Char) : Option (Reading × List Char) :=
  let marks := text.takeWhile fun character => character ≠ ':' && character ≠ ')'
  if !Options.isChange marks then none
  else
    match text.drop marks.length with
    | ':' :: rest => some (reading.openGroup (reading.options.change marks), rest)
    | _ :: rest => if marks.isEmpty then none else some (reading.changeOptions marks, rest)
    | [] => none

def readGroup? (reading : Reading) (text : List Char) : Option (Reading × List Char) :=
  match reading.options.skip text with
  | '?' :: 'P' :: '<' :: rest => reading.readNamed? rest
  | '?' :: '<' :: rest => reading.readNamed? rest
  | '?' :: rest => reading.readOptions? rest
  | rest => some (reading.openGroup reading.options, rest)

/-! ## The whole -/

/-- Reads one part of a pattern. A question mark right after a repetition belongs to
it. Braces are no part of a pattern, since one that closes would end the field. -/
def step? (reading : Reading) (first : Char) (rest : List Char) :
    Option (Reading × List Char) :=
  match first with
  | '(' => reading.readGroup? rest
  | ')' => reading.closeGroup?.map (·, rest)
  | '|' => some (reading.endBranch, rest)
  | '[' => (Bracket.readAll? reading.options rest).map fun (depth, rest) =>
      (reading.add depth, rest)
  | '\x7b' => none
  | '*' | '+' | '?' =>
      reading.repeat?.map (·, if rest.head? = some '?' then rest.drop 1 else rest)
  | '\\' => do
      let (atom, rest) ← Atom.readEscape? reading.options rest
      return (← reading.addAtom? atom, rest)
  | '.' => (reading.addAtom? .dot).map (·, rest)
  | '^' | '$' => (reading.addAtom? .border).map (·, rest)
  | _ => (reading.addAtom? (.literal first false)).map (·, rest)

/-- Reads to the end. Every turn but the last takes at least one character. -/
def run? : Nat → Reading → List Char → Option Reading
  | 0, _, _ => none
  | turns + 1, reading, text =>
      match reading.options.skip text with
      | [] => some reading
      | first :: rest => do
          let (reading, rest) ← reading.step? first rest
          run? turns reading rest

end Reading

def isPattern (text : List Char) : Bool :=
  (Reading.start.run? (text.length + 1) text).any fun reading =>
    reading.outside.isEmpty && reading.depth ≤ depthLimit

/-! ## Numbers -/

/-- Whether a text is a decimal number with a fraction or an exponent at will. -/
def isDecimal (text : List Char) : Bool :=
  let whole := text.takeWhile Char.isDigit
  let rest := text.drop whole.length
  let fraction :=
    match rest with
    | '.' :: rest => rest.takeWhile Char.isDigit
    | _ => []
  let rest := if rest.head? = some '.' then rest.drop (fraction.length + 1) else rest
  let hasExponent (rest : List Char) : Bool := !rest.isEmpty && rest.all Char.isDigit
  !(whole ++ fraction).isEmpty &&
    match rest with
    | [] => true
    | mark :: '-' :: rest => mark.toLower = 'e' && hasExponent rest
    | mark :: rest => mark.toLower = 'e' && hasExponent (Numeral.unsigned rest)

/-- Whether a text is a number with a plus sign, which is no pattern. -/
def isSignedNumber : List Char → Bool
  | '+' :: rest =>
      isDecimal rest || ["inf", "infinity", "nan"].contains (String.ofList (rest.map Char.toLower))
  | _ => false

/-- Whether a text may be asked for as the value of a field. -/
def isValue (text : List Char) : Bool := isSignedNumber text || isPattern text

end PipeCast.Log.Pattern
