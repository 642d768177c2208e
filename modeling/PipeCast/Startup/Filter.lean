import PipeCast.Startup.Filter.Pattern
import PipeCast.Text.Alphanumeric
import PipeCast.Text.Blank
import PipeCast.Text.Slice

/-!
# Log filters

A filter is a list of directives between commas. A directive sets the level of
everything that it fits: of all targets or of those that begin with a name, and of
all lines or of those with a field. The directive that says most decides, and among
equals the last one. What no directive fits is not logged.

A directive may also name a span or ask for the value of a field. Such a directive
is read, but nothing is logged on account of it: no line is written inside a span.
-/

set_option autoImplicit false

namespace PipeCast.Log

open Text

/-- How much is written, from nothing to everything. -/
inductive Level where
  | off
  | error
  | warn
  | info
  | debug
  | trace
  deriving DecidableEq, Repr

namespace Level

def rank : Level → Nat
  | .off => 0
  | .error => 1
  | .warn => 2
  | .info => 3
  | .debug => 4
  | .trace => 5

def name : Level → String
  | .off => "OFF"
  | .error => "ERROR"
  | .warn => "WARN"
  | .info => "INFO"
  | .debug => "DEBUG"
  | .trace => "TRACE"

def all : List Level := [off, error, warn, info, debug, trace]

/-- A level by its name, in any case, or by its rank as a numeral. -/
def read? (text : List Char) : Option Level :=
  match Numeral.read? 5 text with
  | some rank => all.find? (·.rank = rank)
  | none => all.find? fun level => (String.ofList text).toUpper = level.name

end Level

/-! ## Directives -/

/-- A field that a directive asks for. -/
structure Field where
  name : String
  hasValue : Bool
  deriving DecidableEq, Repr

structure Directive where
  /-- What the target begins with. -/
  target : Option (List Char)
  span : Option (List Char)
  field : Option Field
  level : Level
  deriving DecidableEq, Repr

namespace Directive

inductive Fault where
  | unreadable
  /-- A part of the directive would begin or end inside a character. -/
  | divided
  deriving DecidableEq, Repr

/-- Which part of a directive is being read. Parts that are kept have the offset at
which they began. -/
inductive Part where
  | start
  | levelOrTarget (start : Nat)
  | span (start : Nat)
  | field (start : Nat)
  | fields
  | bracketed
  | level (start : Nat)
  deriving DecidableEq, Repr

structure Reading where
  part : Part
  directive : Directive
  deriving DecidableEq, Repr

/-- A directive before its first character. It would let everything through. -/
def Reading.fresh : Reading := ⟨.start, ⟨none, none, none, .trace⟩⟩

def slice (text : List Char) (start stop : Nat) : Except Fault (List Char) :=
  match sliceAt? text start stop with
  | some part => .ok part
  | none => .error .divided

def remainder (text : List Char) (start : Nat) : Except Fault (List Char) :=
  match tailAt? text start with
  | some part => .ok part
  | none => .error .divided

/-- Reads a field: a name, and a value after an equals sign. What follows a second
equals sign is dropped. -/
def readField (text : List Char) : Except Fault Field :=
  match text.splitOnP (· = '=') with
  | [] | [[]] => .error .unreadable
  | [name] => .ok ⟨String.ofList name, false⟩
  | name :: value :: _ =>
      if Pattern.isValue value then .ok ⟨String.ofList name, true⟩ else .error .unreadable

/-- Whether a character may begin a directive that does not begin with a bracket. -/
def isFirst (character : Char) : Bool :=
  isAlphanumeric character || character = '-' || character = ':' || character = '_'

/-- Reads one character of a text. Offsets do not count the blanks before the text. -/
def Reading.step (text : List Char) (reading : Reading) (offset : Nat) (character : Char) :
    Except Fault Reading :=
  let directive := reading.directive
  match reading.part with
  | .start =>
      if character = '[' then .ok ⟨.span (offset + 1), directive⟩
      else if isFirst character then .ok ⟨.levelOrTarget offset, directive⟩
      else .error .unreadable
  | .levelOrTarget start =>
      if character = '=' ∨ character = '[' then do
        let target ← slice text start offset
        let next := if character = '=' then Part.level (offset + 1) else .span (offset + 1)
        return ⟨next, { directive with target := some target }⟩
      else .ok reading
  | .span start =>
      if character = ']' then do
        let name ← slice text start offset
        return ⟨.bracketed, { directive with span := some name }⟩
      else if character = '\x7b' then do
        let name ← slice text start offset
        let span := if name.isEmpty then none else some name
        return ⟨.field (offset + 1), { directive with span := span }⟩
      else .ok reading
  | .field start =>
      if character = '\x7d' then do
        let field ← readField (← slice text start offset)
        return ⟨.fields, { directive with field := some field }⟩
      else .ok reading
  | .fields =>
      if character = ']' then .ok ⟨.bracketed, directive⟩ else .error .unreadable
  | .bracketed =>
      if character = '=' then .ok ⟨.level (offset + 1), directive⟩ else .error .unreadable
  | .level _ => .ok reading

def Reading.steps (text : List Char) (reading : Reading) (offset : Nat) :
    List Char → Except Fault Reading
  | [] => .ok reading
  | character :: rest => do
      let next ← reading.step text offset character
      next.steps text (offset + character.utf8Size) rest

/-- What a directive comes to at the end of its text. A target without a level gets
everything. -/
def Reading.finish (text : List Char) (reading : Reading) : Except Fault Directive :=
  let directive := reading.directive
  match reading.part with
  | .levelOrTarget start => do
      let name ← remainder text start
      match Level.read? name with
      | some level => return { directive with level := level }
      | none => return { directive with target := some name }
  | .level start => do
      let name ← remainder text start
      if name.isEmpty then return directive
      else
        match Level.read? name with
        | some level => return { directive with level := level }
        | none => throw .unreadable
  | .bracketed => .ok directive
  | _ => .error .unreadable

/-- Reads a directive. Blanks around it are skipped in looking for its parts. The
parts are cut from the text with its blanks, at offsets that do not count those
before it; so blanks before a directive move its parts. -/
def read (text : List Char) : Except Fault Directive := do
  let reading ← Reading.fresh.steps text 0 (trim text)
  reading.finish text

/-! ## Fitting -/

structure Subject where
  level : Level
  target : String
  fields : List String
  deriving DecidableEq, Repr

def isApplicable (directive : Directive) : Bool :=
  directive.span.isNone && (directive.field.all fun field => !field.hasValue)

def fits (directive : Directive) (subject : Subject) : Bool :=
  directive.isApplicable &&
    (directive.target.all fun name => name.isPrefixOf subject.target.toList) &&
    (directive.field.all fun field => subject.fields.contains field.name)

/-- How much of a target a directive names. Naming none is less than naming all. -/
def reach (directive : Directive) : Nat :=
  (directive.target.map fun name => name.length + 1).getD 0

/-- Whether a directive says at least as much as another that fits too: about the
target, then about fields. Names of fields count in their order. -/
def saysAsMuch (directive other : Directive) : Bool :=
  if directive.reach = other.reach then
    match other.field, directive.field with
    | none, _ => true
    | some _, none => false
    | some known, some field => !(field.name < known.name)
  else other.reach < directive.reach

end Directive

/-! ## Filters -/

/-- A filter is its directives in order. -/
abbrev Filter := List Directive

namespace Filter

/-- Reads a filter. Directives without text are skipped. -/
def read (text : String) : Except Directive.Fault Filter :=
  ((text.toList.splitOnP (· = ',')).filter fun part => !part.isEmpty).mapM Directive.read

/-- The filter when none is given. It lets information and everything graver
through. -/
def default : Filter := [⟨none, none, none, .info⟩]

/-- The filter named by a setting. A setting that is missing or cannot be read gives
the default; one that divides a character gives none. -/
def ofSetting? (setting : Option String) : Option Filter :=
  match setting.map read with
  | some (.ok filter) => some filter
  | some (.error .divided) => none
  | some (.error .unreadable) | none => some default

def deciding? (filter : Filter) (subject : Directive.Subject) : Option Directive :=
  (filter.filter (·.fits subject)).foldl (fun best directive =>
    match best with
    | none => some directive
    | some known => if directive.saysAsMuch known then some directive else some known) none

def lets (filter : Filter) (subject : Directive.Subject) : Bool :=
  (filter.deciding? subject).any fun directive => subject.level.rank ≤ directive.level.rank

end Filter

end PipeCast.Log
