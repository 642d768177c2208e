import PipeCast.Startup.Filter.Pattern.Atom

/-!
# Brackets of patterns

Brackets hold the characters of which one must stand at a place: single ones,
ranges, classes by name and further brackets, side by side or with operators
between them. Here brackets are read for two facts: where they end, and how deep
they are.
-/

set_option autoImplicit false

namespace PipeCast.Log.Pattern

/-- The depth of parts that stand side by side. A part that stands alone adds no
level. -/
def depthOf : List Nat → Nat
  | [] => 0
  | [depth] => depth
  | depths => depths.foldl max 0 + 1

namespace Bracket

/-- What has been read after an opening bracket. -/
inductive Place where
  | opening
  /-- Nothing but a negation and dashes. -/
  | leading
  | inside
  deriving DecidableEq, Repr

structure Open where
  place : Place
  /-- The depths of the parts after the last operator. -/
  parts : List Nat
  /-- The depth of everything before the last operator. -/
  before : Option Nat
  deriving DecidableEq, Repr

namespace Open

def fresh : Open := ⟨.opening, [], none⟩

/-- The depth of what has been read. An operator adds a level to its operands. -/
def depth (bracket : Open) : Nat :=
  match bracket.before with
  | some before => max before (depthOf bracket.parts) + 1
  | none => depthOf bracket.parts

def add (bracket : Open) (place : Place) (depth : Nat) : Open :=
  { bracket with place := place, parts := depth :: bracket.parts }

def operate (bracket : Open) : Open := ⟨.inside, [], some bracket.depth⟩

end Open

def classNames : List String :=
  ["alnum", "alpha", "ascii", "blank", "cntrl", "digit", "graph", "lower", "print", "punct",
   "space", "upper", "word", "xdigit"]

/-- Reads a class by name after an opening bracket: its name between colons, and the
closing bracket. The result tells whether the class is negated. -/
def readClass? : List Char → Option (Bool × List Char)
  | ':' :: text =>
      let isNegated := text.head? = some '^'
      let text := if isNegated then text.drop 1 else text
      let name := text.takeWhile (· ≠ ':')
      match text.drop name.length with
      | ':' :: ']' :: rest =>
          if classNames.contains (String.ofList name) then some (isNegated, rest) else none
      | _ => none
  | _ => none

/-- Whether a class by name may stand between brackets. -/
def allowsClass (options : Options) (isNegated : Bool) : Bool :=
  if options.isUnicode then !options.ignoresCase else !isNegated

def readAtom? (options : Options) (first : Char) (rest : List Char) :
    Option (Atom × List Char) :=
  if first = '\\' then Atom.readEscape? options rest else some (.literal first false, rest)

def isRange (options : Options) : Atom → Atom → Bool
  | .literal low lowByte, .literal high highByte =>
      options.allowsInside (.literal low lowByte) &&
        options.allowsInside (.literal high highByte) && decide (low ≤ high)
  | _, _ => false

/-- Reads a single atom or a range, and gives what follows. A dash before the closing
bracket or before another dash makes no range. -/
def readItem? (options : Options) (first : Char) (rest : List Char) : Option (List Char) := do
  let (atom, rest) ← readAtom? options first rest
  let single := if options.allowsInside atom then some (options.skip rest) else none
  match options.skip rest with
  | '-' :: after =>
      if [some ']', some '-'].contains (options.peek? after) then single
      else
        match options.skip after with
        | [] => none
        | second :: rest => do
            let (last, rest) ← readAtom? options second rest
            if isRange options atom last then some rest else none
  | _ => single

def isOperator (first second : Char) : Bool :=
  first = second && ['&', '-', '~'].contains first

/-- Reads up to the end of the outermost bracket, and gives its depth with what
follows. Every turn takes at least one character, so that as many turns as there are
characters suffice. -/
def read? (options : Options) : Nat → Open → List Open → List Char → Option (Nat × List Char)
  | 0, _, _, _ => none
  | turns + 1, bracket, outer, text =>
      match options.skip text with
      | [] => none
      | first :: rest =>
          if bracket.place = .opening ∧ first = '^' then
            if options.isUnicode then
              read? options turns { bracket with place := .leading } outer rest
            else none
          else if bracket.place ≠ .inside ∧ first = '-' then
            if options.allowsInside (.literal first false) then
              read? options turns (bracket.add .leading 0) outer rest
            else none
          else if bracket.place ≠ .inside ∧ bracket.parts.isEmpty ∧ first = ']' then
            if options.allowsInside (.literal first false) then
              read? options turns (bracket.add .inside 0) outer rest
            else none
          else if first = ']' then
            match outer with
            | [] => some (bracket.depth + 1, rest)
            | parent :: outer =>
                read? options turns (parent.add .inside (bracket.depth + 1)) outer rest
          else if first = '[' then
            match readClass? rest with
            | some (isNegated, rest) =>
                if allowsClass options isNegated then
                  read? options turns (bracket.add .inside 0) outer rest
                else none
            | none => read? options turns .fresh (bracket :: outer) rest
          else if rest.head?.any (isOperator first) then
            read? options turns bracket.operate outer (rest.drop 1)
          else
            (readItem? options first rest).bind
              (read? options turns (bracket.add .inside 0) outer)

def readAll? (options : Options) (text : List Char) : Option (Nat × List Char) :=
  read? options text.length .fresh [] text

end Bracket

end PipeCast.Log.Pattern
