import PipeCast.Text.Blank
import PipeCast.Text.Numeral
import PipeCast.Text.Utf8

/-!
# Configuration

Four settings, each read from a variable of its own. A variable that is missing or
cannot be read gives the default of its setting and influences no other.
-/

set_option autoImplicit false

namespace PipeCast

open Text

structure Config where
  port : UInt16
  pipePath : String
  /-- The delay before a failed opening of the pipe is tried again, in seconds. -/
  retrySeconds : UInt64
  /-- Whether a client's text is sent to every client. -/
  relaysClients : Bool
  deriving DecidableEq, Repr

namespace Config

def defaultPort : UInt16 := 8420

def defaultPipePath : String := "/tmp/foos-debug.in"

def defaultRetrySeconds : UInt64 := 5

def portVariable : String := "PORT"

def pathVariable : String := "FIFO_PATH"

def retryVariable : String := "FIFO_RETRY_SECS"

def relayVariable : String := "RELAY_CLIENT_MESSAGES"

/-- The spellings that set the relay flag, in lower case. -/
def affirmatives : List String := ["1", "true", "yes", "on"]

/-- A numeral of at most `limit` between blanks. -/
def numeral? (limit : Nat) (value : String) : Option Nat :=
  Numeral.read? limit (trim value.toList)

/-- Whether a value sets the relay flag: blanks around it are ignored, and case in
ASCII only. -/
def isAffirmative (value : String) : Bool :=
  affirmatives.contains (String.ofList ((trim value.toList).map Char.toLower))

/-- Reads the settings from any source of variables. The path alone is taken as it
stands, blanks included. -/
def read (lookup : String → Option String) : Config where
  port := (((lookup portVariable).bind (numeral? 65535)).map Nat.toUInt16).getD defaultPort
  pipePath := ((lookup pathVariable).filter (· ≠ "")).getD defaultPipePath
  retrySeconds :=
    (((lookup retryVariable).bind (numeral? 18446744073709551615)).map Nat.toUInt64).getD
      defaultRetrySeconds
  relaysClients := ((lookup relayVariable).map isAffirmative).getD false

/-- Reads the settings from an environment of byte strings. A value that is not
valid UTF-8 counts as missing. -/
def readBytes (lookup : String → Option (List UInt8)) : Config :=
  read fun name => (lookup name).bind Utf8.readStrict?

def default : Config := read fun _ => none

end Config

end PipeCast
