import PipeCast.Http.Request

/-!
# Routes

Two paths are served: the root, where a client asks to speak WebSocket, and the
health of the server. Paths match exactly, and what follows them in a target is
ignored.
-/

set_option autoImplicit false

namespace PipeCast.Http

/-- A response. Of the headers, those that depend on the request. -/
structure Response where
  status : Nat
  headers : List (String × String)
  body : String
  deriving DecidableEq, Repr

def plainText : String := "text/plain; charset=utf-8"

def structured : String := "application/json"

/-- The methods that a served path allows. -/
def allowed : String := "GET,HEAD"

def Response.empty (status : Nat) : Response := ⟨status, [], ""⟩

def Response.notAllowed : Response := ⟨405, [("allow", allowed)], ""⟩

def Response.unreadable : Target.Fault → Response
  | .tooLong => .empty 414
  | _ => .empty 400

def Response.notFound : Response := .empty 404

def Response.withoutBody (response : Response) : Response := { response with body := "" }

/-! ## Asking for WebSocket -/

/-- Why a request to speak WebSocket is refused. The first fault counts. -/
inductive UpgradeFault where
  | connection
  | upgrade
  | key
  | version
  /-- The request did not come over a connection that could change its protocol. -/
  | noConnection
  deriving DecidableEq, Repr

namespace UpgradeFault

def status : UpgradeFault → Nat
  | .noConnection => 426
  | _ => 400

def message : UpgradeFault → String
  | .connection => "Connection header did not include 'upgrade'"
  | .upgrade => "\x60Upgrade\x60 header did not include 'websocket'"
  | .key => "\x60Sec-WebSocket-Key\x60 header missing"
  | .version => "\x60Sec-WebSocket-Version\x60 header did not include '13'"
  | .noConnection => "WebSocket request couldn't be upgraded since no upgrade state was present"

def response (fault : UpgradeFault) : Response :=
  ⟨fault.status, [("content-type", plainText)], fault.message⟩

end UpgradeFault

/-- Whether one list of characters stands somewhere in another. -/
def occursIn (part : List Char) : List Char → Bool
  | [] => part.isEmpty
  | text@(_ :: rest) => part.isPrefixOf text || occursIn part rest

/-- Whether a request may speak WebSocket on a connection that can change its
protocol, or the fault found first. -/
def checkUpgrade (request : Request) (canUpgrade : Bool) : Except UpgradeFault Unit :=
  if !((request.header? "connection").any fun value =>
      occursIn "upgrade".toList value.toLower.toList) then .error .connection
  else if (request.header? "upgrade").map String.toLower ≠ some "websocket" then .error .upgrade
  else if (request.header? "sec-websocket-key").isNone then .error .key
  else if request.header? "sec-websocket-version" ≠ some "13" then .error .version
  else if !canUpgrade then .error .noConnection
  else .ok ()

def respondToUpgrade (request : Request) (canUpgrade : Bool) : Response :=
  match checkUpgrade request canUpgrade with
  | .error fault => fault.response
  | .ok () => .empty 101

/-! ## The routes -/

def health (clients : Nat) : Response :=
  ⟨200, [("content-type", structured)],
    "\x7b\"clients\":" ++ toString clients ++ ",\"status\":\"ok\"\x7d"⟩

/-- The response to a request for a path, when this many clients are registered. -/
def respondAt (path : String) (clients : Nat) (canUpgrade : Bool) (request : Request) :
    Response :=
  match path, request.method with
  | "/health", "GET" => health clients
  | "/health", "HEAD" => (health clients).withoutBody
  | "/health", _ => .notAllowed
  | "/", "GET" => respondToUpgrade request canUpgrade
  | "/", "HEAD" => ⟨405, [("content-type", plainText)], ""⟩
  | "/", _ => .notAllowed
  | _, _ => .notFound

/-- The response to a request, when this many clients are registered. Only a
request that came over a connection can make it speak WebSocket. -/
def respond (clients : Nat) (canUpgrade : Bool) (request : Request) : Response :=
  match request.pathOver canUpgrade with
  | .ok path => respondAt path clients canUpgrade request
  | .error fault => .unreadable fault

def upgradeHeaders : List (String × String) :=
  [("connection", "Upgrade"), ("upgrade", "websocket"), ("sec-websocket-version", "13"),
   ("sec-websocket-key", "dGhlIHNhbXBsZSBub25jZQ==")]

/-! ## Sharing between origins -/

def isServed (path : String) : Bool := path = "/" || path = "/health"

def sharingHeaders : List (String × String) :=
  [("access-control-allow-origin", "*"),
   ("vary", "origin, access-control-request-method, access-control-request-headers")]

/-- The response to a question what may be asked, which is the same everywhere but
for the methods of a served path. -/
def respondToOptions (path : String) : Response :=
  ⟨200, sharingHeaders ++
    [("access-control-allow-methods", "*"), ("access-control-allow-headers", "*")] ++
    (if isServed path then [("allow", allowed)] else []), ""⟩

def respondToAny (clients : Nat) (canUpgrade : Bool) (request : Request) : Response :=
  match request.pathOver canUpgrade with
  | .error fault => .unreadable fault
  | .ok path =>
      if request.method = "OPTIONS" then respondToOptions path
      else
        let response := respondAt path clients canUpgrade request
        { response with headers := response.headers ++ sharingHeaders }

end PipeCast.Http
