import HandlerRegistry.Text.Split

/-!
# Requests and their handlers

A request is made to a handler together with the caller's stop flag, options and data. The handler
answers with a status; on its way it may report progress, each time showing the request as it then
is.

* `Request.scheme?`: what the URL names before `://`.
* `Request.advance`: more bytes received; the count stays at its maximum once it is reached.
* `Handler`: a handler as a function from a call to a reply.
-/

namespace HandlerRegistry.Dispatch
set_option autoImplicit false

/-! ## Status -/

/-- How a handler ends. -/
inductive Status where
  | ok
  /-- The stop flag was raised before the request was done. -/
  | aborted
  /-- The handler does not serve what is requested. -/
  | unsupported
  | io
  | protocol
deriving DecidableEq, Repr

/-- The number of a status, which never changes. -/
def Status.code : Status → Nat
  | .ok => 0
  | .aborted => 1
  | .unsupported => 2
  | .io => 3
  | .protocol => 4

def Status.isOk (status : Status) : Bool := status == .ok

/-! ## Requests -/

/-- A request: what is asked for, and how much of it has arrived. -/
structure Request where
  url : String
  /-- The expected number of bytes, once it is known. -/
  total : Option UInt64
  /-- The number of bytes received so far. -/
  received : UInt64
deriving DecidableEq, Repr

namespace Request

/-- A request of which nothing is known yet. -/
def ofUrl (url : String) : Request := ⟨url, none, 0⟩

/-- The mark between the scheme of a URL and the rest. -/
def schemeMark : List Char := [':', '/', '/']

/-- The scheme of the URL: all that stands before the first mark. -/
def scheme? (request : Request) : Option String :=
  (Text.splitAtFirst schemeMark request.url.toList).map fun parts => String.ofList parts.1

/-- The greatest number of bytes that is counted. -/
def maxReceived : Nat := UInt64.size - 1

def advance (request : Request) (bytes : UInt64) : Request :=
  { request with
    received := UInt64.ofNat (min maxReceived (request.received.toNat + bytes.toNat)) }

def setTotal (request : Request) (total : UInt64) : Request :=
  { request with total := some total }

theorem toNat_advance (request : Request) (bytes : UInt64) :
    (request.advance bytes).received.toNat =
      min maxReceived (request.received.toNat + bytes.toNat) := by
  simp only [advance, maxReceived, UInt64.size, UInt64.toNat_ofNat']
  omega

end Request

/-! ## What the caller brings -/

/-- The caller's wishes. -/
structure Options where
  maxConnections : UInt64
  userAgent : Option String
  /-- The time limit in milliseconds. -/
  timeout : UInt64
deriving DecidableEq, Repr

/-- The wishes of a caller who has none. -/
def Options.standard : Options := ⟨1, none, 30000⟩

/-- The caller's own data, handed to the handler. Only a counter means something to the handlers of
this library. -/
inductive UserData where
  | absent
  | counter (calls : UInt32)
  | number (value : UInt64)
  | text (value : String)
deriving DecidableEq, Repr

def UserData.count : UserData → UserData
  | .counter calls => .counter (calls + 1)
  | data => data

/-- One call of a handler. -/
structure Call where
  request : Request
  /-- Whether the caller wants the request to end. -/
  stop : Bool
  options : Options
  data : UserData
deriving DecidableEq, Repr

/-- A call with a new request and nothing else said. -/
def Call.ofUrl (url : String) : Call := ⟨.ofUrl url, false, .standard, .absent⟩

/-- What a call leaves. -/
structure Reply where
  status : Status
  /-- The request afterwards. -/
  request : Request
  /-- The request as it was shown at each report of progress. -/
  progress : List Request
  /-- The caller's data afterwards. -/
  data : UserData
deriving DecidableEq, Repr

/-- A handler of requests. -/
abbrev Handler := Call → Reply

end HandlerRegistry.Dispatch
