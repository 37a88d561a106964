import HandlerRegistry.Dispatch.Registry

/-!
# Sessions

A session is the life of one request: its caller changes the request, the stop flag, the options and
the data, and calls handlers in between.

* `Session.step`: one step of a session, with what it shows.
* `Session.run`: a whole session.
-/

namespace HandlerRegistry.Dispatch
set_option autoImplicit false

/-- The state of a session. -/
structure Session where
  /-- The next call, as it would be made now. -/
  call : Call
  /-- A copy of an earlier request. -/
  saved : Request
deriving DecidableEq, Repr

namespace Session

def start : Session := ⟨.ofUrl "", .ofUrl ""⟩

/-- One step of a session. -/
inductive Step where
  /-- A new request for a URL. -/
  | request (url : String)
  | advance (bytes : UInt64)
  | setTotal (total : UInt64)
  | save
  | restore
  | compare
  | stop (raised : Bool)
  | options (options : Options)
  | data (data : UserData)
  | call (handler : String)
deriving DecidableEq, Repr

/-- What a step shows. -/
inductive Shown where
  | request (request : Request)
  | flag (value : Bool)
  | options (options : Options)
  | data (data : UserData)
  | reply (reply : Reply)
  /-- There is no handler of the name called. -/
  | noHandler
deriving DecidableEq, Repr

def withRequest (session : Session) (request : Request) : Session :=
  { session with call := { session.call with request := request } }

/-- One step of a session: what it shows, and the session after it. -/
def step (session : Session) : Step → Shown × Session
  | .request url => (.request (.ofUrl url), session.withRequest (.ofUrl url))
  | .advance bytes =>
    (.request (session.call.request.advance bytes),
      session.withRequest (session.call.request.advance bytes))
  | .setTotal total =>
    (.request (session.call.request.setTotal total),
      session.withRequest (session.call.request.setTotal total))
  | .save => (.request session.call.request, { session with saved := session.call.request })
  | .restore => (.request session.saved, session.withRequest session.saved)
  | .compare => (.flag (session.call.request == session.saved), session)
  | .stop raised => (.flag raised, { session with call := { session.call with stop := raised } })
  | .options options =>
    (.options options, { session with call := { session.call with options := options } })
  | .data data => (.data data, { session with call := { session.call with data := data } })
  | .call name =>
    match Registry.lookup name with
    | none => (.noHandler, session)
    | some handler =>
      let reply := handler session.call
      (.reply reply,
        { session with
          call := { session.call with request := reply.request, data := reply.data } })

/-- A whole session: what its steps show, and the session at its end. -/
def run (session : Session) : List Step → List Shown × Session
  | [] => ([], session)
  | step :: rest =>
    let first := session.step step
    let others := run first.2 rest
    (first.1 :: others.1, others.2)

end Session
end HandlerRegistry.Dispatch
