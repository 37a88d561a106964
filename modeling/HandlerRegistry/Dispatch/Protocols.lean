import HandlerRegistry.Dispatch.Request

/-!
# The handlers of `ftp`, `http` and `https`

Each handler serves the URLs of its schemes. A request that it serves is reported once and counted;
one that it does not serve has no effect.
-/

namespace HandlerRegistry.Dispatch
set_option autoImplicit false

/-- The reply to a request that is not served. -/
def Reply.refused (status : Status) (call : Call) : Reply :=
  ⟨status, call.request, [], call.data⟩

/-- The reply to a request that is served: one report of progress, one count. -/
def Reply.served (call : Call) : Reply :=
  ⟨.ok, call.request, [call.request], call.data.count⟩

namespace Protocols

/-- The handler of `ftp`. A URL that ends in a slash names a directory, which is no file to
fetch. -/
def ftp : Handler := fun call =>
  if call.request.scheme? ≠ some "ftp" then .refused .unsupported call
  else if call.request.url.toList.getLast? = some '/' then .refused .protocol call
  else if call.stop then .refused .aborted call
  else .served call

/-- The handler of `http`, which serves `https` as well. It needs at least one connection. -/
def http : Handler := fun call =>
  if call.request.scheme? ≠ some "http" ∧ call.request.scheme? ≠ some "https" then
    .refused .unsupported call
  else if call.options.maxConnections = 0 then .refused .protocol call
  else if call.stop then .refused .aborted call
  else .served call

/-- The handler of `https`, which leaves the request to that of `http`. -/
def https : Handler := fun call =>
  if call.request.scheme? ≠ some "https" then .refused .unsupported call else http call

end Protocols
end HandlerRegistry.Dispatch
