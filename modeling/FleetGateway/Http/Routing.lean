import FleetGateway.Http.Parser
import FleetGateway.Http.Response

/-! `Router`: handlers under their exact method and path, behind the rate limiter. -/

namespace FleetGateway.Http.Routing
open Library Library.ByteStore Http.Parser Http.Response

structure RouteKey where
  method : Bytes
  path : Bytes
  deriving DecidableEq

structure Router (Handler : Type) where
  routes : AList (fun _ : RouteKey => Handler) := ∅

variable {Handler : Type}

/-- `insert_or_assign`: registering a method and path again replaces the handler. -/
def Router.addRoute (method path : Bytes) (handler : Handler) (router : Router Handler) : Router Handler :=
  { router with routes := router.routes.insert ⟨method, path⟩ handler }

def Router.find (request : HttpRequest) (router : Router Handler) : Option Handler :=
  router.routes.lookup ⟨request.method, request.path⟩

def tooManyRequests : HttpResponse :=
  { statusCode := 429, reason := text "Too Many Requests", body := text "Too Many Requests" }

def notFound : HttpResponse := { statusCode := 404, reason := text "Not Found", body := text "Not Found" }

/-- `route` once the limiter has answered: a response of its own, or the handler that it calls. -/
def Router.route (allowed : Bool) (request : HttpRequest) (router : Router Handler) : HttpResponse ⊕ Handler :=
  if !allowed then .inl tooManyRequests
  else match router.find request with
    | none => .inl notFound
    | some handler => .inr handler

theorem find_addRoute (router : Router Handler) (method path : Bytes) (handler : Handler) (request : HttpRequest) :
    (router.addRoute method path handler).find request =
      if request.method = method ∧ request.path = path then some handler else router.find request := by
  split
  next same =>
    rw [Router.find, same.1, same.2]
    exact AList.lookup_insert router.routes
  next other =>
    apply AList.lookup_insert_ne
    intro same
    cases same
    exact other ⟨rfl, rfl⟩

end FleetGateway.Http.Routing
