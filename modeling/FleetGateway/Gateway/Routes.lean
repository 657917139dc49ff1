import FleetGateway.Http.Routing
import FleetGateway.Network.Recent

/-! The routes that `main` registers and what their handlers do. -/

namespace FleetGateway.Gateway.Routes
open Library Library.ByteStore Http.Parser Http.Response Http.Routing Storage.Format Storage.Disk Storage.Log
  Network.Recent

inductive Handler where
  | health
  | connections
  | metrics
  | recent
  | publish
  | largeResponse
  | hold
  deriving DecidableEq

/-- The last route is there only with `GATEWAY_TEST_MODE` in the environment. -/
def routes (testMode : Bool) : Router Handler :=
  let router := ({} : Router Handler)
    |>.addRoute (text "GET") (text "/health") .health
    |>.addRoute (text "GET") (text "/connections") .connections
    |>.addRoute (text "GET") (text "/metrics") .metrics
    |>.addRoute (text "GET") (text "/recent") .recent
    |>.addRoute (text "POST") (text "/publish") .publish
    |>.addRoute (text "GET") (text "/large-response") .largeResponse
  if testMode then router.addRoute (text "GET") (text "/test/hold") .hold else router

/-- What a handler finds when it looks outside the log: which calls of the file system fail, the
wall clock, the number of open connections, and the text of `metrics_text` unless that throws. -/
structure Surroundings where
  faults : Faults := noFaults
  now : Int := 0
  activeConnections : Nat := 0
  metricsText : Option Bytes := some []

def jsonType : Bytes × Bytes := (text "Content-Type", text "application/json")

def healthy : HttpResponse := { headers := [jsonType], body := text "\x7b\"status\":\"ok\"\x7d" }

def connectionCount (count : Nat) : HttpResponse :=
  { headers := [jsonType], body := text "\x7b\"connections\":" ++ decimal count ++ text "\x7d" }

def metricsReport (report : Bytes) : HttpResponse :=
  { headers := [(text "Content-Type", text "text/plain; version=0.0.4; charset=utf-8")], body := report }

def bodyRequired : HttpResponse :=
  { statusCode := 400, reason := text "Bad Request", body := text "Request body is required" }

def created (offset : Nat) : HttpResponse :=
  { statusCode := 201, reason := text "Created", body := decimal offset }

def largeBody : HttpResponse := { body := List.replicate (512 * 1024) 120 }

def held : HttpResponse := { body := text "held" }

/-- The response, or nothing where the handler throws, and what it leaves in the log. -/
def Handler.serve (surroundings : Surroundings) (request : HttpRequest) (store : Store) :
    Handler → Option HttpResponse × Store
  | .health => (some healthy, store)
  | .connections => (some (connectionCount surroundings.activeConnections), store)
  | .metrics => (surroundings.metricsText.map metricsReport, store)
  | .recent => (some (recentMessagesResponse store request), store)
  | .publish =>
    if request.body = [] then (some bodyRequired, store)
    else match append surroundings.faults request.body surroundings.now store with
      | ⟨.ok offset, left⟩ => (some (created offset), left)
      | ⟨.error _, left⟩ => (none, left)
  | .largeResponse => (some largeBody, store)
  | .hold => (some held, store)

def table (testMode : Bool) : List (RouteKey × Handler) :=
  [(⟨text "GET", text "/health"⟩, .health), (⟨text "GET", text "/connections"⟩, .connections),
    (⟨text "GET", text "/metrics"⟩, .metrics), (⟨text "GET", text "/recent"⟩, .recent),
    (⟨text "POST", text "/publish"⟩, .publish), (⟨text "GET", text "/large-response"⟩, .largeResponse)] ++
  if testMode then [(⟨text "GET", text "/test/hold"⟩, .hold)] else []

def Routed (testMode : Bool) (request : HttpRequest) (handler : Handler) : Prop :=
  (⟨request.method, request.path⟩, handler) ∈ table testMode

instance (testMode : Bool) (request : HttpRequest) (handler : Handler) : Decidable (Routed testMode request handler) :=
  inferInstanceAs (Decidable (_ ∈ table testMode))

theorem entries_routes (testMode : Bool) :
    (routes testMode).routes.entries = ((table testMode).map fun route => ⟨route.1, route.2⟩).reverse := by
  cases testMode with
  | false => rfl
  | true => rfl

theorem find_iff (testMode : Bool) (request : HttpRequest) (handler : Handler) :
    (routes testMode).find request = some handler ↔ Routed testMode request handler := by
  rw [Router.find, ← Option.mem_def, AList.mem_lookup_iff, entries_routes, List.mem_reverse, List.mem_map]
  constructor
  · rintro ⟨⟨key, other⟩, member, same⟩
    cases same
    exact member
  · intro member
    exact ⟨_, member, rfl⟩

theorem find_none (testMode : Bool) (request : HttpRequest) :
    (routes testMode).find request = none ↔ ∀ handler, ¬ Routed testMode request handler := by
  rw [Option.eq_none_iff_forall_ne_some]
  exact forall_congr' fun handler => not_congr (find_iff testMode request handler)

end FleetGateway.Gateway.Routes
