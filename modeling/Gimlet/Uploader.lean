import Mathlib.Data.List.Basic

/-!
# The state uploader

`sendUpdate` and `sendEvents` of `pkg/agent/controller.go` push the agent's
state and events to the dashboard. Each serializes its payload, builds one
`POST` with the agent key as a bearer token and sends it once: a serialization
error, a request that cannot be built and a status other than 200 are logged,
and an error of the HTTP client panics. Nothing is retried.

A payload is given as what `json.Marshal` returns for it. The two functions
differ in their URL, their messages and their client (`&http.Client{}` and
`httpClient()`, not in the source); a client is its answers to requests.
-/

namespace Gimlet

structure HttpRequest where
  method : String
  url : String
  header : List (String × String)
  body : String
  deriving DecidableEq, Repr

/-- The parts of `net/http` a push uses: the error `http.NewRequest` returns for
a URL that does not parse, and what the client's `Do` returns for a request, the
status code and body of the response or an error. -/
structure Http where
  urlError : String → Option String
  transport : HttpRequest → Except String (Nat × String)

inductive PushResult
  /-- The dashboard answered 200. -/
  | ok
  /-- `log.Errorf` of this message, and the push returns. -/
  | logged (msg : String)
  /-- `panic(err)`. -/
  | panicked (err : String)
  deriving DecidableEq, Repr

/-- What `sendUpdate` and `sendEvents` share: the request they send, if any, and
how they end. -/
def push (http : Http) (payload : Except String String) (serializeMsg url agentKey sendMsg : String) :
    Option HttpRequest × PushResult :=
  match payload with
  | .error err => (none, .logged (serializeMsg ++ ": " ++ err))
  | .ok body =>
    match http.urlError url with
    | some err => (none, .logged ("could not create http request: " ++ err))
    | none =>
      let req : HttpRequest :=
        ⟨"POST", url, [("Authorization", "BEARER " ++ agentKey), ("Content-Type", "application/json")], body⟩
      match http.transport req with
      | .error err => (some req, .panicked err)
      | .ok (status, respBody) =>
        if status ≠ 200 then (some req, .logged (sendMsg ++ ": " ++ toString status ++ " - " ++ respBody))
        else (some req, .ok)

def stateUpdateUrl (host env : String) : String := host ++ "/agent/state/" ++ env ++ "/update"

def eventsUrl (host : String) : String := host ++ "/agent/events"

def sendUpdate (http : Http) (host agentKey env : String) (update : Except String String) :
    Option HttpRequest × PushResult :=
  push http update "could not serialize k8s state" (stateUpdateUrl host env) agentKey
    "could not send state update"

def sendEvents (http : Http) (host agentKey : String) (events : Except String String) :
    Option HttpRequest × PushResult :=
  push http events "could not serialize k8s events" (eventsUrl host) agentKey "could not send k8s events"

section
variable (http : Http) (payload : Except String String) (serializeMsg url agentKey sendMsg : String)

/-- A push sends a request exactly when its payload serialized and its URL
parsed: a `POST` to the URL, with the bearer token and the JSON content type,
carrying the serialized payload. -/
theorem push_request_iff {req : HttpRequest} :
    (push http payload serializeMsg url agentKey sendMsg).1 = some req ↔
      ∃ body, payload = .ok body ∧ http.urlError url = none ∧
        req = ⟨"POST", url,
          [("Authorization", "BEARER " ++ agentKey), ("Content-Type", "application/json")], body⟩ := by
  unfold push
  rcases payload with err | body
  · simp
  · cases hu : http.urlError url with
    | some err => simp
    | none =>
      dsimp only
      split
      · simp [eq_comm]
      · split_ifs <;> simp [eq_comm]

end

/-- A 204 from the dashboard is logged as a failed update. -/
example :
    sendUpdate ⟨fun _ => none, fun _ => .ok (204, "")⟩ "https://dashboard.example.com" "agent-key"
      "staging" (.ok "{}") =
      (some ⟨"POST", "https://dashboard.example.com/agent/state/staging/update",
        [("Authorization", "BEARER agent-key"), ("Content-Type", "application/json")], "{}"⟩,
       .logged "could not send state update: 204 - ") := by
  decide

end Gimlet
