/-
Endpoints for operators: whether the publisher is alive, whether it takes part (not while it drains), and its metrics.
They answer to GET, and to HEAD with the same head and no body; other methods are not allowed.
-/
import OpcPubSub.Publisher.Basic

namespace OpcPubSub.Ops

structure Response where
  status : Nat
  contentType : Option String := none
  body : String := ""
deriving DecidableEq, Repr

def plainType : String := "text/plain; charset=utf-8"

def metricsType : String := "text/plain; version=0.0.4; charset=utf-8"

/-- the answer of an endpoint to GET, if there is one at this path -/
def get? (p : Publisher) (path : String) : Option Response :=
  match path with
  | "/healthz" => some { status := 200, contentType := some plainType, body := "ok" }
  | "/readyz" =>
    some (if p.metrics.draining then { status := 503, contentType := some plainType, body := "draining" }
      else { status := 200, contentType := some plainType, body := "ready" })
  | "/metrics" => some { status := 200, contentType := some metricsType, body := p.report }
  | _ => none

/-- the path of a request target, without its query -/
def pathOf (target : String) : String := String.ofList (target.toList.takeWhile (· ≠ '?'))

/-- the answer to a request -/
def respond (p : Publisher) (method target : String) : Response :=
  match get? p (pathOf target) with
  | none => { status := 404 }
  | some r => if method = "GET" then r else if method = "HEAD" then { r with body := "" } else { status := 405 }

end OpcPubSub.Ops
