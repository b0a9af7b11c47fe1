import TradingDesk.Alerts
import TradingDesk.Http.Call
import TradingDesk.Json.Printer
/-!
# Alerts by webhook

An alert is posted to an address as a JSON object, whose `text` chat rooms show.
-/

namespace TradingDesk.Webhook

def payload (a : Alert) : Json := .obj
  [("text", .str (a.title ++ ": " ++ a.message)),
   ("title", .str a.title),
   ("message", .str a.message),
   ("source", .str "coinbase_alpha")]

/-- Posts an alert; a failure of the server may pass, any other answer but success will not. -/
def notify (address : String) (a : Alert) : Http.Call Unit :=
  let request : Http.Request := { method := .post, address }
  .of (request.withJson (payload a).toText) fun r =>
    let detail := "Webhook returned status " ++ r.status.label
    if r.status.isSuccess then .ok ()
    else if r.status.isServerError then .error (.network detail)
    else .error (.invalidResponse detail)

end TradingDesk.Webhook
