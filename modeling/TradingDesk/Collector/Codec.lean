import TradingDesk.Alerts
import TradingDesk.Collector.Pairing
import TradingDesk.Collector.Stats
import TradingDesk.Market.Codec
/-!
# Writing what collectors tell
-/

namespace TradingDesk

def Stats.toJson (s : Stats) : Json := .obj
  [("persisted", .ofNat s.persisted),
   ("throttled", .ofNat s.throttled),
   ("malformed", .ofNat s.malformed),
   ("fetch_failures", .ofNat s.fetchFailures),
   ("store_failures", .ofNat s.storeFailures),
   ("degraded", .bool s.degraded)]

def Held.toJson : Held → Json
  | .nothing => .str "empty"
  | .bid h => .obj [("awaiting_ask", h.toJson)]
  | .ask h => .obj [("awaiting_bid", h.toJson)]

def Alert.toJson (a : Alert) : Json := .arr [.str a.title, .str a.message]

end TradingDesk
