import TradingDesk.Settings
import TradingDesk.Market.Codec
/-!
# Reading and writing settings
-/

namespace TradingDesk.Settings

open Source (text? word? bool? decimal? listOf?)

variable {σ : Type} [Source σ]

def Exchange.read? (v : σ) : Option Exchange := do
  let s ← Slots.of? ["api_key", "api_secret", "api_passphrase", "rest_url", "websocket_url"] v
  let d : Exchange := {}
  pure
    { apiKey := ← s.optional "api_key" text?
      apiSecret := ← s.optional "api_secret" text?
      apiPassphrase := ← s.optional "api_passphrase" text?
      restUrl := ← s.withDefault "rest_url" text? d.restUrl
      feedUrl := ← s.withDefault "websocket_url" text? d.feedUrl }

def Exchange.toJson (e : Exchange) : Json := .obj
  [("api_key", .ofOption .str e.apiKey),
   ("api_secret", .ofOption .str e.apiSecret),
   ("api_passphrase", .ofOption .str e.apiPassphrase),
   ("rest_url", .str e.restUrl),
   ("websocket_url", .str e.feedUrl)]

def Database.read? (v : σ) : Option Database := do
  let s ← Slots.of? ["url", "max_connections", "connection_timeout_seconds"] v
  pure
    { url := ← s.required "url" text?
      maxConnections := ← s.withDefault "max_connections" (Source.natBelow? (pow2 32)) 5
      connectionTimeout := ← s.withDefault "connection_timeout_seconds" word? 30 }

def Database.toJson (d : Database) : Json := .obj
  [("url", .str d.url),
   ("max_connections", .ofNat d.maxConnections),
   ("connection_timeout_seconds", .ofNat d.connectionTimeout)]

def Stream.read? (v : σ) : Option Stream := do
  let s ← Slots.of? ["assets", "quote_interval_ms", "interval_overrides_ms", "reconnect",
    "store_retry"] v
  let d : Stream := { assets := [] }
  pure
    { assets := ← s.required "assets" (listOf? text?)
      interval := ← s.withDefault "quote_interval_ms" word? d.interval
      overrides := ← s.withDefault "interval_overrides_ms" (Json.mapOf? word?) d.overrides
      reconnect := ← s.withDefault "reconnect" BackoffSettings.read? d.reconnect
      storeRetry := ← s.withDefault "store_retry" BackoffSettings.read? d.storeRetry }

def Stream.toJson (c : Stream) : Json := .obj
  [("assets", .ofList .str c.assets),
   ("quote_interval_ms", .ofNat c.interval),
   ("interval_overrides_ms", .obj (c.overrides.map fun (k, n) => (k, .ofNat n))),
   ("reconnect", c.reconnect.toJson),
   ("store_retry", c.storeRetry.toJson)]

def Schedule.read? (v : σ) : Option Schedule := do
  let s ← Slots.of? ["asset", "level", "interval_ms"] v
  pure
    { asset := ← s.required "asset" text?
      level := ← s.required "level" Book.Level.read?
      interval := ← s.required "interval_ms" word? }

def Schedule.toJson (c : Schedule) : Json := .obj
  [("asset", .str c.asset), ("level", c.level.toJson), ("interval_ms", .ofNat c.interval)]

def Poll.read? (v : σ) : Option Poll := do
  let s ← Slots.of? ["schedules", "retry", "store_retry"] v
  let d : Poll := {}
  pure
    { schedules := ← s.withDefault "schedules" (listOf? Schedule.read?) []
      retry := ← s.withDefault "retry" BackoffSettings.read? d.retry
      storeRetry := ← s.withDefault "store_retry" BackoffSettings.read? d.storeRetry }

def Poll.toJson (c : Poll) : Json := .obj
  [("schedules", .ofList Schedule.toJson c.schedules),
   ("retry", c.retry.toJson),
   ("store_retry", c.storeRetry.toJson)]

def Watch.read? (v : σ) : Option Watch := do
  let s ← Slots.of? ["poll_interval_ms", "batch_size"] v
  pure
    { interval := ← s.withDefault "poll_interval_ms" word? 250
      batch := ← s.withDefault "batch_size" word? 500 }

def Watch.toJson (c : Watch) : Json := .obj
  [("poll_interval_ms", .ofNat c.interval), ("batch_size", .ofNat c.batch)]

def Execution.read? (v : σ) : Option Execution := do
  let s ← Slots.of? ["queue_size", "status_poll_interval_ms", "order_timeout_secs", "reconcile",
    "store_retry"] v
  let d : Execution := {}
  pure
    { queueSize := ← s.withDefault "queue_size" word? d.queueSize
      statusInterval := ← s.withDefault "status_poll_interval_ms" word? d.statusInterval
      orderTimeout := ← s.withDefault "order_timeout_secs" word? d.orderTimeout
      reconcile := ← s.withDefault "reconcile" BackoffSettings.read? d.reconcile
      storeRetry := ← s.withDefault "store_retry" BackoffSettings.read? d.storeRetry }

def Execution.toJson (c : Execution) : Json := .obj
  [("queue_size", .ofNat c.queueSize),
   ("status_poll_interval_ms", .ofNat c.statusInterval),
   ("order_timeout_secs", .ofNat c.orderTimeout),
   ("reconcile", c.reconcile.toJson),
   ("store_retry", c.storeRetry.toJson)]

def TradeMode.read? (v : σ) : Option TradeMode :=
  Source.named? [("paper", paper), ("live", live)] v

def Target.read? (v : σ) : Option Target := do
  let s ← Slots.of? ["tolerance", "upside_factor", "downside_factor", "start_mode",
    "reference_price", "size"] v
  let d : Target := { size := .zero }
  pure
    { tolerance := ← s.withDefault "tolerance" decimal? d.tolerance
      upside := ← s.withDefault "upside_factor" decimal? d.upside
      downside := ← s.withDefault "downside_factor" decimal? d.downside
      startMode := ← s.withDefault "start_mode" Side.read? d.startMode
      reference := ← s.optional "reference_price" decimal?
      size := ← s.required "size" decimal? }

def Target.toJson (c : Target) : Json := .obj
  [("tolerance", .ofDecimal c.tolerance),
   ("upside_factor", .ofDecimal c.upside),
   ("downside_factor", .ofDecimal c.downside),
   ("start_mode", c.startMode.toJson),
   ("reference_price", .ofOption .ofDecimal c.reference),
   ("size", .ofDecimal c.size)]

def Binding.read? (v : σ) : Option Binding := do
  let s ← Slots.of? ["id", "asset", "trade_mode", "strategy"] v
  pure
    { id := ← s.required "id" text?
      asset := ← s.required "asset" text?
      mode := ← s.withDefault "trade_mode" TradeMode.read? .paper
      strategy := ← s.required "strategy" Target.read? }

def Binding.toJson (b : Binding) : Json := .obj
  [("id", .str b.id),
   ("asset", .str b.asset),
   ("trade_mode", .str b.mode.name),
   ("strategy", b.strategy.toJson)]

def Alerts.read? (v : σ) : Option Alerts := do
  let s ← Slots.of? ["webhook_url", "timeout_seconds"] v
  pure
    { webhook := ← s.optional "webhook_url" text?
      timeout := ← s.withDefault "timeout_seconds" word? 5 }

def Alerts.toJson (c : Alerts) : Json := .obj
  [("webhook_url", .ofOption .str c.webhook), ("timeout_seconds", .ofNat c.timeout)]

def General.read? (v : σ) : Option General := do
  let s ← Slots.of? ["log_level", "json_logs", "request_timeout_seconds"] v
  let d : General := {}
  pure
    { logLevel := ← s.withDefault "log_level" text? d.logLevel
      jsonLogs := ← s.withDefault "json_logs" bool? d.jsonLogs
      requestTimeout := ← s.withDefault "request_timeout_seconds" word? d.requestTimeout }

def General.toJson (c : General) : Json := .obj
  [("log_level", .str c.logLevel),
   ("json_logs", .bool c.jsonLogs),
   ("request_timeout_seconds", .ofNat c.requestTimeout)]

def read? (v : σ) : Option Settings := do
  let s ← Slots.of? ["exchange", "database", "stream", "poll", "watcher", "executor", "portfolios",
    "alerts", "settings"] v
  pure
    { exchange := ← s.withDefault "exchange" Exchange.read? {}
      database := ← s.optional "database" Database.read?
      stream := ← s.required "stream" Stream.read?
      poll := ← s.withDefault "poll" Poll.read? {}
      watch := ← s.withDefault "watcher" Watch.read? {}
      execution := ← s.withDefault "executor" Execution.read? {}
      portfolios := ← s.withDefault "portfolios" (listOf? Binding.read?) []
      alerts := ← s.withDefault "alerts" Alerts.read? {}
      general := ← s.withDefault "settings" General.read? {} }

def toJson (c : Settings) : Json := .obj
  [("exchange", c.exchange.toJson),
   ("database", .ofOption Database.toJson c.database),
   ("stream", c.stream.toJson),
   ("poll", c.poll.toJson),
   ("watcher", c.watch.toJson),
   ("executor", c.execution.toJson),
   ("portfolios", .ofList Binding.toJson c.portfolios),
   ("alerts", c.alerts.toJson),
   ("settings", c.general.toJson)]

/-- Reads settings from a JSON text; they have to keep the rules. -/
def ofJsonText (text : String) : Except Fault Settings :=
  match Json.read? text >>= Settings.read? with
  | none => .error .json
  | some c => c.validate.map fun _ => c

end TradingDesk.Settings
