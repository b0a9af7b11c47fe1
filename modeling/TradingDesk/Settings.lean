import TradingDesk.Backoff
import TradingDesk.Fault
import TradingDesk.Market.Collection
import TradingDesk.Text.Blank
/-!
# Settings

All settings of the desk, and the rules that they have to keep. What is not given has a default.
-/

namespace TradingDesk

/-- The key, secret and passphrase that requests to the exchange are signed with. -/
structure Credentials where
  key : String
  secret : String
  passphrase : String
deriving DecidableEq, Repr

namespace Settings

structure Exchange where
  apiKey : Option String := none
  apiSecret : Option String := none
  apiPassphrase : Option String := none
  restUrl : String := "https://api.exchange.coinbase.com"
  feedUrl : String := "wss://ws-feed.exchange.coinbase.com"
deriving DecidableEq, Repr, Inhabited

/-- The credentials, if all three parts are given. -/
def Exchange.credentials? (e : Exchange) : Option Credentials := do
  pure { key := ← e.apiKey, secret := ← e.apiSecret, passphrase := ← e.apiPassphrase }

structure Database where
  url : String
  maxConnections : Nat := 5
  connectionTimeout : Nat := 30
deriving DecidableEq, Repr

/-- A schedule of a given first wait, bound and number of attempts. -/
def retry (initialDelay maxDelay maxAttempts : Nat) : BackoffSettings :=
  { initialDelay, maxDelay, maxAttempts }

def storeRetry : BackoffSettings := retry 100 2000 3

/-- Which quotes are collected from the feed, and how often one is kept. -/
structure Stream where
  assets : List String
  interval : Nat := 1000
  overrides : List (String × Nat) := []
  reconnect : BackoffSettings := retry 1000 60000 0
  storeRetry : BackoffSettings := Settings.storeRetry
deriving DecidableEq, Repr, Inhabited

/-- How often the book of an asset is fetched at one level. -/
structure Schedule where
  asset : String
  level : Book.Level
  interval : Nat
deriving DecidableEq, Repr

structure Poll where
  schedules : List Schedule := []
  retry : BackoffSettings := Settings.retry 250 4000 3
  storeRetry : BackoffSettings := Settings.storeRetry
deriving DecidableEq, Repr, Inhabited

/-- How often watched collections are looked at, and how many documents are taken at once. -/
structure Watch where
  interval : Nat := 250
  batch : Nat := 500
deriving DecidableEq, Repr, Inhabited

structure Execution where
  queueSize : Nat := 1000
  statusInterval : Nat := 1000
  /-- Seconds after which an open order is cancelled. -/
  orderTimeout : Nat := 60
  reconcile : BackoffSettings := retry 500 10000 5
  storeRetry : BackoffSettings := Settings.storeRetry
deriving DecidableEq, Repr, Inhabited

/-- Whether orders go to the exchange or are only simulated. -/
inductive TradeMode where
  | paper
  | live
deriving DecidableEq, Repr, Inhabited

def TradeMode.name : TradeMode → String
  | paper => "paper"
  | live => "live"

structure Target where
  /-- The fraction by which a price has to move. -/
  tolerance : Decimal := .thousandth
  upside : Decimal := .one
  downside : Decimal := .one
  startMode : Side := .buy
  /-- The price that the first trade is measured by. -/
  reference : Option Decimal := none
  size : Decimal
deriving DecidableEq, Repr

structure Binding where
  id : String
  asset : String
  mode : TradeMode := .paper
  strategy : Target
deriving DecidableEq, Repr

structure Alerts where
  webhook : Option String := none
  timeout : Nat := 5
deriving DecidableEq, Repr, Inhabited

structure General where
  logLevel : String := "info"
  jsonLogs : Bool := false
  requestTimeout : Nat := 30
deriving DecidableEq, Repr, Inhabited

end Settings

open Settings in
structure Settings where
  exchange : Exchange := {}
  database : Option Database := none
  stream : Stream
  poll : Poll := {}
  watch : Watch := {}
  execution : Execution := {}
  portfolios : List Binding := []
  alerts : Settings.Alerts := {}
  general : General := {}
deriving DecidableEq, Repr, Inhabited

namespace Settings

/-! ### The rules -/

inductive Flaw where
  | noAssets
  | zeroQuoteInterval
  | zeroOverride (asset : String)
  | zeroPollInterval (asset : String) (level : Book.Level)
  | repeatedSchedule (asset : String) (level : Book.Level)
  | noPortfolios
  | emptyId
  | repeatedId (id : String)
  | untradedAsset (id asset : String)
  | noSize (id : String)
  | negativeTolerance (id : String)
  | missingCredentials (id : String)
  | badWebhook (url : String)
deriving DecidableEq, Repr

def Flaw.message : Flaw → String
  | noAssets => "stream.assets must name at least one asset"
  | zeroQuoteInterval => "stream.quote_interval_ms must be positive"
  | zeroOverride asset => "stream.interval_overrides_ms." ++ asset ++ " must be positive"
  | zeroPollInterval asset level =>
    "poll interval for " ++ asset ++ " level " ++ toString level.number ++ " must be positive"
  | repeatedSchedule asset level =>
    "duplicate poll schedule for " ++ asset ++ " level " ++ toString level.number
  | noPortfolios => "at least one portfolio binding is required"
  | emptyId => "portfolio id must not be empty"
  | repeatedId id => "duplicate portfolio id " ++ id
  | untradedAsset id asset =>
    "portfolio " ++ id ++ " trades " ++ asset ++ " which is not in stream.assets"
  | noSize id => "portfolio " ++ id ++ " strategy.size must be positive"
  | negativeTolerance id => "portfolio " ++ id ++ " strategy.tolerance must not be negative"
  | missingCredentials id =>
    "portfolio " ++ id ++ " trades live but exchange credentials are missing"
  | badWebhook url => "alerts.webhook_url must be an http(s) URL, got '" ++ url ++ "'"

/-- The first flaw of the schedules, `seen` being the pairs before them. -/
def scheduleFlaw? (seen : List (String × Book.Level)) : List Schedule → Option Flaw
  | [] => none
  | s :: rest =>
    let pair := (Text.upper s.asset, s.level)
    if s.interval = 0 then some (.zeroPollInterval s.asset s.level)
    else if seen.contains pair then some (.repeatedSchedule s.asset s.level)
    else scheduleFlaw? (pair :: seen) rest

/-- The first flaw of a portfolio that follows portfolios with the ids `seen`. -/
def bindingFlaw? (c : Settings) (seen : List String) (b : Binding) : Option Flaw :=
  if Text.isBlankText b.id then some .emptyId
  else if seen.contains b.id then some (.repeatedId b.id)
  else if !c.stream.assets.any (Text.sameAscii · b.asset) then some (.untradedAsset b.id b.asset)
  else if b.strategy.size ≤ Decimal.zero then some (.noSize b.id)
  else if b.strategy.tolerance < Decimal.zero then some (.negativeTolerance b.id)
  else if b.mode = .live ∧ c.exchange.credentials?.isNone then some (.missingCredentials b.id)
  else none

def bindingsFlaw? (c : Settings) (seen : List String) : List Binding → Option Flaw
  | [] => none
  | b :: rest => (c.bindingFlaw? seen b).or (bindingsFlaw? c (b.id :: seen) rest)

def isWebUrl (url : String) : Bool := url.startsWith "http://" || url.startsWith "https://"

/-- The first rule that settings break. -/
def flaw? (c : Settings) : Option Flaw :=
  if c.stream.assets.isEmpty then some .noAssets
  else if c.stream.interval = 0 then some .zeroQuoteInterval
  else
    (c.stream.overrides.findSome? fun (asset, interval) =>
      if interval = 0 then some (.zeroOverride asset) else none)
    |>.or (scheduleFlaw? [] c.poll.schedules)
    |>.or (if c.portfolios.isEmpty then some .noPortfolios else none)
    |>.or (c.bindingsFlaw? [] c.portfolios)
    |>.or (match c.alerts.webhook with
      | some url => if isWebUrl url then none else some (.badWebhook url)
      | none => none)

def validate (c : Settings) : Except Fault Unit :=
  match c.flaw? with
  | some flaw => .error (.configuration flaw.message)
  | none => .ok ()

end Settings

end TradingDesk
