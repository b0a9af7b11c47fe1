import TradingDesk.Exchange.Signature
import TradingDesk.Fault.Codec
import TradingDesk.Http.Address
import TradingDesk.Rehearsal.Command
import TradingDesk.Rehearsal.Feeding
import TradingDesk.Rehearsal.Floor
import TradingDesk.Rehearsal.Polling
import TradingDesk.Rehearsal.Streaming
import TradingDesk.Rehearsal.Watching
import TradingDesk.Store.Codec
import TradingDesk.Text.Number
/-!
# Rehearsals in JSON

Scripts are read from JSON, and the calls that a rehearsal made are written to it. What a script
leaves out has a default.
-/

namespace TradingDesk.Rehearsal

def Cue.ofJson {α : Type} (read : Json → α) (v : Json) : Cue α :=
  { delay := v.natAt "after_ms"
    answer := match v.given? "err" with
      | some e => .error (Fault.ofJson e)
      | none => .ok (read (v.field "ok")) }

def Script.ofJson (v : Json) : Script :=
  let outcome (v : Json) : Order.Outcome := (Order.Outcome.read? v).getD .unknown
  { submits := (v.itemsAt "submit").map (Cue.ofJson outcome)
    statuses := (v.itemsAt "status").map (Cue.ofJson outcome)
    cancels := (v.itemsAt "cancel").map (Cue.ofJson fun _ => ())
    resting := v.flagAt "resting" false }

/-- A venue on paper, if it is named by a text, or the one of a script. -/
def Venue.ofJson : Json → Venue
  | .str _ => .onPaper
  | v => .scripted (Script.ofJson v)

def callToJson : Nat × Call → Json
  | (time, .submit o) => .arr
    [.str "submit", .ofNat time, .str o.clientId,
     .arr [.str o.portfolio, .str o.asset, o.side.toJson, .ofDecimal o.size,
       .ofOption .ofDecimal o.limit]]
  | (time, .status id) => .arr [.str "status", .ofNat time, .str id, .null]
  | (time, .cancel id) => .arr [.str "cancel", .ofNat time, .str id, .null]

def decisionOfJson (v : Json) : Decision :=
  let decimal? (key : String) : Option Decimal := (v.given? key).bind Json.decimal?
  match v with
  | .null => .noGo
  | _ => .go
    { side := (Side.read? (v.field "side")).getD .buy
      size := (decimal? "size").getD .zero
      limit := decimal? "price"
      reason := v.textAt "reason" }

/-- A quote or a book on its way to its collection, or any document with its place. -/
def Posting.ofJson (v : Json) : Posting :=
  match (v.given? "quote").bind Quote.read?, (v.given? "book").bind Book.read? with
  | some q, _ =>
    { collection := Collection.quotes q.asset, id := q.documentId, body := q.toJson.settled }
  | none, some b =>
    { collection := Collection.books b.asset b.level, id := b.documentId, body := b.toJson.settled }
  | none, none =>
    { collection := v.textAt "collection", id := v.textAt "id", body := v.field "body" }

def Command.ofJson (v : Json) : Command :=
  match v.textAt "do" with
  | "commit" => .commit (Posting.ofJson v)
  | "tick" => .tick (Posting.ofJson v)
  | "event" => .event ((ChangeEvent.read? (v.field "event")).getD default)
  | "recover" => .recover
  | "resume" => .resume (v.textAt "collection")
  | "fail_writes" => .failWrites (v.natAt "count")
  | "cancel" => .shutDown 0
  | "cancel_after" => .shutDown (v.natAt "ms")
  | "restart" => .restart
  | _ => .run ((v.itemsAt "events").filterMap ChangeEvent.read?) (v.flagAt "keep_open" false)

def Frame.ofJson (v : Json) : Frame :=
  { delay := v.natAt "after_ms"
    result := match v.given? "error" with
      | some e => .error (Fault.ofJson e)
      | none => .ok (v.textAt? "text") }

def FeedSession.ofJson (v : Json) : FeedSession :=
  match v.given? "connect_error" with
  | some e => .refused (Fault.ofJson e)
  | none => .frames ((v.itemsAt "frames").map Frame.ofJson)

def feedCallToJson : Nat × FeedCall → Json
  | (time, .connect assets) => .arr [.str "connect", .ofNat time, .ofList .str assets]
  | (time, .close) => .arr [.str "close", .ofNat time]

def Fetch.ofJson (v : Json) : Fetch :=
  { delay := v.natAt "after_ms"
    result := match v.given? "error", (v.given? "book").bind Book.read? with
      | some e, _ => .fault (Fault.ofJson e)
      | none, some b => .book b
      | none, none => .empty }

def Consumer.ofJson (queue : Nat) (v : Json) : Consumer :=
  { queue, left := v.natAt? "take", pause := v.natAt "every_ms" }

/-- A watcher of the collection `c`, with its consumers and the commits to come. -/
def Watching.ofJson (settings : Settings.Watch) (v : Json) : Watching :=
  let subscribers := v.itemsAt "subscribers"
  let watcher : Watcher :=
    { collection := "c", startAfter := v.natAt "start_after", batch := settings.batch }
  { watcher := (List.range subscribers.length).foldl Watcher.subscribe watcher
    tail := { sparse := v.textAt "store" == "gaps", failures := v.natAt "fail_queries" }
    queues := subscribers.map fun s => Queue.ofSize (s.natAt "queue")
    consumers := subscribers.mapIdx Consumer.ofJson
    commits := (v.itemsAt "commits").filterMap fun p =>
      match p with
      | .arr [time, .str id] => time.asNat?.map (·, id)
      | _ => none
    interval := settings.interval }

def pairName (k : PollKey) : String := k.asset ++ "/" ++ toString k.level.number

/-- A poll collector with the fetches to come of each of its pairs. -/
def Polling.ofJson (settings : Settings.Poll) (v : Json) : Polling :=
  let c := PollCollector.ofSettings settings { enabled := v.flagAt "alerts" true }
  let (collector, pairs) := c.start
  let source (k : PollKey) : PollKey × Source :=
    (k, { fetches := ((v.field "script").itemsAt (pairName k)).map Fetch.ofJson })
  { collector
    pairs := pairs.map fun pair => { pair }
    store := { failures := v.natAt "fail_writes" }
    sources := (c.schedules.map PollCollector.keyOf).eraseDups.map source
    frozen := v.flagAt "frozen" false }

def Streaming.ofJson (settings : Settings.Stream) (v : Json) : Streaming :=
  { run := (StreamCollector.ofSettings settings { enabled := v.flagAt "alerts" true }).start
    store := { failures := v.natAt "fail_writes" }
    sessions := (v.itemsAt "sessions").map FeedSession.ofJson }

/-! ### Servers -/

def answerOfJson (v : Json) : Except HttpFault Http.Response :=
  match v with
  | .null => .error .unanswered
  | _ => .ok
    { status := ⟨v.natAt "status"⟩
      headers := (v.field "headers").members.filterMap fun (k, x) => x.asStr?.map (k, ·)
      body := v.textAt "body" }

/-- Whether a request carries the signature that a secret gives it; none if it carries none. -/
def signatureHolds? (secret : String) (r : Http.Request) : Option Bool :=
  (r.headers.get? "CB-ACCESS-SIGN").map fun signature =>
    let time := ((r.headers.get? "CB-ACCESS-TIMESTAMP").bind Text.integer?).getD 0
    match Exchange.sign secret time r.method.name (Http.Address.target r.address) r.body with
    | .ok s => s == signature
    | .error _ => false

def seenToJson (secret : String) (r : Http.Request) : Json :=
  let header (name : String) : Json := .ofOption .str (r.headers.get? name)
  .obj
    [("method", .str r.method.name),
     ("target", .str (Http.Address.target r.address)),
     ("body", .str r.body),
     ("content_type", header "Content-Type"),
     ("user_agent", header "User-Agent"),
     ("key", header "CB-ACCESS-KEY"),
     ("passphrase", header "CB-ACCESS-PASSPHRASE"),
     ("signature_valid", .ofOption .bool (signatureHolds? secret r))]

def receivedOf : String × Json → Feed.Received
  | ("text", .str s) => .text s
  | ("ping", .str s) => .ping s
  | ("close", _) => .ended
  | ("hang_up", _) => .lost "hung up"
  | _ => .idle

def ServerSession.ofJson : Json → ServerSession
  | .arr fs => .frames (fs.filterMap fun f => f.members.head?.map receivedOf)
  | _ => .refused

def Heard.toJson : Heard → Json
  | .greeting s => .obj [("subscribe", .str s)]
  | .pong s => .obj [("pong", .str s)]
  | .close => .str "close"

end TradingDesk.Rehearsal
