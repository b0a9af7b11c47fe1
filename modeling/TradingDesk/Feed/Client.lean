import TradingDesk.Fault
import TradingDesk.Feed.Message
import TradingDesk.Json.Printer
/-!
# The feed client

A client holds at most one connection to the feed. It hands on text frames only; a ping is answered,
and the end or the loss of the stream gives the connection up.
-/

namespace TradingDesk.Feed

inductive Received where
  | text (s : String)
  | ping (data : String)
  /-- A frame that says nothing to the client. -/
  | idle
  /-- The server closes the stream, or the stream ends. -/
  | ended
  | lost (detail : String)
deriving DecidableEq, Repr

inductive Reaction where
  /-- Answers a ping and goes on reading. -/
  | pong (data : String)
  | read
  /-- Hands on a frame, or that there are no more. -/
  | hand (frame : Option String)
  | fail (fault : Fault)
deriving DecidableEq, Repr

namespace Client

def name : String := "coinbase-ticker"

def greeting (assets : List String) : String := (Subscription.subscribe assets).toJson.toText

def react : Received → Reaction
  | .text s => .hand (some s)
  | .ping data => .pong data
  | .idle => .read
  | .ended => .hand none
  | .lost detail => .fail (.feedCommunication detail)

/-- Whether the connection is still there after a reaction. -/
def staysConnected : Reaction → Bool
  | .pong _ | .read | .hand (some _) => true
  | .hand none | .fail _ => false

def notConnected : Fault := .feedConnection "not connected"

end Client

end TradingDesk.Feed
