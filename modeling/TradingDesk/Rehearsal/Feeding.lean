import TradingDesk.Feed.Client
/-!
# Rehearsing the feed client

A scripted server answers each attempt to connect with one session. It sends the frames of a session
once the client has spoken. A server that goes on its own hears nothing after the first message.
-/

namespace TradingDesk.Rehearsal

inductive ServerSession where
  | refused
  | frames (frames : List Feed.Received)

inductive Heard where
  | greeting (text : String)
  | pong (data : String)
  | close
deriving DecidableEq, Repr

/-- The connection of a client: the frames to come, and whether the server still listens. -/
structure Connection where
  frames : List Feed.Received
  attentive : Bool

structure Feeding where
  sessions : List ServerSession
  connection : Option Connection := none
  /-- What the server heard, the last first. -/
  heard : List Heard := []

namespace Feeding

def isConnected (s : Feeding) : Bool := s.connection.isSome

def leaves : Feed.Received → Bool
  | .ended | .lost _ => true
  | _ => false

def hear (s : Feeding) (c : Connection) (h : Heard) : Feeding :=
  if c.attentive then { s with heard := h :: s.heard } else s

def close (s : Feeding) : Feeding :=
  match s.connection with
  | some c => { s.hear c .close with connection := none }
  | none => s

def connect (s : Feeding) (assets : List String) : Except Fault Unit × Feeding :=
  let s := s.close
  match s.sessions with
  | .frames frames :: sessions =>
    (.ok (), { s with
      sessions, connection := some { frames, attentive := !frames.any leaves }
      heard := .greeting (Feed.Client.greeting assets) :: s.heard })
  | _ => (.error (.feedConnection "connection refused"), { s with sessions := s.sessions.tail })

def read (c : Connection) : List Feed.Received → Feeding → Except Fault (Option String) × Feeding
  | [], s => (.ok none, { s with connection := none })
  | r :: rest, s =>
    let reaction := Feed.Client.react r
    let s := { s with
      connection :=
        if Feed.Client.staysConnected reaction then some { c with frames := rest } else none }
    match reaction with
    | .pong data => read c rest (s.hear c (.pong data))
    | .read => read c rest s
    | .hand frame => (.ok frame, s)
    | .fail e => (.error e, s)

def next (s : Feeding) : Except Fault (Option String) × Feeding :=
  match s.connection with
  | some c => read c c.frames s
  | none => (.error Feed.Client.notConnected, s)

end Feeding

end TradingDesk.Rehearsal
