import TradingDesk.Rehearsal.Session
/-!
# Commands of a rehearsal

What can be done with an executor, step by step. What happened is told once, after the command that
brought it about.
-/

namespace TradingDesk.Rehearsal

structure Posting where
  collection : String
  id : String
  body : Json

inductive Command where
  | commit (p : Posting)
  /-- Commits a document and hands its event to the executor. -/
  | tick (p : Posting)
  | event (e : ChangeEvent)
  | recover
  /-- Asks from where changes of a collection are still to be evaluated. -/
  | resume (collection : String)
  | failWrites (count : Nat)
  /-- Asks for a shutdown after a delay. -/
  | shutDown (delay : Nat)
  /-- Drops the executor and restores another from the store. -/
  | restart
  /-- Runs the executor to its end on a queue that may stay open. -/
  | run (events : List ChangeEvent) (keepOpen : Bool)

inductive Answer where
  | done (result : Except Fault Unit)
  | committed (result : Except Fault ChangeEvent)
  | sequence (n : Option Nat)
  | overflown

/-- A session, what restarts begin with, and whether its executor is still there. -/
structure Bench (σ : Type) where
  session : Session σ
  fresh : σ
  alive : Bool := true

namespace Bench

variable {σ : Type}

def callAnswer (s : Session σ) : Answer :=
  match s.executor.stage with
  | .ready result => .done result
  | _ => .overflown

def commit (s : Session σ) (out : Session.Outside) (p : Posting) :
    Except Fault ChangeEvent × Session σ :=
  let (result, store) := s.store.append p.collection p.id p.body (out.wall s.time)
  (result.map fun sequence => { collection := p.collection, documentId := p.id, sequence },
    { s with store })

def handled (b : Bench σ) (s : Session σ) : Answer × Bench σ :=
  (callAnswer s, { b with session := s })

/-- Restores the executor from the store; what it announced stays told. -/
def restart (b : Bench σ) (out : Session.Outside) : Answer × Bench σ :=
  let s := b.session
  let x := s.executor
  let stored := s.store.fetch? Collection.states x.setup.portfolio
  match Executor.restore x.setup x.strategy b.fresh stored (out.wall s.time) with
  | .ok executor =>
    (.done (.ok ()), { b with session := { s with executor, shutdown := none }, alive := true })
  | .error e => (.done (.error e), b)

def perform (b : Bench σ) (out : Session.Outside) (fuel : Nat) : Command → Answer × Bench σ
  | .commit p =>
    let (result, session) := commit b.session out p
    (.committed result, { b with session })
  | .tick p =>
    match commit b.session out p with
    | (.ok e, s) => b.handled (s.handle out fuel e)
    | (.error e, session) => (.done (.error e), { b with session })
  | .event e => b.handled (b.session.handle out fuel e)
  | .recover => b.handled (b.session.recover out fuel)
  | .resume collection => (.sequence (b.session.executor.resumeSequence? collection), b)
  | .failWrites count =>
    let s := b.session
    (.done (.ok ()), { b with session := { s with store := s.store.failNext count } })
  | .shutDown delay =>
    let s := b.session
    (.done (.ok ()), { b with session := { s with shutdown := some (s.time + delay) } })
  | .restart => b.restart out
  | .run events keepOpen =>
    let s := b.session.run out fuel events keepOpen
    (if s.isOver then .overflown else .done (.ok ()), { b with session := s, alive := false })

def stored? (b : Bench σ) : Option Json :=
  b.session.store.fetch? Collection.states b.session.executor.setup.portfolio

/-- Tells the changes of phase and the calls of the venue since the last time. -/
def tell (b : Bench σ) : (List Transition × List (Nat × Call)) × Bench σ :=
  let s := b.session
  ((s.executor.announced.reverse, s.venue.calls.reverse),
    { b with session := { s with
        executor := { s.executor with announced := [] }, venue := { s.venue with calls := [] } } })

end Bench

end TradingDesk.Rehearsal
