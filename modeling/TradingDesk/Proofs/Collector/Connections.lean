import TradingDesk.Proofs.Collector.Persisted
/-!
# Connections of a stream collector

A collector connects to the feed, reads what it sends until it is lost, waits and connects again,
and may be told to stop at any time. A quote joins halves that came on one connection. The collector
gives up just when the attempts that its schedule allows were all in vain: as many in a row as that
after a connection that brought a text, and one more when none has brought any. Otherwise it ends
only when it was told to.
-/

namespace TradingDesk

/-! ### Where halves come from -/

/-- What is held is a half of its side that has some property. -/
def Held.Among (P : QuoteHalf → Prop) : Held → Prop
  | .nothing => True
  | .bid half => half.side = .buy ∧ P half
  | .ask half => half.side = .sell ∧ P half

/-- A quote that joins halves with some property. -/
def Quote.JoinsAmong (P : QuoteHalf → Prop) (q : Quote) : Prop :=
  ∃ bid ask, q.Joins bid ask ∧ (bid.side = .buy ∧ P bid) ∧ ask.side = .sell ∧ P ask

theorem Quote.JoinsAmong.imp {P P' : QuoteHalf → Prop} {q : Quote} (h : q.JoinsAmong P)
    (himp : ∀ half, P half → P' half) : q.JoinsAmong P' := by
  obtain ⟨bid, ask, hjoins, ⟨hbuy, hbid⟩, hsell, hask⟩ := h
  exact ⟨bid, ask, hjoins, ⟨hbuy, himp bid hbid⟩, hsell, himp ask hask⟩

namespace Held

variable {P P' : QuoteHalf → Prop} {held : Held} {half : QuoteHalf}

theorem Among.imp (h : held.Among P) (himp : ∀ half, P half → P' half) : held.Among P' := by
  cases held with
  | nothing => trivial
  | bid half => exact ⟨h.1, himp half h.2⟩
  | ask half => exact ⟨h.1, himp half h.2⟩

theorem Among.add (h : held.Among P) (hhalf : P half) (received : Instant) :
    (∀ q, (held.add half received).1 = some q → q.JoinsAmong P) ∧
      (held.add half received).2.Among P := by
  unfold Held.add
  cases hside : half.side with
  | buy =>
      cases held with
      | nothing => exact ⟨fun _ hq => (nomatch hq), hside, hhalf⟩
      | bid other => exact ⟨fun _ hq => (nomatch hq), hside, hhalf⟩
      | ask other =>
          refine ⟨fun q hq => ?_, trivial⟩
          cases hq
          exact ⟨half, other, Quote.ofHalves_joins half other received, ⟨hside, hhalf⟩, h⟩
  | sell =>
      cases held with
      | nothing => exact ⟨fun _ hq => (nomatch hq), hside, hhalf⟩
      | ask other => exact ⟨fun _ hq => (nomatch hq), hside, hhalf⟩
      | bid other =>
          refine ⟨fun q hq => ?_, trivial⟩
          cases hq
          exact ⟨other, half, Quote.ofHalves_joins other half received, h, hside, hhalf⟩

end Held

namespace StreamCollector

/-- One of the texts tells the half. -/
def Delivered (texts : List String) (half : QuoteHalf) : Prop :=
  ∃ text ∈ texts, Feed.Message.ofText text = .ok (.half half)

theorem Delivered.append {texts : List String} {half : QuoteHalf} (text : String)
    (h : Delivered texts half) : Delivered (texts ++ [text]) half := by
  obtain ⟨other, hother, hmessage⟩ := h
  exact ⟨other, List.mem_append_left _ hother, hmessage⟩

theorem message_of_told? {c : StreamCollector} {text : String} {half : QuoteHalf}
    (h : c.told? text = some half) : Feed.Message.ofText text = .ok (.half half) := by
  unfold told? at h
  split at h
  · next hmessage =>
    simp only [Option.ite_none_right_eq_some, Option.some.injEq] at h
    obtain ⟨-, rfl⟩ := h
    exact hmessage
  · contradiction

/-- An append adds no document with another body. -/
theorem body_of_mem_append {s : Store} {collection id c : String} {body : Json} {now : Instant}
    {d : Document} (hd : d ∈ (s.append collection id body now).2.documents c) :
    d ∈ s.documents c ∨ d.body = body := by
  rw [Store.append_eq] at hd
  split at hd
  · exact .inl hd
  · split at hd
    · exact .inl hd
    · rw [Store.documents_commit] at hd
      split at hd
      · rcases List.mem_append.mp hd with hbefore | hnew
        · exact .inl hbefore
        · exact .inr (by rw [List.mem_singleton.mp hnew])
      · exact .inl hd

/-- A frame leaves held halves of the connection only, and stores only quotes made of such. -/
theorem handleFrame_among {c : StreamCollector} {texts : List String} (s : Store) (text : String)
    (time : Nat) (clock : Nat → Instant)
    (h : ∀ asset, (c.pairing.held asset).Among (Delivered texts)) :
    (∀ asset, ((c.handleFrame s text time clock).collector.pairing.held asset).Among
        (Delivered (texts ++ [text]))) ∧
      ∀ collection, ∀ d ∈ (c.handleFrame s text time clock).store.documents collection,
        d ∈ s.documents collection ∨
          ∃ q : Quote, d.body = q.toJson.settled ∧ q.JoinsAmong (Delivered (texts ++ [text])) := by
  have hearlier : ∀ asset, (c.pairing.held asset).Among (Delivered (texts ++ [text])) :=
    fun asset => (h asset).imp fun half => Delivered.append text
  cases htold : c.told? text with
  | none =>
      obtain ⟨stats, hframe, -⟩ := handleFrame_of_not_told s time clock htold
      rw [hframe]
      exact ⟨hearlier, fun _ d hd => .inl hd⟩
  | some half =>
      have hhalf : Delivered (texts ++ [text]) half :=
        ⟨text, List.mem_append_right _ List.mem_cons_self, message_of_told? htold⟩
      have hadd := (hearlier half.asset).add hhalf (clock 0)
      constructor
      · intro asset
        rw [(takes_sighted s time clock htold).pairing, Pairing.push_eq, Pairing.held_setHeld]
        split
        · exact hadd.2
        · exact hearlier asset
      · intro collection d hd
        let w : World := { collector := c, store := s }
        rcases w.frame_cases text time clock with ⟨-, hstore⟩ | ⟨q, n, now, -, hhanded, hperform⟩
        · have hdocuments := congrArg (Store.documents · collection) hstore
          exact .inl (hdocuments ▸ hd)
        · obtain ⟨half', htold', hpair⟩ := World.handed?_eq_some hhanded
          obtain rfl : half' = half := Option.some.inj (htold'.symm.trans htold)
          have happend : (c.handleFrame s text time clock).store =
              ((s.failNext 0).append (Collection.quotes q.asset) q.documentId q.toJson.settled
                now).2 := (congrArg Prod.snd hperform).symm
          rw [happend] at hd
          rcases body_of_mem_append hd with hbefore | hbody
          · exact .inl hbefore
          · exact .inr ⟨q, hbody, hadd.1 q hpair⟩

/-! ### Runs with what the feed delivered -/

/-- A run of a collector with its store, and what the feed has delivered to it. -/
structure Session where
  run : Run
  store : Store
  /-- The texts of each attempt to connect that has ended; there are none if it failed. -/
  past : List (List String) := []
  /-- The texts of the connection in use. -/
  current : List String := []
  cancelled : Bool := false

namespace Session

/-- What a happening adds to the record. -/
def note (x : Session) : Happening → Session
  | .connected (.ok ()) => { x with current := [] }
  | .frame (.ok (some text)) => { x with current := x.current ++ [text] }
  | .connected (.error _) | .frame (.ok none) | .frame (.error _) =>
    { x with past := x.past ++ [x.current], current := [] }
  | .woke => x
  | .shutdown => { x with cancelled := true }

def next (x : Session) (h : Happening) (time : Nat) (clock : Nat → Instant) : Session :=
  let (run, store, _) := x.run.next h x.store time clock
  { x.note h with run, store }

/-- What may happen at a stage. -/
inductive Fits : Stage → Happening → Prop
  | connected (result : Except Fault Unit) : Fits .connecting (.connected result)
  | frame (result : Except Fault (Option String)) : Fits .reading (.frame result)
  | woke (delay : Nat) : Fits (.pausing delay) .woke
  | shutdown {stage : Stage} (hgoing : ∀ result, stage ≠ .ended result) : Fits stage .shutdown

/-- The sessions of a collector on a store. Others may write what is no quote of its assets, and
writes to come may be about to fail. -/
inductive Reachable (c : Settings.Stream) (alerts : Alerts) (s : Store) : Session → Prop
  | start : Reachable c alerts s { run := start (ofSettings c alerts), store := s }
  | next {x : Session} {h : Happening} (time : Nat) (clock : Nat → Instant)
      (hfits : Fits x.run.stage h) (hreach : Reachable c alerts s x) :
      Reachable c alerts s (x.next h time clock)
  | elsewhere {x : Session} (call : Store.Call)
      (hother : ∀ write now, call = .write write now → ∀ asset ∈ c.assets,
        write.collection ≠ Collection.quotes (Text.upper asset))
      (hreach : Reachable c alerts s x) :
      Reachable c alerts s { x with store := x.store.call call }

/-! ### Quotes of one connection -/

/-- The quotes of an asset that were not there at the beginning join halves of one connection. -/
structure Separate (c : Settings.Stream) (s : Store) (x : Session) : Prop where
  held : x.run.stage = .reading → ∀ asset,
    (x.run.collector.pairing.held asset).Among (Delivered x.current)
  joined : ∀ asset ∈ c.assets, ∀ d ∈ x.store.documents (Collection.quotes (Text.upper asset)),
    d ∈ s.documents (Collection.quotes (Text.upper asset)) ∨
      ∃ texts ∈ x.past ++ [x.current], ∃ q : Quote, d.body = q.toJson.settled ∧
        q.JoinsAmong (Delivered texts)

/-! ### Attempts in vain -/

/-- How many attempts in a row have ended of which at most the first brought a text. -/
def spent (past : List (List String)) : Nat :=
  past.foldl (fun n texts => (if texts = [] then n else 0) + 1) 0

theorem spent_concat (past : List (List String)) (texts : List String) :
    spent (past ++ [texts]) = (if texts = [] then spent past else 0) + 1 := by
  unfold spent
  rw [List.foldl_append]
  rfl

/-- The last `n` attempts were in vain, after one that was not, or all of them were, `n + 1`. -/
def Exhausted (n : Nat) (past : List (List String)) : Prop :=
  past = List.replicate (n + 1) [] ∨
    ∃ before texts, texts ≠ [] ∧ past = before ++ texts :: List.replicate n []

theorem exhausted_zero (past : List (List String)) (texts : List String) :
    Exhausted 0 (past ++ [texts]) ↔ texts = [] → past = [] := by
  unfold Exhausted
  simp only [Nat.zero_add, List.replicate_one, List.replicate_zero]
  constructor
  · rintro (h | ⟨before, last, hlast, h⟩) hvain
    · exact (List.append_singleton_inj.mp h).1
    · exact absurd ((List.append_singleton_inj.mp h).2.symm.trans hvain) hlast
  · intro h
    by_cases hvain : texts = []
    · exact .inl (by rw [h hvain, hvain]; rfl)
    · exact .inr ⟨past, texts, hvain, rfl⟩

theorem exhausted_succ (n : Nat) (past : List (List String)) (texts : List String) :
    Exhausted (n + 1) (past ++ [texts]) ↔ texts = [] ∧ Exhausted n past := by
  unfold Exhausted
  simp only [List.replicate_succ' (n := n), List.replicate_succ' (n := n + 1),
    ← List.append_assoc, ← List.cons_append, List.append_singleton_inj]
  tauto

theorem exhausted_iff (n : Nat) (past : List (List String)) :
    Exhausted n past ↔ spent past = n + 1 := by
  induction past using List.reverseRecOn generalizing n with
  | nil => simp [Exhausted, spent]
  | append_singleton past texts ih =>
      rw [spent_concat, Nat.add_right_cancel_iff]
      cases n with
      | zero =>
          have hnone : spent past = 0 ↔ past = [] := by
            cases past using List.reverseRecOn with
            | nil => simp [spent]
            | append_singleton earlier last => simp [spent_concat]
          rw [exhausted_zero, ← hnone]
          split <;> simp_all
      | succ m =>
          rw [exhausted_succ, ih]
          split <;> simp_all

def exhaustedFault : Fault := .network "feed reconnect attempts exhausted"

/-- How the attempts that have been made stand to those that the schedule allows. -/
def Waiting (n : Nat) (x : Session) : Prop :=
  x.run.backoff.attempts = (if x.current = [] then spent x.past else 0) ∧
    (0 < n → spent x.past ≤ n)

def Counted (n : Nat) (x : Session) : Prop :=
  match x.run.stage with
  | .connecting | .pausing _ => x.current = [] ∧ x.Waiting n
  | .reading => x.Waiting n
  | .ended (.ok ()) => x.cancelled = true ∧ (0 < n → spent x.past ≤ n)
  | .ended (.error fault) => fault = exhaustedFault ∧ 0 < n ∧ spent x.past = n + 1

variable {x : Session} {n : Nat}

/-- An attempt that ends is waited after if the schedule allows another one. -/
theorem counted_backOff (h : x.Waiting x.run.backoff.settings.maxAttempts) :
    Counted x.run.backoff.settings.maxAttempts
      { x with run := x.run.backOff, past := x.past ++ [x.current], current := [] } := by
  obtain ⟨hattempts, hwithin⟩ := h
  have hspent : spent (x.past ++ [x.current]) = x.run.backoff.attempts + 1 := by
    rw [spent_concat, hattempts]
  unfold Run.backOff Backoff.next?
  cases hmay : x.run.backoff.mayRetry with
  | true =>
      rw [if_pos rfl]
      refine ⟨rfl, by rw [if_pos rfl, hspent], fun hlimit => ?_⟩
      rw [hspent]
      simp only [Backoff.mayRetry, Bool.or_eq_true, beq_iff_eq, decide_eq_true_eq] at hmay
      omega
  | false =>
      rw [if_neg Bool.false_ne_true]
      simp only [Backoff.mayRetry, Bool.or_eq_false_iff, beq_eq_false_iff_ne,
        decide_eq_false_iff_not] at hmay
      have hle : x.run.backoff.attempts ≤ x.run.backoff.settings.maxAttempts := by
        rw [hattempts]
        split
        · exact hwithin (Nat.pos_of_ne_zero hmay.1)
        · omega
      refine ⟨rfl, Nat.pos_of_ne_zero hmay.1, ?_⟩
      rw [hspent]
      omega

theorem settings_backOff (r : Run) : r.backOff.backoff.settings = r.backoff.settings := by
  unfold Run.backOff Backoff.next?
  split
  · next heq =>
    split at heq
    · cases heq
      rfl
    · cases heq
  · rfl

variable {h : Happening} {time : Nat} {clock : Nat → Instant}

theorem settings_next (hfits : Fits x.run.stage h) :
    (x.next h time clock).run.backoff.settings = x.run.backoff.settings := by
  obtain ⟨⟨collector, backoff, stage⟩, store, past, current, cancelled⟩ := x
  cases hfits with
  | connected result =>
      rcases result with fault | ⟨⟩
      · exact settings_backOff _
      · rfl
  | frame result =>
      rcases result with fault | _ | text
      · exact settings_backOff _
      · exact settings_backOff _
      · rfl
  | woke delay => rfl
  | shutdown hgoing =>
      cases stage with
      | ended result => exact absurd rfl (hgoing result)
      | _ => rfl

theorem Counted.next (hcounted : x.Counted x.run.backoff.settings.maxAttempts)
    (hfits : Fits x.run.stage h) :
    (x.next h time clock).Counted x.run.backoff.settings.maxAttempts := by
  obtain ⟨⟨collector, backoff, stage⟩, store, past, current, cancelled⟩ := x
  cases hfits with
  | connected result =>
      obtain ⟨hnothing, hwaiting⟩ := hcounted
      rcases result with fault | ⟨⟩
      · exact counted_backOff hwaiting
      · obtain rfl : current = [] := hnothing
        exact hwaiting
  | frame result =>
      let lost (detail : String) : Session :=
        ⟨Run.alert ⟨collector, backoff, .reading⟩ lostAlert detail, store, past, current, cancelled⟩
      rcases result with fault | _ | text
      · exact counted_backOff (x := lost fault.message) hcounted
      · exact counted_backOff (x := lost "closed by server") hcounted
      · -- a text begins the schedule anew
        refine ⟨?_, hcounted.2⟩
        rw [if_neg (by exact List.concat_ne_nil _ _)]
        rfl
  | woke delay => exact hcounted
  | shutdown hgoing =>
      cases stage with
      | ended result => exact absurd rfl (hgoing result)
      | connecting => exact ⟨rfl, hcounted.2.2⟩
      | pausing delay => exact ⟨rfl, hcounted.2.2⟩
      | reading => exact ⟨rfl, hcounted.2⟩

theorem backOff_stage_ne (r : Run) : r.backOff.stage ≠ .reading := by
  unfold Run.backOff
  split <;> exact Stage.noConfusion

/-- A connection that is lost, or was not made, leaves the documents. -/
theorem Separate.lost {c : Settings.Stream} {s : Store} (h : Separate c s x) (r : Run) :
    Separate c s
      { x with run := r.backOff, past := x.past ++ [x.current], current := [] } where
  held hreading := absurd hreading (backOff_stage_ne r)
  joined asset hasset d hd := by
    refine (h.joined asset hasset d hd).imp_right ?_
    rintro ⟨texts, htexts, hquote⟩
    exact ⟨texts, List.mem_append_left _ htexts, hquote⟩

theorem Separate.next {c : Settings.Stream} {s : Store} (hseparate : Separate c s x)
    (hfits : Fits x.run.stage h) (hcurrent : x.run.stage = .connecting → x.current = []) :
    Separate c s (x.next h time clock) := by
  obtain ⟨⟨collector, backoff, stage⟩, store, past, current, cancelled⟩ := x
  cases hfits with
  | connected result =>
      rcases result with fault | ⟨⟩
      · exact hseparate.lost _
      · obtain rfl : current = [] := hcurrent rfl
        -- nothing is held when a connection begins
        exact ⟨fun _ _ => trivial, hseparate.joined⟩
  | frame result =>
      rcases result with fault | _ | text
      · exact hseparate.lost _
      · exact hseparate.lost _
      · obtain ⟨hheld, hstored⟩ := handleFrame_among store text time clock (hseparate.held rfl)
        refine ⟨fun _ => hheld, fun asset hasset d hd => ?_⟩
        rcases hstored _ d hd with hbefore | ⟨q, hbody, hjoins⟩
        · refine (hseparate.joined asset hasset d hbefore).imp_right ?_
          rintro ⟨texts, htexts, q, hbody, hjoins⟩
          rcases List.mem_append.mp htexts with hpast | hlast
          · exact ⟨texts, List.mem_append_left _ hpast, q, hbody, hjoins⟩
          · obtain rfl := List.mem_singleton.mp hlast
            refine ⟨_, List.mem_append_right _ List.mem_cons_self, q, hbody, ?_⟩
            exact hjoins.imp fun half => Delivered.append text
        · exact .inr ⟨_, List.mem_append_right _ List.mem_cons_self, q, hbody, hjoins⟩
  | woke delay => exact ⟨fun hreading => (nomatch hreading), hseparate.joined⟩
  | shutdown hgoing =>
      cases stage with
      | ended result => exact absurd rfl (hgoing result)
      | _ => exact ⟨fun hreading => (nomatch hreading), hseparate.joined⟩

theorem Separate.elsewhere {c : Settings.Stream} {s : Store} (h : Separate c s x)
    (call : Store.Call)
    (hother : ∀ write now, call = .write write now → ∀ asset ∈ c.assets,
      write.collection ≠ Collection.quotes (Text.upper asset)) :
    Separate c s { x with store := x.store.call call } where
  held := h.held
  joined asset hasset d hd := by
    apply h.joined asset hasset d
    cases call with
    | failNext count => exact hd
    | write write now =>
        have hne := (hother write now rfl asset hasset).symm
        exact (Store.perform_of_ne write now hne).1 ▸ hd

/-! ### What a session comes to -/

structure Keeps (c : Settings.Stream) (s : Store) (x : Session) : Prop where
  /-- A quote that was not there at the beginning joins halves of one connection. -/
  joined : ∀ asset ∈ c.assets, ∀ d ∈ x.store.documents (Collection.quotes (Text.upper asset)),
    d ∈ s.documents (Collection.quotes (Text.upper asset)) ∨
      ∃ texts ∈ x.past ++ [x.current], ∃ q : Quote, d.body = q.toJson.settled ∧
        q.JoinsAmong (Delivered texts)
  /-- It has given up just when the attempts that are allowed were in vain. -/
  fails : (∃ fault, x.run.stage = .ended (.error fault)) ↔
    0 < c.reconnect.maxAttempts ∧ Exhausted c.reconnect.maxAttempts x.past
  fault : ∀ fault, x.run.stage = .ended (.error fault) → fault = exhaustedFault
  cancelled : x.run.stage = .ended (.ok ()) → x.cancelled = true

theorem Reachable.sound {c : Settings.Stream} {alerts : Alerts} {s : Store}
    (hreach : Reachable c alerts s x) :
    x.run.backoff.settings = c.reconnect ∧ x.Counted c.reconnect.maxAttempts ∧ Separate c s x := by
  induction hreach with
  | start =>
      refine ⟨rfl, ⟨rfl, rfl, fun _ => Nat.zero_le _⟩, ?_⟩
      exact ⟨fun hreading => (nomatch hreading), fun _ _ d hd => .inl hd⟩
  | @next x h time clock hfits _ ih =>
      obtain ⟨hsettings, hcounted, hseparate⟩ := ih
      have hcurrent : x.run.stage = .connecting → x.current = [] := by
        intro hconnecting
        unfold Counted at hcounted
        rw [hconnecting] at hcounted
        exact hcounted.1
      rw [← hsettings] at hcounted
      refine ⟨(settings_next hfits).trans hsettings, ?_, hseparate.next hfits hcurrent⟩
      exact hsettings ▸ hcounted.next hfits
  | elsewhere call hother _ ih => exact ⟨ih.1, ih.2.1, ih.2.2.elsewhere call hother⟩

theorem connections_are_separate_and_counted {c : Settings.Stream} {alerts : Alerts} {s : Store}
    {x : Session} (hreach : Reachable c alerts s x) : x.Keeps c s := by
  obtain ⟨-, hcounted, hseparate⟩ := hreach.sound
  unfold Counted at hcounted
  constructor
  case joined => exact hseparate.joined
  case fails =>
    rw [exhausted_iff]
    constructor
    · rintro ⟨fault, hended⟩
      rw [hended] at hcounted
      exact hcounted.2
    · rintro ⟨hlimit, hspent⟩
      -- any other stage has attempts left
      have hspentAll : ¬ spent x.past ≤ c.reconnect.maxAttempts := by omega
      split at hcounted
      · exact absurd (hcounted.2.2 hlimit) hspentAll
      · exact absurd (hcounted.2.2 hlimit) hspentAll
      · exact absurd (hcounted.2 hlimit) hspentAll
      · exact absurd (hcounted.2 hlimit) hspentAll
      · next fault hended => exact ⟨fault, hended⟩
  case fault =>
    intro fault hended
    rw [hended] at hcounted
    exact hcounted.1
  case cancelled =>
    intro hended
    rw [hended] at hcounted
    exact hcounted.1

/-! ### A session that gives up -/

def oneRetry : Settings.Stream :=
  { assets := ["BTC-USD"], reconnect := { maxAttempts := 1 } }

def bidText : String := World.coinTicker .buy "1"

def askText : String := World.coinTicker .sell "2"

def happenings : List Happening :=
  [.connected (.ok ()), .frame (.ok (some bidText)), .frame (.ok (some askText)),
    .frame (.ok none), .woke, .connected (.error (.network "refused"))]

/-- A connection that brings a quote and is lost, and then one that fails. -/
def givenUp : Session :=
  happenings.foldl (fun x h => x.next h 0 fun _ => default)
    { run := start (ofSettings oneRetry {}), store := {} }

theorem givenUp_reachable : Reachable oneRetry {} {} givenUp := by
  have hstart : Reachable oneRetry {} {} { run := start (ofSettings oneRetry {}), store := {} } :=
    .start
  have hconnected := hstart.next 0 (fun _ => default) (.connected (.ok ()))
  have hbuy := hconnected.next 0 (fun _ => default) (.frame (.ok (some bidText)))
  have hsell := hbuy.next 0 (fun _ => default) (.frame (.ok (some askText)))
  have hlost := hsell.next 0 (fun _ => default) (.frame (.ok none))
  have hwoke := hlost.next 0 (fun _ => default) (.woke _)
  have hrefused := hwoke.next 0 (fun _ => default) (.connected (.error (.network "refused")))
  exact hrefused

theorem givenUp_keeps : Reachable oneRetry {} {} givenUp ∧
    givenUp.past = [[bidText, askText], []] ∧
    givenUp.run.stage = .ended (.error exhaustedFault) ∧ givenUp.Keeps oneRetry {} :=
  ⟨givenUp_reachable, rfl, rfl, connections_are_separate_and_counted givenUp_reachable⟩

end Session
end StreamCollector
end TradingDesk
