import TradingDesk.Proofs.Collector.Quotes
import TradingDesk.Proofs.Store.AppendOnly
/-!
# Frames that say nothing of an asset

Most frames of a feed say nothing of an asset: they cannot be read, or carry no half, or the half
of another asset. What a collector stores of an asset, holds of it and remembers of its last passage
is the same without them, apart from the times at which quotes were received. Only an asset whose
name has the same small letters writes into the same collection.
-/

namespace TradingDesk

/-! ### Quotes up to the time they were received at -/

/-- Documents that are equal, or hold quotes that differ only in when they were received. -/
structure Document.Agrees (d d' : Document) : Prop where
  collection : d.collection = d'.collection
  sequence : d.sequence = d'.sequence
  id : d.id = d'.id
  body : d.body = d'.body ∨ ∃ (q : Quote) (received : Instant), d.body = q.toJson.settled ∧
    d'.body = { q with receivedTime := received : Quote }.toJson.settled

theorem Document.Agrees.refl (d : Document) : d.Agrees d := ⟨rfl, rfl, rfl, .inl rfl⟩

/-- The time at which a half arrives changes only that time of the quote that it completes. -/
theorem Held.add_received (held : Held) (half : QuoteHalf) (received received' : Instant) :
    held.add half received' =
      ((held.add half received).1.map fun q => { q with receivedTime := received' },
        (held.add half received).2) := by
  unfold Held.add
  cases held <;> cases half.side <;> rfl

/-! ### One collection of two stores -/

namespace Store

/-- The collection holds the same in both stores, up to when quotes were received. -/
structure AgreesOn (collection : String) (s s' : Store) : Prop where
  documents : List.Forall₂ Document.Agrees (s.documents collection) (s'.documents collection)
  sequences : (s.log collection).sequences = (s'.log collection).sequences

variable {s s' : Store} {collection id : String}

theorem AgreesOn.refl (collection : String) (s : Store) : s.AgreesOn collection s :=
  ⟨List.forall₂_same.mpr fun d _ => Document.Agrees.refl d, rfl⟩

/-- Logs elsewhere may change. -/
theorem AgreesOn.left {s'' : Store} (h : s.AgreesOn collection s')
    (hlog : s''.log collection = s.log collection) : s''.AgreesOn collection s' where
  documents := by
    unfold Store.documents
    rw [hlog]
    exact h.documents
  sequences := by
    rw [hlog]
    exact h.sequences

theorem failures_append (h : s.failures = 0) (body : Json) (now : Instant) :
    (s.append collection id body now).2.failures = 0 := by
  rw [append_eq, if_neg (by omega)]
  split <;> exact h

theorem log_append_of_ne {c : String} (hne : c ≠ collection) (h : s.failures = 0) (body : Json)
    (now : Instant) : (s.append collection id body now).2.log c = s.log c := by
  rw [append_eq, if_neg (by omega)]
  split
  · rfl
  · rw [log_commit, if_neg hne]

/-- Appends of quotes that differ only in when they were received. -/
theorem AgreesOn.append {q : Quote} (h : s.AgreesOn collection s') (hs : s.failures = 0)
    (hs' : s'.failures = 0) (received now now' : Instant) :
    (s.append collection id q.toJson.settled now).2.AgreesOn collection
      (s'.append collection id { q with receivedTime := received : Quote }.toJson.settled
        now').2 := by
  have hsequence : s.sequenceOf? collection id = s'.sequenceOf? collection id := by
    rw [sequenceOf?, sequenceOf?, h.sequences]
  have hhead : s.head collection = s'.head collection := h.documents.length_eq
  rw [append_eq, if_neg (by omega), append_eq, if_neg (by omega), hsequence]
  cases s'.sequenceOf? collection id with
  | some sequence => exact h
  | none =>
      constructor
      case documents =>
        rw [documents_commit, if_pos rfl, documents_commit, if_pos rfl]
        apply List.rel_append h.documents
        exact .cons ⟨rfl, congrArg (· + 1) hhead, rfl, .inr ⟨q, received, rfl, rfl⟩⟩ .nil
      case sequences =>
        rw [log_commit, if_pos rfl, log_commit, if_pos rfl]
        simp only [Log.push, hhead, h.sequences]

/-- A write to a store without failures to come takes place at once. -/
theorem persist_append (h : s.failures = 0) (id : String) (body : Json) (retry : BackoffSettings)
    (clock : Nat → Instant) :
    (s.persist (.append collection id body) retry clock).2.2 =
      (s.append collection id body (clock 0)).2 := by
  unfold persist
  rw [h, persist.go, attempt, perform, append_eq, if_neg (by omega)]
  cases s.sequenceOf? collection id <;> rfl

end Store

namespace StreamCollector

/-! ### Frames -/

/-- A text frame, when it arrives, and what the wall clock tells from then on. -/
structure Frame where
  text : String
  time : Nat
  clock : Nat → Instant

/-- A frame without what the wall clock tells. -/
def Frame.arrival (f : Frame) : String × Nat := (f.text, f.time)

/-- A frame that says nothing of an asset. -/
def Frame.isNoise (asset : String) (f : Frame) : Bool :=
  match Feed.Message.ofText f.text with
  -- it cannot be read
  | .error _ => true
  | .ok (.half half) => half.asset != asset
  | .ok (.snapshot _) => true
  -- it is about the connection
  | .ok .heartbeat | .ok .subscriptions | .ok (.error _) | .ok (.other _) => true

namespace World

def frames (w : World) (fs : List Frame) : World :=
  fs.foldl (fun w f => w.frame f.text f.time f.clock) w

theorem frames_cons (w : World) (f : Frame) (fs : List Frame) :
    w.frames (f :: fs) = (w.frame f.text f.time f.clock).frames fs := rfl

variable {c : Settings.Stream} {alerts : Alerts} {w w' : World} {asset : String} {f : Frame}

/-- What two worlds know of an asset is the same, up to when quotes were received. -/
structure Alike (asset : String) (w w' : World) : Prop where
  assets : w.collector.assets = w'.collector.assets
  interval : w.collector.gate.intervalOf asset = w'.collector.gate.intervalOf asset
  held : w.collector.pairing.held asset = w'.collector.pairing.held asset
  last : w.collector.gate.last? asset = w'.collector.gate.last? asset
  store : w.store.AgreesOn (Collection.quotes asset) w'.store

theorem Alike.refl (asset : String) (w : World) : Alike asset w w :=
  ⟨rfl, rfl, rfl, rfl, .refl _ _⟩

/-- A world whose store has no failures to come. -/
structure Quiet (w : World) : Prop where
  sound : w.Sound
  failures : w.store.failures = 0

theorem told_of_not_noise (hasset : asset ∈ w.collector.assets) (h : f.isNoise asset = false) :
    ∃ half, w.collector.told? f.text = some half ∧ half.asset = asset := by
  unfold Frame.isNoise at h
  unfold told?
  cases hmessage : Feed.Message.ofText f.text with
  | error e => simp [hmessage] at h
  | ok message =>
      cases message with
      | half half =>
          obtain rfl : half.asset = asset := by simpa [hmessage] using h
          exact ⟨half, by simpa using hasset, rfl⟩
      | _ => simp [hmessage] at h

theorem asset_ne_of_noise {half : QuoteHalf} (h : f.isNoise asset = true)
    (htold : w.collector.told? f.text = some half) : half.asset ≠ asset := by
  unfold Frame.isNoise at h
  unfold told? at htold
  cases hmessage : Feed.Message.ofText f.text with
  | error e => simp [hmessage] at htold
  | ok message =>
      cases message with
      | half other =>
          obtain ⟨-, rfl⟩ : other.asset ∈ w.collector.assets ∧ other = half := by
            simpa [hmessage] using htold
          simpa [hmessage] using h
      | _ => simp [hmessage] at htold

/-- A half comes to the same in both worlds. -/
theorem Alike.handed (h : Alike asset w w') (hsound : w.Sound) {half : QuoteHalf}
    (hhalf : half.asset = asset) (time : Nat) (received received' : Instant) :
    (w'.collector.sighted half time received').handed? =
      (w.collector.sighted half time received).handed?.map
        fun q => { q with receivedTime := received' } := by
  subst hhalf
  have hpair' : (w'.collector.sighted half time received').pair? =
      (w.collector.sighted half time received).pair?.map
        fun q => { q with receivedTime := received' } := by
    change ((w'.collector.pairing.held half.asset).add half received').1 = _
    rw [← h.held, Held.add_received _ half received received']
    rfl
  cases hpair : (w.collector.sighted half time received).pair? with
  | none =>
      rw [hpair] at hpair'
      simp only [Sighting.handed?, hpair, hpair', Option.map_none, ite_self]
  | some q =>
      rw [hpair] at hpair'
      have hopen : w'.collector.gate.isOpen q.asset time =
          w.collector.gate.isOpen q.asset time := by
        rw [(hsound.pair_sighted time received hpair).1]
        simp only [RateGate.isOpen, h.last, h.interval]
      have hpassed : (w.collector.sighted half time received).passed =
          (w'.collector.sighted half time received').passed := by
        change Option.any _ (w.collector.sighted half time received).pair? =
          Option.any _ (w'.collector.sighted half time received').pair?
        rw [hpair, hpair']
        exact hopen.symm
      simp only [Sighting.handed?, ← hpassed, hpair, hpair']
      split <;> rfl

/-- What a frame with a half does when the store has no failures to come. -/
theorem Quiet.frame_told (h : w.Quiet) {half : QuoteHalf}
    (htold : w.collector.told? f.text = some half) :
    let x := w.collector.sighted half f.time (f.clock 0)
    let w₁ := w.frame f.text f.time f.clock
    w₁.collector.assets = w.collector.assets ∧
      w₁.collector.pairing = (w.collector.pairing.push half (f.clock 0)).2 ∧
      w₁.collector.gate = x.handed?.elim w.collector.gate (fun q =>
        w.collector.gate.setLast q.asset f.time) ∧
      w₁.store = x.handed?.elim w.store fun q =>
        (w.store.append (Collection.quotes q.asset) q.documentId q.toJson.settled
          (f.clock 0)).2 := by
  have htakes := takes_sighted w.store f.time f.clock htold
  refine ⟨htakes.assets, htakes.pairing, htakes.gate, ?_⟩
  have hstore := congrArg Prod.fst htakes.written
  cases hhanded : (w.collector.sighted half f.time (f.clock 0)).handed? with
  | none => rwa [hhanded] at hstore
  | some q =>
      rw [hhanded] at hstore
      exact hstore.trans (Store.persist_append h.failures q.documentId q.toJson.settled _ f.clock)

theorem Quiet.frame (h : w.Quiet) (f : Frame) : (w.frame f.text f.time f.clock).Quiet where
  sound := h.sound.frame f.text f.time f.clock
  failures := by
    cases htold : w.collector.told? f.text with
    | none =>
        obtain ⟨stats, hframe, -⟩ := handleFrame_of_not_told w.store f.time f.clock htold
        simp only [World.frame, hframe, h.failures]
    | some half =>
        rw [(h.frame_told htold).2.2.2]
        cases (w.collector.sighted half f.time (f.clock 0)).handed? with
        | none => exact h.failures
        | some q => exact Store.failures_append h.failures _ _

/-- A frame with a half of the asset keeps two worlds alike. -/
theorem Alike.frame (h : Alike asset w w') (hquiet : w.Quiet) (hquiet' : w'.Quiet)
    (hasset : asset ∈ w.collector.assets) {f f' : Frame} (hnoise : f.isNoise asset = false)
    (harrival : f'.arrival = f.arrival) :
    Alike asset (w.frame f.text f.time f.clock) (w'.frame f'.text f'.time f'.clock) := by
  obtain ⟨text, time, clock⟩ := f
  obtain ⟨text', time', clock'⟩ := f'
  obtain ⟨rfl, rfl⟩ : text' = text ∧ time' = time := by simpa [Frame.arrival] using harrival
  obtain ⟨half, htold, rfl⟩ := told_of_not_noise hasset hnoise
  have htold' : w'.collector.told? text' = some half := by
    rw [← htold]
    unfold told?
    rw [h.assets]
  obtain ⟨hassets, hpairing, hgate, hstore⟩ := hquiet.frame_told htold
  obtain ⟨hassets', hpairing', hgate', hstore'⟩ :=
    hquiet'.frame_told (f := ⟨text', time', clock'⟩) htold'
  have hhanded := h.handed hquiet.sound rfl time' (clock 0) (clock' 0)
  simp only at hgate hgate' hstore hstore'
  rw [hhanded] at hgate' hstore'
  constructor
  case assets => rw [hassets, hassets', h.assets]
  case held =>
    rw [hpairing, hpairing', Pairing.push_eq, Pairing.push_eq, Pairing.held_setHeld,
      Pairing.held_setHeld, if_pos rfl, if_pos rfl, h.held,
      Held.add_received _ half (clock 0) (clock' 0)]
  all_goals
    cases hq : (w.collector.sighted half time' (clock 0)).handed? with
    | none =>
        rw [hq] at hgate hgate' hstore hstore'
        simp only [hgate, hgate', hstore, hstore', Option.map_none, Option.elim_none, h.interval,
          h.last, h.store]
    | some q => ?_
  all_goals
    rw [hq] at hgate hgate' hstore hstore'
    simp only [Option.map_some, Option.elim_some] at hgate hgate' hstore hstore'
    have hasset := hquiet.sound.asset_of_handed hq
  case interval => rw [hgate, hgate', RateGate.intervalOf_setLast, h.interval]; rfl
  case last => rw [hgate, hgate', RateGate.last?_setLast, RateGate.last?_setLast, h.last]
  case store =>
    have hbefore := h.store
    rw [← hasset] at hbefore ⊢
    rw [hstore, hstore']
    exact hbefore.append hquiet.failures hquiet'.failures (clock' 0) (clock 0) (clock' 0)

/-- A half of another asset, with another collection, is as if it had not come. -/
theorem Alike.foreign (h : Alike asset w w') (hquiet : w.Quiet) {half : QuoteHalf}
    (htold : w.collector.told? f.text = some half) (hother : half.asset ≠ asset)
    (hcollection : Collection.quotes asset ≠ Collection.quotes half.asset) :
    Alike asset (w.frame f.text f.time f.clock) w' := by
  obtain ⟨hassets, hpairing, hgate, hstore⟩ := hquiet.frame_told htold
  constructor
  case assets => rw [hassets, h.assets]
  case held =>
    rw [hpairing, Pairing.push_eq, Pairing.held_setHeld, if_neg hother.symm, h.held]
  all_goals
    cases hq : (w.collector.sighted half f.time (f.clock 0)).handed? with
    | none => simp only [hgate, hstore, hq, Option.elim_none, h.interval, h.last, h.store]
    | some q => ?_
  all_goals
    simp only [hq, Option.elim_some] at hgate hstore
    have hasset := hquiet.sound.asset_of_handed hq
  case interval => rw [hgate, RateGate.intervalOf_setLast, h.interval]
  case last =>
    rw [hgate, RateGate.last?_setLast, if_neg (by simpa [hasset] using hother.symm), h.last]
  case store =>
    rw [← hasset] at hcollection
    rw [hstore]
    exact h.store.left (Store.log_append_of_ne hcollection hquiet.failures _ _)

theorem Alike.noise (h : Alike asset w w') (hquiet : w.Quiet)
    (hcollection : ∀ other ∈ w.collector.assets, other ≠ asset →
      Collection.quotes asset ≠ Collection.quotes other)
    (hnoise : f.isNoise asset = true) : Alike asset (w.frame f.text f.time f.clock) w' := by
  cases htold : w.collector.told? f.text with
  | none =>
      obtain ⟨stats, hframe, -⟩ := handleFrame_of_not_told w.store f.time f.clock htold
      unfold World.frame
      rw [hframe]
      exact { h with }
  | some half =>
      have hother := asset_ne_of_noise hnoise htold
      have hmem : half.asset ∈ w.collector.assets := by
        simpa using (handleFrame_of_told w.store f.time f.clock htold).2
      exact h.foreign hquiet htold hother (hcollection half.asset hmem hother)

theorem frame_assets (w : World) (f : Frame) :
    (w.frame f.text f.time f.clock).collector.assets = w.collector.assets := by
  cases htold : w.collector.told? f.text with
  | none =>
      obtain ⟨stats, hframe, -⟩ := handleFrame_of_not_told w.store f.time f.clock htold
      simp only [World.frame, hframe]
  | some half => exact (takes_sighted w.store f.time f.clock htold).assets

/-- Two worlds stay alike when only one of them sees the frames that say nothing of the asset. -/
theorem Alike.frames {fs kept : List Frame} (h : Alike asset w w') (hquiet : w.Quiet)
    (hquiet' : w'.Quiet) (hasset : asset ∈ w.collector.assets)
    (hcollection : ∀ other ∈ w.collector.assets, other ≠ asset →
      Collection.quotes asset ≠ Collection.quotes other)
    (hkept : kept.map Frame.arrival =
      (fs.filter fun f => !f.isNoise asset).map Frame.arrival) :
    Alike asset (w.frames fs) (w'.frames kept) := by
  induction fs generalizing w w' kept with
  | nil =>
      obtain rfl : kept = [] := by simpa using hkept
      exact h
  | cons f rest ih =>
      have hassets := w.frame_assets f
      rw [frames_cons]
      cases hnoise : f.isNoise asset with
      | true =>
          rw [List.filter_cons_of_neg (by simp [hnoise])] at hkept
          exact ih (h.noise hquiet hcollection hnoise) (hquiet.frame f) hquiet'
            (hassets ▸ hasset) (hassets ▸ hcollection) hkept
      | false =>
          rw [List.filter_cons_of_pos (by simp [hnoise]), List.map_cons] at hkept
          obtain ⟨f', kept, rfl, harrival, hrest⟩ := List.map_eq_cons_iff.mp hkept
          rw [frames_cons]
          exact ih (h.frame hquiet hquiet' hasset hnoise harrival) (hquiet.frame f)
            (hquiet'.frame f') (hassets ▸ hasset) (hassets ▸ hcollection) hrest

/-- What a collector keeps of an asset whose collection is its own is the same without all frames
that say nothing of the asset. -/
theorem noise_leaves_asset_alone {c : Settings.Stream} {alerts : Alerts} {w : World}
    (hreach : Reachable c alerts w) (hfailures : w.store.failures = 0) {asset : String}
    (hasset : asset ∈ c.assets.map Text.upper)
    (hown : ∀ other ∈ c.assets.map Text.upper, Text.lower other = Text.lower asset →
      other = asset)
    {fs kept : List Frame}
    (hkept : kept.map Frame.arrival =
      (fs.filter fun f => !f.isNoise asset).map Frame.arrival) :
    List.Forall₂ Document.Agrees ((w.frames fs).store.documents (Collection.quotes asset))
        ((w.frames kept).store.documents (Collection.quotes asset)) ∧
      (w.frames fs).collector.pairing.held asset = (w.frames kept).collector.pairing.held asset ∧
      (w.frames fs).collector.gate.last? asset = (w.frames kept).collector.gate.last? asset := by
  have hassets := hreach.settings.1
  have hquiet : w.Quiet := ⟨hreach.sound, hfailures⟩
  rw [← hassets] at hasset hown
  have hcollection : ∀ other ∈ w.collector.assets, other ≠ asset →
      Collection.quotes asset ≠ Collection.quotes other := by
    intro other hother hne heq
    exact hne (hown other hother ((String.append_right_inj _).mp heq).symm)
  have halike := (Alike.refl asset w).frames hquiet hquiet hasset hcollection hkept
  exact ⟨halike.store.documents, halike.held, halike.last⟩

/-! ### Frames of two names -/

def ticker (asset : String) (side : Side) : Frame where
  text := "\x7b\"type\": \"ticker\", \"product_id\": \"" ++ asset ++ "\", \"price\": \"1\", " ++
    "\"last_size\": \"1\", \"side\": \"" ++ side.name ++ "\", " ++
    "\"time\": \"2024-01-01T00:00:00Z\"\x7d"
  time := 0
  clock _ := default

def start (c : Settings.Stream) : World := { collector := ofSettings c {}, store := {} }

def coins : Settings.Stream := { assets := ["BTC-USD", "ETH-USD"] }

/-- A pair of one asset, with a half of the other one and a frame that cannot be read. -/
def coinFrames : List Frame :=
  [ticker "ETH-USD" .buy, ticker "BTC-USD" .buy, { ticker "" .buy with text := "?" },
    ticker "BTC-USD" .sell]

theorem other_coin_is_noise :
    (((start coins).frames coinFrames).store.documents (Collection.quotes "BTC-USD")).length = 1 ∧
      List.Forall₂ Document.Agrees
        (((start coins).frames coinFrames).store.documents (Collection.quotes "BTC-USD"))
        (((start coins).frames [ticker "BTC-USD" .buy, ticker "BTC-USD" .sell]).store.documents
          (Collection.quotes "BTC-USD")) := by
  have hreach : Reachable coins {} (start coins) := .initial {}
  exact ⟨by decide +kernel, (noise_leaves_asset_alone hreach rfl (by decide +kernel)
    (by decide +kernel) (by decide +kernel)).1⟩

/-- The second name begins with the sign for kelvins, which is a capital letter of its own. -/
def namesakes : Settings.Stream := { assets := ["K-USD", "\u212a-USD"] }

def namesakeFrames : List Frame := [ticker "\u212a-USD" .buy, ticker "\u212a-USD" .sell]

/-- Two names with the same small letters share a collection, and quotes of one of them are stored
among those of the other. -/
theorem namesake_writes_into_collection :
    Reachable namesakes {} (start namesakes) ∧ (start namesakes).store.failures = 0 ∧
      "K-USD" ∈ namesakes.assets.map Text.upper ∧
      (namesakeFrames.filter fun f => !f.isNoise "K-USD") = [] ∧
      ¬ List.Forall₂ Document.Agrees
        (((start namesakes).frames namesakeFrames).store.documents (Collection.quotes "K-USD"))
        (((start namesakes).frames []).store.documents (Collection.quotes "K-USD")) := by
  have hstored : (((start namesakes).frames namesakeFrames).store.documents
      (Collection.quotes "K-USD")).length = 1 := by decide +kernel
  refine ⟨.initial {}, rfl, by decide +kernel, by decide +kernel, fun hsame => ?_⟩
  rw [hsame.length_eq] at hstored
  contradiction

end World
end StreamCollector
end TradingDesk
