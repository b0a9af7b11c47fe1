import Mathlib
import TradingDesk.Proofs.Collector.Quotes
import TradingDesk.Proofs.Decimal.Order
import TradingDesk.Proofs.Store.Records
/-!
# Quotes that are counted as persisted

A quote is stored under its asset and the time it was exchanged at, in nanoseconds. A quote that
comes under a name that is there already is counted as persisted, but what is stored is the first
quote of the name. So the two are told apart by the names alone, and those are the same for all
quotes of an asset at one time and for all whose times 64 bits do not hold.
-/

namespace TradingDesk

/-! ### Names of quotes -/

namespace Quote

/-- The time that a quote is named by. -/
def stamp (q : Quote) : Int := q.exchangeTime.epochNanos?.getD 0

/-- Whether two quotes are stored under one name. -/
def sharesName (p q : Quote) : Bool :=
  Text.lower p.asset == Text.lower q.asset && p.stamp == q.stamp

/-- Two quotes that say the same of the market, received whenever. -/
structure Agrees (p q : Quote) : Prop where
  asset : p.asset = q.asset
  bid : p.bidPrice.value = q.bidPrice.value ∧ p.bidSize.value = q.bidSize.value
  ask : p.askPrice.value = q.askPrice.value ∧ p.askSize.value = q.askSize.value
  time : p.exchangeTime = q.exchangeTime

variable {p q r : Quote}

theorem Agrees.refl (q : Quote) : q.Agrees q := ⟨rfl, ⟨rfl, rfl⟩, ⟨rfl, rfl⟩, rfl⟩

theorem sharesName_iff : p.sharesName q = true ↔
    Collection.quotes p.asset = Collection.quotes q.asset ∧ p.documentId = q.documentId := by
  unfold sharesName Collection.quotes documentId
  rw [Bool.and_eq_true, beq_iff_eq, beq_iff_eq, String.append_right_inj]
  constructor
  · rintro ⟨hasset, hstamp⟩
    unfold stamp at hstamp
    rw [hasset, hstamp]
    exact ⟨rfl, rfl⟩
  · rintro ⟨hasset, hid⟩
    rw [hasset, String.append_right_inj] at hid
    exact ⟨hasset, Int.repr_inj.mp hid⟩

theorem sharesName_refl (q : Quote) : q.sharesName q = true := sharesName_iff.mpr ⟨rfl, rfl⟩

/-- A quote shares its name with the same quotes as any other of that name. -/
theorem sharesName_congr (h : p.sharesName q = true) :
    (fun r : Quote => r.sharesName p) = fun r => r.sharesName q := by
  obtain ⟨hcollection, hid⟩ := sharesName_iff.mp h
  funext r
  rw [Bool.eq_iff_iff, sharesName_iff, sharesName_iff, hcollection, hid]

end Quote

/-! ### Times of quotes -/

namespace Feed

theorem Ticker.valid_of_read {v : Json} {t : Ticker} (h : Ticker.read? v = some t) :
    ∀ time ∈ t.time, time.Valid := by
  unfold read? at h
  obtain ⟨s, -, h⟩ := Option.bind_eq_some_iff.mp h
  obtain ⟨product, -, h⟩ := Option.bind_eq_some_iff.mp h
  obtain ⟨sequence, -, h⟩ := Option.bind_eq_some_iff.mp h
  obtain ⟨price, -, h⟩ := Option.bind_eq_some_iff.mp h
  obtain ⟨bestBid, -, h⟩ := Option.bind_eq_some_iff.mp h
  obtain ⟨bestBidSize, -, h⟩ := Option.bind_eq_some_iff.mp h
  obtain ⟨bestAsk, -, h⟩ := Option.bind_eq_some_iff.mp h
  obtain ⟨bestAskSize, -, h⟩ := Option.bind_eq_some_iff.mp h
  obtain ⟨side, -, h⟩ := Option.bind_eq_some_iff.mp h
  obtain ⟨lastSize, -, h⟩ := Option.bind_eq_some_iff.mp h
  obtain ⟨time, htime, h⟩ := Option.bind_eq_some_iff.mp h
  cases h
  intro time' ht
  obtain ⟨w, hread⟩ := Slots.read_of_optional htime time' ht
  exact Instant.valid_of_read hread

theorem Ticker.of_toHalf {t : Ticker} {side : Side} {half : QuoteHalf}
    (h : t.toHalf side = .ok half) :
    t.time = some half.exchangeTime ∧ half.asset = Text.upper t.product := by
  unfold toHalf at h
  cases htime : t.time with
  | none => simp [htime] at h
  | some time =>
      simp only [htime, bind, Except.bind] at h
      split at h
      · cases h
      · split at h
        · cases h
        · cases h
          exact ⟨rfl, rfl⟩

theorem half_of_map {r : Except Fault QuoteHalf} {half : QuoteHalf}
    (h : r.map Message.half = .ok (.half half)) : r = .ok half := by
  cases r with
  | error fault => cases h
  | ok other =>
      cases h
      rfl

/-- A half is told by a ticker. -/
theorem Message.ticker_of_half {text : String} {half : QuoteHalf}
    (h : Message.ofText text = .ok (.half half)) :
    ∃ v t side, Json.readGeneric? text = some v ∧ Ticker.read? v = some t ∧
      t.toHalf side = .ok half := by
  have hticker : ∃ v t, Json.readGeneric? text = some v ∧ Ticker.read? v = some t ∧
      t.toMessage = .ok (.half half) := by
    unfold ofText at h
    split at h
    · next v hv =>
      unfold ofJson at h
      split at h
      · split at h
        · next t hread => exact ⟨v, t, hv, hread, h⟩
        · cases h
      · cases h
      · cases h
      · split at h <;> cases h
      · cases h
      · cases h
    · cases h
  obtain ⟨v, t, hv, hread, hmessage⟩ := hticker
  unfold Ticker.toMessage at hmessage
  split at hmessage
  · cases hmessage
  · split at hmessage
    · exact ⟨v, t, .buy, hv, hread, half_of_map hmessage⟩
    · split at hmessage
      · exact ⟨v, t, .sell, hv, hread, half_of_map hmessage⟩
      · cases hmessage

theorem Message.valid_of_half {text : String} {half : QuoteHalf}
    (h : Message.ofText text = .ok (.half half)) : half.exchangeTime.Valid := by
  obtain ⟨v, t, side, -, hread, hhalf⟩ := ticker_of_half h
  exact Ticker.valid_of_read hread _ (Ticker.of_toHalf hhalf).1

end Feed

/-! ### Halves that are held -/

namespace Held

/-- What is held tells of one asset, and of an instant in the calendar. -/
def Tells (asset : String) : Held → Prop
  | .nothing => True
  | .bid half => half.asset = asset ∧ half.exchangeTime.Valid
  | .ask half => half.asset = asset ∧ half.exchangeTime.Valid

theorem valid_ofHalves {bid ask : QuoteHalf} {received : Instant} (hbid : bid.exchangeTime.Valid)
    (hask : ask.exchangeTime.Valid) (hreceived : received.Valid) :
    (Quote.ofHalves bid ask received).Valid where
  exchangeTime := by
    change (bid.exchangeTime.latest ask.exchangeTime).Valid
    rcases Instant.latest_eq_or bid.exchangeTime ask.exchangeTime with heq | heq
    · rwa [heq]
    · rwa [heq]
  receivedTime := hreceived

theorem Tells.add {held : Held} {half : QuoteHalf} {received : Instant}
    (h : held.Tells half.asset) (hhalf : half.exchangeTime.Valid) (hreceived : received.Valid) :
    (∀ q, (held.add half received).1 = some q → q.asset = half.asset ∧ q.Valid) ∧
      (held.add half received).2.Tells half.asset := by
  unfold Held.add
  cases held with
  | nothing => cases half.side <;> exact ⟨fun _ hq => (nomatch hq), rfl, hhalf⟩
  | bid other =>
      cases half.side with
      | buy => exact ⟨fun _ hq => (nomatch hq), rfl, hhalf⟩
      | sell =>
          refine ⟨fun q hq => ?_, trivial⟩
          cases hq
          exact ⟨h.1, valid_ofHalves h.2 hhalf hreceived⟩
  | ask other =>
      cases half.side with
      | sell => exact ⟨fun _ hq => (nomatch hq), rfl, hhalf⟩
      | buy =>
          refine ⟨fun q hq => ?_, trivial⟩
          cases hq
          exact ⟨rfl, valid_ofHalves hhalf h.2 hreceived⟩

end Held

namespace StreamCollector

/-! ### What a frame counts -/

section

variable {c : StreamCollector} {s : Store} {clock : Nat → Instant} {n : Nat}

theorem persisted_of_persist {q : Quote} : (c.persist s q clock).sequence = some n →
    (c.persist s q clock).collector.stats.persisted = c.stats.persisted + 1 := by
  simp only [persist]
  split
  · exact fun _ => rfl
  · intro h
    cases h

theorem persisted_of_takeHalf {half : QuoteHalf} {time : Nat} :
    (c.takeHalf s half time clock).sequence = some n →
      (c.takeHalf s half time clock).collector.stats.persisted = c.stats.persisted + 1 := by
  unfold takeHalf
  split
  · exact fun h => nomatch h
  · split
    · exact fun h => nomatch h
    · dsimp only
      split
      · exact persisted_of_persist
      · exact fun h => nomatch h

/-- A frame that tells a sequence counts a quote as persisted. -/
theorem persisted_of_handleFrame {text : String} {time : Nat} :
    (c.handleFrame s text time clock).sequence = some n →
      (c.handleFrame s text time clock).collector.stats.persisted = c.stats.persisted + 1 := by
  unfold handleFrame
  split
  · exact fun h => nomatch h
  · exact persisted_of_takeHalf
  · exact fun h => nomatch h

end

namespace World

variable {w : World} {text : String} {time : Nat} {clock : Nat → Instant} {q : Quote}

/-- The quote that a frame counts as persisted, if it does. -/
def counted? (w : World) (text : String) (time : Nat) (clock : Nat → Instant) : Option Quote :=
  if (w.collector.handleFrame w.store text time clock).sequence.isSome then
    w.handed? text time (clock 0)
  else none

/-- What a frame makes of the store is told by the quote that it hands on. -/
theorem written_frame (w : World) (text : String) (time : Nat) (clock : Nat → Instant) :
    ((w.collector.handleFrame w.store text time clock).store,
        (w.collector.handleFrame w.store text time clock).sequence) =
      written w.collector.storeRetry w.store clock (w.handed? text time (clock 0)) := by
  unfold handed?
  cases htold : w.collector.told? text with
  | none =>
      obtain ⟨stats, hframe, -⟩ := handleFrame_of_not_told w.store time clock htold
      rw [hframe]
      rfl
  | some half => exact (takes_sighted w.store time clock htold).written

/-- A frame writes nothing, or has a quote appended. -/
theorem frame_cases (w : World) (text : String) (time : Nat) (clock : Nat → Instant) :
    let r := w.collector.handleFrame w.store text time clock
    (r.sequence = none ∧ r.store.failNext 0 = w.store.failNext 0) ∨
      ∃ q n now, r.sequence = some n ∧ w.handed? text time (clock 0) = some q ∧
        (w.store.failNext 0).perform (quoteWrite q) now = (.ok n, r.store) := by
  intro r
  have hwritten := w.written_frame text time clock
  cases hhanded : w.handed? text time (clock 0) with
  | none =>
      rw [hhanded, written, Prod.mk.injEq] at hwritten
      obtain ⟨hstore, hsequence⟩ := hwritten
      exact .inl ⟨hsequence, congrArg (Store.failNext · 0) hstore⟩
  | some q =>
      rw [hhanded] at hwritten
      simp only [written] at hwritten
      rcases hpersist : w.store.persist (quoteWrite q) w.collector.storeRetry clock with
        ⟨answer, elapsed, s'⟩
      rw [hpersist, Prod.mk.injEq] at hwritten
      obtain ⟨rfl, hsequence⟩ := hwritten
      cases answer with
      | error fault => exact .inl ⟨hsequence, Store.persist_eq_error hpersist⟩
      | ok n =>
          obtain ⟨now, hperform⟩ := Store.persist_eq_ok hpersist
          exact .inr ⟨q, n, now, hsequence, rfl, hperform⟩

theorem handed?_eq_some {received : Instant} (h : w.handed? text time received = some q) :
    ∃ half, w.collector.told? text = some half ∧
      ((w.collector.pairing.held half.asset).add half received).1 = some q := by
  obtain ⟨half, htold, hhanded⟩ := Option.bind_eq_some_iff.mp h
  exact ⟨half, htold, (Sighting.handed?_eq_some.mp hhanded).2⟩

theorem of_told? {c : StreamCollector} {half : QuoteHalf} (h : c.told? text = some half) :
    half.asset ∈ c.assets ∧ half.exchangeTime.Valid := by
  unfold told? at h
  split at h
  · next hmessage =>
    simp only [Option.ite_none_right_eq_some, Option.some.injEq] at h
    obtain ⟨hcontains, rfl⟩ := h
    exact ⟨List.contains_iff_mem.mp hcontains, Feed.Message.valid_of_half hmessage⟩
  · contradiction

/-! ### Runs with what they count -/

/-- The runs of a collector, with the quotes that it counted as persisted. The feed may be lost and
the collector be begun anew, its store may fail, and others may write what is no quote of its
assets. -/
inductive Counting (c : Settings.Stream) (alerts : Alerts) : World → List Quote → Prop
  | initial : Counting c alerts { collector := ofSettings c alerts, store := {} } []
  | frame {w : World} {qs : List Quote} (text : String) (time : Nat) {clock : Nat → Instant}
      (hclock : ∀ elapsed, (clock elapsed).Valid) (hrun : Counting c alerts w qs) :
      Counting c alerts (w.frame text time clock) (qs ++ (w.counted? text time clock).toList)
  | connected {w : World} {qs : List Quote} (hrun : Counting c alerts w qs) :
      Counting c alerts { w with collector := { w.collector with pairing := .clear } } qs
  | begun {w : World} {qs : List Quote} (alerts' : Alerts) (hrun : Counting c alerts w qs) :
      Counting c alerts { w with collector := ofSettings c alerts' } qs
  | elsewhere {w : World} {qs : List Quote} (call : Store.Call)
      (hother : ∀ write now, call = .write write now → ∀ asset ∈ w.collector.assets,
        write.collection ≠ Collection.quotes asset) (hrun : Counting c alerts w qs) :
      Counting c alerts { w with store := w.store.call call } qs

/-- What holds of a collector that counted some quotes. -/
structure Keeping (w : World) (qs : List Quote) : Prop where
  numbered : w.store.Numbered
  indexed : w.store.Indexed
  held : ∀ asset, (w.collector.pairing.held asset).Tells asset
  counted : ∀ q ∈ qs, q.asset ∈ w.collector.assets ∧ q.Valid
  /-- A document is that of the first quote of its name. -/
  first : ∀ asset ∈ w.collector.assets, ∀ d ∈ w.store.documents (Collection.quotes asset),
    ∃ q, Collection.quotes q.asset = Collection.quotes asset ∧ d.id = q.documentId ∧
      d.body = q.toJson.settled ∧ qs.find? (·.sharesName q) = some q
  stored : ∀ q ∈ qs, ∃ d ∈ w.store.documents (Collection.quotes q.asset), d.id = q.documentId

variable {w' : World} {qs : List Quote}

/-- The documents stay. -/
theorem Keeping.quiet (h : w.Keeping qs) (hassets : w'.collector.assets = w.collector.assets)
    (hheld : ∀ asset, (w'.collector.pairing.held asset).Tells asset)
    (hnumbered : w'.store.Numbered) (hindexed : w'.store.Indexed)
    (hdocuments : ∀ asset ∈ w.collector.assets, w'.store.documents (Collection.quotes asset) =
      w.store.documents (Collection.quotes asset)) : w'.Keeping qs where
  numbered := hnumbered
  indexed := hindexed
  held := hheld
  counted := by
    rw [hassets]
    exact h.counted
  first asset hasset d hd := by
    rw [hassets] at hasset
    rw [hdocuments asset hasset] at hd
    exact h.first asset hasset d hd
  stored q hq := by
    rw [hdocuments q.asset (h.counted q hq).1]
    exact h.stored q hq

/-- A quote is given the place of the first of its name: that of a new document if there is none. -/
structure Lands (w w' : World) (qs : List Quote) (q : Quote) (d : Document) (first : Quote) :
    Prop where
  member : d ∈ w'.store.documents (Collection.quotes q.asset)
  id : d.id = q.documentId
  body : d.body = first.toJson.settled
  first : (qs ++ [q]).find? (·.sharesName q) = some first
  documents : ∀ c, w'.store.documents c =
    if c = Collection.quotes q.asset ∧ qs.any (·.sharesName q) = false then
      w.store.documents c ++ [d]
    else w.store.documents c

theorem Keeping.lands (h : w.Keeping qs) (hasset : q.asset ∈ w.collector.assets) (w' : World)
    {n : Nat} {now : Instant}
    (hperform : (w.store.failNext 0).perform (quoteWrite q) now = (.ok n, w'.store)) :
    ∃ d first, d.sequence = n ∧ w.Lands w' qs q d first := by
  have hindexed : (w.store.failNext 0).Indexed := h.indexed
  cases hany : qs.any (·.sharesName q) with
  | true =>
      obtain ⟨p, hp, hshares⟩ := List.any_eq_true.mp hany
      obtain ⟨hcollection, hid⟩ := Quote.sharesName_iff.mp hshares
      obtain ⟨d, hd, hname⟩ := h.stored p hp
      rw [hcollection] at hd
      obtain ⟨first, hfirst, hdid, hbody, hfind⟩ := h.first q.asset hasset d hd
      have hsame : first.sharesName q = true :=
        Quote.sharesName_iff.mpr ⟨hfirst, hdid.symm.trans (hname.trans hid)⟩
      have hknown := hindexed.append_known rfl hd q.toJson.settled now
      rw [hname, hid] at hknown
      rw [quoteWrite, Store.perform, hknown, Prod.mk.injEq, Except.ok.injEq] at hperform
      obtain ⟨hsequence, hstore⟩ := hperform
      refine ⟨d, first, hsequence, ?_, hname.trans hid, hbody, ?_, ?_⟩
      · rw [← hstore]
        exact hd
      · rw [← Quote.sharesName_congr hsame, List.find?_append, hfind]
        rfl
      · intro c
        rw [if_neg (by simp [hany]), ← hstore]
        rfl
  | false =>
      have hnone : ∀ p ∈ qs, ¬ p.sharesName q = true := by
        simpa using hany
      have hnew : ∀ d ∈ w.store.documents (Collection.quotes q.asset), d.id ≠ q.documentId := by
        intro d hd heq
        obtain ⟨p, hcollection, hid, -, hfind⟩ := h.first q.asset hasset d hd
        exact hnone p (List.mem_of_find?_eq_some hfind)
          (Quote.sharesName_iff.mpr ⟨hcollection, hid.symm.trans heq⟩)
      rw [quoteWrite, Store.perform, hindexed.append_new rfl hnew, Prod.mk.injEq,
        Except.ok.injEq] at hperform
      obtain ⟨hsequence, hstore⟩ := hperform
      let d : Document :=
        ⟨Collection.quotes q.asset, (w.store.failNext 0).head (Collection.quotes q.asset) + 1,
          q.documentId, q.toJson.settled, now⟩
      have hdocuments : ∀ c, w'.store.documents c = if c = Collection.quotes q.asset then
          w.store.documents c ++ [d] else w.store.documents c := by
        rw [← hstore]
        exact Store.documents_commit (w.store.failNext 0) d
      refine ⟨d, q, hsequence, ?_, rfl, rfl, ?_, ?_⟩
      · rw [hdocuments, if_pos rfl]
        exact List.mem_append_right _ (List.mem_singleton_self _)
      · rw [List.find?_append, List.find?_eq_none.mpr hnone]
        simp [Quote.sharesName_refl]
      · simpa only [hany, and_true] using hdocuments

theorem Keeping.count (h : w.Keeping qs) {d : Document} {first : Quote}
    (hassets : w'.collector.assets = w.collector.assets)
    (hheld : ∀ asset, (w'.collector.pairing.held asset).Tells asset)
    (hnumbered : w'.store.Numbered) (hindexed : w'.store.Indexed)
    (hasset : q.asset ∈ w.collector.assets) (hvalid : q.Valid)
    (hlands : w.Lands w' qs q d first) : w'.Keeping (qs ++ [q]) where
  numbered := hnumbered
  indexed := hindexed
  held := hheld
  counted p hp := by
    rw [hassets]
    rcases List.mem_append.mp hp with hearlier | hlast
    · exact h.counted p hearlier
    · rw [List.mem_singleton.mp hlast]
      exact ⟨hasset, hvalid⟩
  first asset hmem d' hd' := by
    rw [hassets] at hmem
    have hold : d' ∈ w.store.documents (Collection.quotes asset) →
        ∃ p, Collection.quotes p.asset = Collection.quotes asset ∧ d'.id = p.documentId ∧
          d'.body = p.toJson.settled ∧ (qs ++ [q]).find? (·.sharesName p) = some p := by
      intro hd
      obtain ⟨p, hcollection, hid, hbody, hfind⟩ := h.first asset hmem d' hd
      refine ⟨p, hcollection, hid, hbody, ?_⟩
      rw [List.find?_append, hfind]
      rfl
    rw [hlands.documents] at hd'
    split at hd'
    · next hnew =>
      rcases List.mem_append.mp hd' with hd | hlast
      · exact hold hd
      · rw [List.mem_singleton.mp hlast]
        have hnone : qs.find? (·.sharesName q) = none := by
          rw [List.find?_eq_none]
          simpa using hnew.2
        have hfirst := hlands.first
        rw [List.find?_append, hnone, Option.none_or] at hfirst
        obtain rfl : q = first := by simpa [Quote.sharesName_refl] using hfirst
        exact ⟨q, hnew.1.symm, hlands.id, hlands.body, hlands.first⟩
    · exact hold hd'
  stored p hp := by
    rcases List.mem_append.mp hp with hearlier | hlast
    · obtain ⟨d', hd', hid⟩ := h.stored p hearlier
      refine ⟨d', ?_, hid⟩
      rw [hlands.documents]
      split
      · exact List.mem_append_left _ hd'
      · exact hd'
    · rw [List.mem_singleton.mp hlast]
      exact ⟨d, hlands.member, hlands.id⟩

/-- What is held after a frame, and what it handed on. -/
theorem Keeping.hand (h : w.Keeping qs) (text : String) (time : Nat)
    (hreceived : (clock 0).Valid) :
    (w.frame text time clock).collector.assets = w.collector.assets ∧
      (∀ asset, ((w.frame text time clock).collector.pairing.held asset).Tells asset) ∧
      ∀ q, w.handed? text time (clock 0) = some q → q.asset ∈ w.collector.assets ∧ q.Valid := by
  cases htold : w.collector.told? text with
  | none =>
      obtain ⟨stats, hframe, -⟩ := handleFrame_of_not_told w.store time clock htold
      refine ⟨by rw [frame, hframe], by simpa only [frame, hframe] using h.held, ?_⟩
      simp [handed?, htold]
  | some half =>
      have htakes := takes_sighted w.store time clock htold
      obtain ⟨hcollected, hhalf⟩ := of_told? htold
      obtain ⟨hquote, hheld⟩ := (h.held half.asset).add hhalf hreceived
      refine ⟨htakes.assets, fun asset => ?_, fun q hhanded => ?_⟩
      · change ((w.collector.handleFrame w.store text time clock).collector.pairing.held
          asset).Tells asset
        rw [htakes.pairing, Pairing.push_eq, Pairing.held_setHeld]
        split
        · next heq =>
          subst heq
          exact hheld
        · exact h.held asset
      · obtain ⟨half', htold', hpair⟩ := handed?_eq_some hhanded
        obtain rfl : half = half' := Option.some.inj (htold.symm.trans htold')
        obtain ⟨hasset, hvalid⟩ := hquote q hpair
        exact ⟨hasset ▸ hcollected, hvalid⟩

theorem Keeping.frame (h : w.Keeping qs) (text : String) (time : Nat)
    (hclock : ∀ elapsed, (clock elapsed).Valid) :
    (w.frame text time clock).Keeping (qs ++ (w.counted? text time clock).toList) := by
  obtain ⟨hassets, hheld, hhanded⟩ := h.hand text time (hclock 0)
  rcases w.frame_cases text time clock with
    ⟨hsequence, hstore⟩ | ⟨q, n, now, hsequence, hq, hperform⟩
  · have hcounted : w.counted? text time clock = none := by simp [counted?, hsequence]
    rw [hcounted, Option.toList_none, List.append_nil]
    have hlog : ∀ c, (w.frame text time clock).store.log c = w.store.log c := fun c =>
      (congrArg (fun s : Store => s.log c) hstore :)
    have hdocuments : ∀ c, (w.frame text time clock).store.documents c = w.store.documents c :=
      fun c => congrArg Log.documents (hlog c)
    exact h.quiet hassets hheld (h.numbered.of_documents hdocuments) (h.indexed.of_log hlog)
      fun asset _ => hdocuments _
  · have hcounted : w.counted? text time clock = some q := by simp [counted?, hsequence, hq]
    obtain ⟨hasset, hvalid⟩ := hhanded q hq
    obtain ⟨d, first, -, hlands⟩ := h.lands hasset (w.frame text time clock) hperform
    have hstore : (w.store.failNext 0).call (.write (quoteWrite q) now) =
        (w.frame text time clock).store := congrArg Prod.snd hperform
    have hnumbered : (w.store.failNext 0).Numbered := h.numbered
    have hindexed : (w.store.failNext 0).Indexed := h.indexed
    rw [hcounted]
    refine h.count hassets hheld ?_ ?_ hasset hvalid hlands
    · rw [← hstore]
      exact Store.call_numbered hnumbered _
    · rw [← hstore]
      exact Store.call_indexed hindexed _

theorem Counting.keeping {c : Settings.Stream} {alerts : Alerts} (hrun : Counting c alerts w qs) :
    w.collector.assets = c.assets.map Text.upper ∧ w.Keeping qs := by
  induction hrun with
  | initial =>
      refine ⟨rfl, Store.numbered_empty, Store.indexed_empty, fun _ => trivial, ?_, ?_, ?_⟩
      · simp
      · simp [Store.documents, Store.log]
      · simp
  | @frame w qs text time clock hclock _ ih =>
      obtain ⟨hassets, hkeeping⟩ := ih
      exact ⟨(hkeeping.hand text time (hclock 0)).1.trans hassets, hkeeping.frame text time hclock⟩
  | connected _ ih =>
      exact ⟨ih.1, ih.2.quiet rfl (fun _ => trivial) ih.2.numbered ih.2.indexed fun _ _ => rfl⟩
  | begun alerts' _ ih =>
      refine ⟨rfl, ih.2.quiet ih.1.symm (fun _ => trivial) ih.2.numbered ih.2.indexed ?_⟩
      exact fun _ _ => rfl
  | @elsewhere w qs call hother _ ih =>
      obtain ⟨hassets, hkeeping⟩ := ih
      refine ⟨hassets, hkeeping.quiet rfl hkeeping.held (Store.call_numbered hkeeping.numbered call)
        (Store.call_indexed hkeeping.indexed call) fun asset hasset => ?_⟩
      cases call with
      | failNext count => rfl
      | write write now =>
          exact (Store.perform_of_ne write now (hother write now rfl asset hasset).symm).1

/-- A quote that is counted as persisted is stored as it was handed on exactly if the first quote
counted under its name says the same of the market; if there is none, it is added as the next
document, and otherwise nothing is. -/
theorem counted_quote_is_stored_iff {c : Settings.Stream} {alerts : Alerts}
    (hrun : Counting c alerts w qs) (hclock : ∀ elapsed, (clock elapsed).Valid) {n : Nat}
    (hsequence : (w.collector.handleFrame w.store text time clock).sequence = some n) :
    let r := w.collector.handleFrame w.store text time clock
    r.collector.stats.persisted = w.collector.stats.persisted + 1 ∧
      ∃ q d stored, w.handed? text time (clock 0) = some q ∧
        (r.store.documents (Collection.quotes q.asset))[n - 1]? = some d ∧ d.sequence = n ∧
        Quote.read? d.body = some stored ∧
        (qs ++ [q]).find? (·.sharesName q) = some stored ∧
        (stored.Agrees q ↔ ∀ p, qs.find? (·.sharesName q) = some p → p.Agrees q) ∧
        r.store.documents (Collection.quotes q.asset) =
          if ∃ p ∈ qs, p.sharesName q = true then
            w.store.documents (Collection.quotes q.asset)
          else w.store.documents (Collection.quotes q.asset) ++ [d] := by
  intro r
  obtain ⟨-, h⟩ := hrun.keeping
  obtain ⟨-, -, hhanded⟩ := h.hand text time (hclock 0)
  refine ⟨persisted_of_handleFrame hsequence, ?_⟩
  rcases w.frame_cases text time clock with ⟨hnone, -⟩ | ⟨q, m, now, hsome, hq, hperform⟩
  · rw [hsequence] at hnone
    contradiction
  obtain rfl : n = m := Option.some.inj (hsequence.symm.trans hsome)
  obtain ⟨hasset, hvalid⟩ := hhanded q hq
  obtain ⟨d, stored, hnumber, hlands⟩ := h.lands hasset (w.frame text time clock) hperform
  refine ⟨q, d, stored, hq, ?_, hnumber, ?_, hlands.first, ?_, ?_⟩
  · -- the place of a document is its number
    obtain ⟨i, hi⟩ := List.mem_iff_getElem?.mp hlands.member
    have hplace := ((h.frame text time hclock).numbered _ i d hi).2
    have hn : n - 1 = i := by omega
    rw [hn]
    exact hi
  · have hstored : stored.Valid := by
      rcases List.mem_append.mp (List.mem_of_find?_eq_some hlands.first) with hearlier | hlast
      · exact (h.counted stored hearlier).2
      · rw [List.mem_singleton.mp hlast]
        exact hvalid
    rw [hlands.body, Quote.read?_document hstored]
  · have hfirst := hlands.first
    rw [List.find?_append] at hfirst
    cases hfind : qs.find? (·.sharesName q) with
    | none =>
        obtain rfl : q = stored := by simpa [hfind, Quote.sharesName_refl] using hfirst
        simp [Quote.Agrees.refl]
    | some p =>
        obtain rfl : p = stored := by simpa [hfind] using hfirst
        simp
  · have hdocuments := hlands.documents (Collection.quotes q.asset)
    have hknown : (∃ p ∈ qs, p.sharesName q = true) ↔ ¬ qs.any (·.sharesName q) = false := by
      simp
    rw [ite_cond_congr (propext hknown)]
    by_cases hany : qs.any (·.sharesName q) = false
    · rw [if_pos ⟨rfl, hany⟩] at hdocuments
      rw [if_neg (not_not.mpr hany)]
      exact hdocuments
    · rw [if_neg (fun hboth => hany hboth.2)] at hdocuments
      rw [if_pos hany]
      exact hdocuments

/-! ### A quote that is lost -/

def plainStream : Settings.Stream := { assets := ["BTC-USD"] }

/-- A ticker of one coin, at the start of 2024. -/
def coinTicker (side : Side) (price : String) : String :=
  "\x7b\"type\":\"ticker\",\"product_id\":\"BTC-USD\",\"price\":\"" ++ price ++
    "\",\"last_size\":\"1\",\"side\":\"" ++ side.name ++ "\",\"time\":\"2024-01-01T00:00:00Z\"\x7d"

/-- A quote that asks for two. -/
def coinQuote (bid : Decimal) : Quote :=
  { asset := "BTC-USD", bidPrice := bid, bidSize := .one, askPrice := .two, askSize := .one
    exchangeTime := ⟨1704067200, 0⟩, receivedTime := default }

/-- A world that took a pair, and a second later takes a higher bid of the same time. -/
def higherBid : World :=
  ((({ collector := ofSettings plainStream {}, store := {} } : World).frame
    (coinTicker .buy "1") 0 fun _ => default).frame
    (coinTicker .sell "2") 0 fun _ => default).frame
    (coinTicker .buy "2") 1000 fun _ => default

theorem valid_default : (default : Instant).Valid := by
  constructor <;> decide

theorem higherBid_counting : ∃ qs, Counting plainStream {} higherBid qs := by
  have hclock : ∀ _elapsed : Nat, (default : Instant).Valid := fun _ => valid_default
  exact ⟨_, ((Counting.initial.frame _ _ hclock).frame _ _ hclock).frame _ _ hclock⟩

theorem higherBid_handleFrame :
    let r := higherBid.collector.handleFrame higherBid.store (coinTicker .sell "2") 1000
      fun _ => default
    r.sequence = some 1 ∧ r.collector.stats.persisted = 2 ∧
      higherBid.handed? (coinTicker .sell "2") 1000 default = some (coinQuote .two) ∧
      (r.store.documents "ticker.btc-usd").map (fun d => (d.sequence, Quote.read? d.body)) =
        [(1, some (coinQuote .one))] := by
  decide +kernel

theorem coinQuote_not_agrees : ¬ (coinQuote .one).Agrees (coinQuote .two) := by
  intro hagrees
  have hprice := hagrees.bid.1
  simp [coinQuote, Decimal.value, Decimal.one, Decimal.two] at hprice

/-- The quote with the higher bid is counted, and what is stored is that with the lower one. -/
theorem higherBid_stored :
    ∃ qs p, Counting plainStream {} higherBid qs ∧ p ∈ qs ∧ p.sharesName (coinQuote .two) = true ∧
      ¬ p.Agrees (coinQuote .two) := by
  obtain ⟨qs, hrun⟩ := higherBid_counting
  obtain ⟨hsequence, -, hhanded, hdocuments⟩ := higherBid_handleFrame
  obtain ⟨-, q, d, stored, hq, hd, -, hread, -, hagrees, -⟩ :=
    counted_quote_is_stored_iff hrun (fun _ => valid_default) hsequence
  obtain rfl : coinQuote .two = q := Option.some.inj (hhanded.symm.trans hq)
  have hcollection : Collection.quotes (coinQuote .two).asset = "ticker.btc-usd" := by
    decide +kernel
  have hstored : stored = coinQuote .one := by
    have hmem := List.mem_map_of_mem (f := fun d => (d.sequence, Quote.read? d.body))
      (List.mem_of_getElem? (hcollection ▸ hd))
    rw [hdocuments, hread, List.mem_singleton, Prod.mk.injEq] at hmem
    exact Option.some.inj hmem.2
  have hearlier : ∃ p, qs.find? (·.sharesName (coinQuote .two)) = some p ∧
      ¬ p.Agrees (coinQuote .two) := by
    by_contra hnone
    push Not at hnone
    exact coinQuote_not_agrees (hstored ▸ hagrees.mpr hnone)
  obtain ⟨p, hp, hne⟩ := hearlier
  have hshares := List.find?_some hp
  exact ⟨qs, p, hrun, List.mem_of_find?_eq_some hp, hshares, hne⟩

/-- A quote that is counted as persisted, and whose price is nowhere in the store. -/
theorem higherBid_is_lost :
    (∃ qs, Counting plainStream {} higherBid qs) ∧
      ∃ q first, higherBid.handed? (coinTicker .sell "2") 1000 default = some q ∧
        (let r := higherBid.collector.handleFrame higherBid.store (coinTicker .sell "2") 1000
          fun _ => default
        r.sequence = some 1 ∧ r.collector.stats.persisted = 2 ∧
          (r.store.documents "ticker.btc-usd").map (fun d => (d.sequence, Quote.read? d.body)) =
            [(1, some first)]) ∧ ¬ first.Agrees q := by
  obtain ⟨hsequence, hpersisted, hhanded, hdocuments⟩ := higherBid_handleFrame
  exact ⟨higherBid_counting, _, _, hhanded, ⟨hsequence, hpersisted, hdocuments⟩,
    coinQuote_not_agrees⟩

end World

end StreamCollector
end TradingDesk
