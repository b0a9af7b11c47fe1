import TradingDesk.Proofs.KeyMap
import TradingDesk.Trading.Wiring
/-!
# What wiring makes

Each collection that somebody follows has one watcher, whose subscribers are the queues of those who
follow it, in the order of the executors. None of them is subscribed twice, and each starts where
its executor left off or else at the head of the collection.
-/

namespace TradingDesk

theorem Executor.Setup.watched_nodup (s : Executor.Setup) : s.watched.Nodup := by
  simp [watched, Collection.quotes, Collection.books, Book.Level.all, Book.Level.family]

namespace Watchers

variable {σ : Type} {store : Store} {ws : Watchers} {batch : Nat} {collection : String}
  {subscribers : List Subscriber}

/-- The watcher of a collection has these subscribers; without a watcher there are none. -/
def Serves (ws : Watchers) (batch : Nat) (collection : String) (subscribers : List Subscriber) :
    Prop :=
  (ws.get? collection = none ∧ subscribers = []) ∨
    ∃ w, ws.get? collection = some w ∧ w.collection = collection ∧ w.batch = batch ∧
      w.subscribers = subscribers

theorem Serves.subscribe (h : ws.Serves batch collection subscribers) (queue start : Nat) :
    (ws.subscribe batch collection queue start).Serves batch collection
      (subscribers ++ [⟨queue, start⟩]) := by
  refine .inr ⟨_, KeyMap.get?_insert_self _ _ _, ?_⟩
  rcases h with ⟨hnone, rfl⟩ | ⟨w, hsome, hcollection, hbatch, hsubscribers⟩
  · rw [hnone]
    exact ⟨rfl, rfl, rfl⟩
  · rw [hsome]
    exact ⟨hcollection, hbatch, by rw [← hsubscribers]; rfl⟩

theorem Serves.subscribe_of_ne (h : ws.Serves batch collection subscribers) {other : String}
    (hne : collection ≠ other) (queue start : Nat) :
    (ws.subscribe batch other queue start).Serves batch collection subscribers := by
  unfold Serves Watchers.subscribe at *
  rw [KeyMap.get?_insert_of_ne ws hne]
  exact h

/-- A queue that takes the changes of some collections is put behind the subscribers of each. -/
theorem Serves.subscribeAll (h : ws.Serves batch collection subscribers) (queue : Nat)
    (start : String → Nat) {collections : List String} (hnodup : collections.Nodup) :
    (collections.foldl (fun ws c => ws.subscribe batch c queue (start c)) ws).Serves batch
      collection
      (if collection ∈ collections then subscribers ++ [⟨queue, start collection⟩]
        else subscribers) := by
  induction collections generalizing ws subscribers with
  | nil => exact h
  | cons c rest ih =>
      obtain ⟨hnew, hrest⟩ := List.nodup_cons.mp hnodup
      rw [List.foldl_cons]
      by_cases heq : collection = c
      · subst c
        have hlast := ih (h.subscribe queue (start collection)) hrest
        rw [if_neg hnew] at hlast
        rw [if_pos List.mem_cons_self]
        exact hlast
      · have hlast := ih (h.subscribe_of_ne heq queue (start c)) hrest
        simpa [heq] using hlast

/-- The subscribers of a collection among executors with their queues. -/
def followers (store : Store) (collection : String) (traders : List (Trader σ × Nat)) :
    List Subscriber :=
  (traders.filter fun t => t.1.executor.setup.watched.contains collection).map fun t =>
    ⟨t.2, t.1.startIn store collection⟩

theorem Serves.follow (h : ws.Serves batch collection subscribers)
    (traders : List (Trader σ × Nat)) :
    (traders.foldl (Watchers.follow store batch) ws).Serves batch collection
      (subscribers ++ followers store collection traders) := by
  induction traders generalizing ws subscribers with
  | nil => simpa [followers] using h
  | cons t rest ih =>
      have hone := h.subscribeAll t.2 (t.1.startIn store) t.1.executor.setup.watched_nodup
      have hall := ih hone
      rw [List.foldl_cons]
      by_cases hwatched : collection ∈ t.1.executor.setup.watched
      · rw [if_pos hwatched, List.append_assoc] at hall
        simpa [followers, Watchers.follow, hwatched] using hall
      · rw [if_neg hwatched] at hall
        simpa [followers, Watchers.follow, hwatched] using hall

variable {traders : List (Trader σ)}

theorem serves_wire (store : Store) (batch : Nat) (traders : List (Trader σ))
    (collection : String) :
    (wire store batch traders).Serves batch collection
      (followers store collection traders.zipIdx) := by
  have hempty : Serves KeyMap.empty batch collection [] := .inl ⟨rfl, rfl⟩
  exact hempty.follow traders.zipIdx

theorem mem_followers {s : Subscriber} :
    s ∈ followers store collection traders.zipIdx ↔ ∃ t, traders[s.queue]? = some t ∧
      collection ∈ t.executor.setup.watched ∧ s.cursor = t.startIn store collection := by
  obtain ⟨queue, cursor⟩ := s
  simp only [followers, List.mem_map, List.mem_filter, List.contains_iff_mem, Prod.exists,
    List.mem_zipIdx_iff_getElem?, Subscriber.mk.injEq]
  constructor
  · rintro ⟨t, i, ⟨ht, hwatched⟩, rfl, rfl⟩
    exact ⟨t, ht, hwatched, rfl⟩
  · rintro ⟨t, ht, hwatched, rfl⟩
    exact ⟨t, queue, ⟨ht, hwatched⟩, rfl, rfl⟩

theorem followers_nodup (store : Store) (collection : String) (traders : List (Trader σ)) :
    ((followers store collection traders.zipIdx).map (·.queue)).Nodup := by
  have hqueues : (traders.zipIdx.map (·.2)).Nodup := by
    rw [List.zipIdx_map_snd]
    exact List.nodup_range'
  have hsublist : ((followers store collection traders.zipIdx).map (·.queue)).Sublist
      (traders.zipIdx.map (·.2)) := by
    unfold followers
    rw [List.map_map]
    exact List.filter_sublist.map _
  exact hqueues.sublist hsublist

theorem exists_watcher {i : Nat} {t : Trader σ} (ht : traders[i]? = some t)
    (hwatched : collection ∈ t.executor.setup.watched) (store : Store) (batch : Nat) :
    ∃ w, (wire store batch traders).get? collection = some w := by
  have hmem : ⟨i, t.startIn store collection⟩ ∈ followers store collection traders.zipIdx :=
    mem_followers.mpr ⟨t, ht, hwatched, rfl⟩
  rcases serves_wire store batch traders collection with ⟨-, hnone⟩ | ⟨w, hsome, -⟩
  · rw [hnone] at hmem
    contradiction
  · exact ⟨w, hsome⟩

end Watchers

end TradingDesk
