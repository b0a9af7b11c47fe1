import TradingDesk.Collector.Poll
import TradingDesk.Settings
import TradingDesk.Proofs.Decimal.Order
import Mathlib.Tactic
/-!
# What accepted settings say

Settings that are accepted have no intervals of zero among those of quotes and books, and poll no
pair of an asset and a level twice. Each portfolio has an id of its own, trades something with no
negative tolerance, and is provided with quotes of its asset and, if it is live, with credentials.
-/

namespace TradingDesk.Settings

theorem validate_eq_ok_iff {c : Settings} : c.validate = .ok () ↔ c.flaw? = none := by
  unfold validate
  cases c.flaw? <;> simp

theorem scheduleFlaw?_eq_none {schedules : List Schedule} {seen : List (String × Book.Level)}
    (h : scheduleFlaw? seen schedules = none) :
    (∀ s ∈ schedules, 0 < s.interval ∧ (Text.upper s.asset, s.level) ∉ seen) ∧
      (schedules.map PollCollector.keyOf).Nodup := by
  induction schedules generalizing seen with
  | nil => exact ⟨by simp, List.nodup_nil⟩
  | cons s rest ih =>
      rw [scheduleFlaw?] at h
      split at h
      · contradiction
      · next hpositive =>
        split at h
        · contradiction
        · next hnew =>
          obtain ⟨hrest, hnodup⟩ := ih h
          have hnot : PollCollector.keyOf s ∉ rest.map PollCollector.keyOf := by
            intro hmem
            obtain ⟨other, hother, heq⟩ := List.mem_map.mp hmem
            apply (hrest other hother).2
            have hpair := PollKey.mk.inj heq
            rw [hpair.1, hpair.2]
            exact List.mem_cons_self
          refine ⟨?_, List.nodup_cons.mpr ⟨hnot, hnodup⟩⟩
          intro t ht
          rcases List.mem_cons.mp ht with rfl | hmem
          · exact ⟨Nat.pos_of_ne_zero hpositive, by simpa using hnew⟩
          · obtain ⟨hinterval, hseen⟩ := hrest t hmem
            exact ⟨hinterval, fun h => hseen (List.mem_cons_of_mem _ h)⟩

/-- What accepted settings say of the times between quotes and between books. -/
structure Paced (c : Settings) : Prop where
  quotes : 0 < c.stream.interval
  overrides : ∀ o ∈ c.stream.overrides, 0 < o.2
  books : ∀ s ∈ c.poll.schedules, 0 < s.interval
  schedules : (c.poll.schedules.map PollCollector.keyOf).Nodup

theorem paced_of_validate {c : Settings} (h : c.validate = .ok ()) : c.Paced := by
  have hflaw := validate_eq_ok_iff.mp h
  unfold flaw? at hflaw
  split at hflaw
  · contradiction
  · split at hflaw
    · contradiction
    · next hquotes =>
      simp only [Option.or_eq_none_iff, List.findSome?_eq_none_iff] at hflaw
      obtain ⟨⟨⟨⟨hoverrides, hschedules⟩, -⟩, -⟩, -⟩ := hflaw
      obtain ⟨hbooks, hnodup⟩ := scheduleFlaw?_eq_none hschedules
      constructor
      case quotes => exact Nat.pos_of_ne_zero hquotes
      case overrides =>
        intro o ho
        have hpositive := hoverrides o ho
        split at hpositive
        · contradiction
        · next hne => exact Nat.pos_of_ne_zero hne
      case books => exact fun s hs => (hbooks s hs).1
      case schedules => exact hnodup

theorem bindingFlaw?_eq_none {c : Settings} {seen : List String} {b : Binding}
    (h : c.bindingFlaw? seen b = none) :
    Decimal.zero < b.strategy.size ∧ Decimal.zero ≤ b.strategy.tolerance := by
  unfold bindingFlaw? at h
  split_ifs at h with _ _ _ hsize htolerance
  rw [Decimal.le_iff] at hsize ⊢
  rw [Decimal.lt_iff] at htolerance ⊢
  exact ⟨not_le.mp hsize, not_lt.mp htolerance⟩

theorem bindingsFlaw?_eq_none {c : Settings} {seen : List String} {bindings : List Binding}
    (h : c.bindingsFlaw? seen bindings = none) :
    ∀ b ∈ bindings, ∃ seen, c.bindingFlaw? seen b = none := by
  induction bindings generalizing seen with
  | nil => simp
  | cons b rest ih =>
      rw [bindingsFlaw?, Option.or_eq_none_iff] at h
      intro other hother
      rcases List.mem_cons.mp hother with rfl | hmem
      · exact ⟨seen, h.1⟩
      · exact ih h.2 other hmem

/-- The portfolios have ids of their own. -/
theorem ids_nodup_of_bindingsFlaw? {c : Settings} {seen : List String} {bindings : List Binding}
    (h : c.bindingsFlaw? seen bindings = none) :
    (∀ b ∈ bindings, b.id ∉ seen) ∧ (bindings.map (·.id)).Nodup := by
  induction bindings generalizing seen with
  | nil => exact ⟨by simp, List.nodup_nil⟩
  | cons b rest ih =>
      rw [bindingsFlaw?, Option.or_eq_none_iff] at h
      obtain ⟨hbinding, hrest⟩ := h
      obtain ⟨hnew, hnodup⟩ := ih hrest
      have hunseen : b.id ∉ seen := by
        unfold bindingFlaw? at hbinding
        split_ifs at hbinding with _ hseen
        simpa using hseen
      refine ⟨?_, ?_⟩
      · intro other hother
        rcases List.mem_cons.mp hother with rfl | hmem
        · exact hunseen
        · exact fun hseen => hnew other hmem (List.mem_cons_of_mem _ hseen)
      · rw [List.map_cons, List.nodup_cons]
        refine ⟨fun hmem => ?_, hnodup⟩
        obtain ⟨other, hother, heq⟩ := List.mem_map.mp hmem
        exact hnew other hother (heq ▸ List.mem_cons_self)

theorem bindingsFlaw?_of_validate {c : Settings} (h : c.validate = .ok ()) :
    c.bindingsFlaw? [] c.portfolios = none := by
  have hflaw := validate_eq_ok_iff.mp h
  unfold flaw? at hflaw
  split at hflaw
  · contradiction
  · split at hflaw
    · contradiction
    · simp only [Option.or_eq_none_iff] at hflaw
      exact hflaw.1.2

/-- What accepted settings say of what a portfolio trades. -/
theorem traded_of_validate {c : Settings} (h : c.validate = .ok ()) {b : Binding}
    (hb : b ∈ c.portfolios) :
    Decimal.zero < b.strategy.size ∧ Decimal.zero ≤ b.strategy.tolerance := by
  obtain ⟨seen, hbinding⟩ := bindingsFlaw?_eq_none (bindingsFlaw?_of_validate h) b hb
  exact bindingFlaw?_eq_none hbinding

theorem ids_nodup_of_validate {c : Settings} (h : c.validate = .ok ()) :
    (c.portfolios.map (·.id)).Nodup :=
  (ids_nodup_of_bindingsFlaw? (bindingsFlaw?_of_validate h)).2

/-- What accepted settings provide a portfolio with: quotes of its asset, and credentials if it is
live. -/
structure Provides (c : Settings) (b : Binding) : Prop where
  quotes : ∃ a ∈ c.stream.assets, Text.sameAscii a b.asset = true
  credentials : b.mode = .live → ∃ k, c.exchange.credentials? = some k

theorem provides_of_validate {c : Settings} (h : c.validate = .ok ()) {b : Binding}
    (hb : b ∈ c.portfolios) : c.Provides b := by
  obtain ⟨seen, hbinding⟩ := bindingsFlaw?_eq_none (bindingsFlaw?_of_validate h) b hb
  unfold bindingFlaw? at hbinding
  split_ifs at hbinding with _ _ hquotes _ _ hcredentials
  constructor
  case quotes => simpa using hquotes
  case credentials =>
    intro hlive
    apply Option.ne_none_iff_exists'.mp
    simpa [hlive] using hcredentials

/-- One portfolio, with the defaults for all that needs not be given. -/
def plain : Settings where
  stream := { assets := ["BTC-USD"] }
  portfolios := [{ id := "main", asset := "BTC-USD", strategy := { size := .one } }]

end TradingDesk.Settings
