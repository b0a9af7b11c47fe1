import TradingDesk.Proofs.Trading.Tracing
/-!
# Which fills count

A fill that the executor has taken in counts once a document was written after it, by the same
process. What a process has taken in when it ends does not count; its successor asks again.
-/

namespace TradingDesk
namespace Executor
namespace Transcript

/-! ### Ledgers -/

/-- Fills that count, and those that the running process has taken in since the last document. -/
structure Ledger where
  booked : List (Order × Fill)
  seen : List (Order × Fill)

def Ledger.note (l : Ledger) : Observation → Ledger
  | .answered order (.ok (.filled fill)) => { l with seen := l.seen ++ [(order, fill)] }
  | .stored _ => { booked := l.booked ++ l.seen, seen := [] }
  | .crashed => { l with seen := [] }
  | _ => l

def ledger (t : Transcript) : Ledger := t.foldl Ledger.note { booked := [], seen := [] }

/-- The fills that count, in the order in which they were taken in. -/
def booked (t : Transcript) : List (Order × Fill) := t.ledger.booked

/-- The fills that count once the running process writes a document. -/
def known (t : Transcript) : List (Order × Fill) := t.ledger.booked ++ t.ledger.seen

theorem ledger_append (t : Transcript) (ob : Observation) :
    (t ++ [ob]).ledger = t.ledger.note ob := by
  simp [ledger]

section

variable (t : Transcript)

theorem booked_append (ob : Observation) (hob : ∀ document, ob ≠ .stored document) :
    booked (t ++ [ob]) = booked t := by
  unfold booked
  rw [ledger_append]
  unfold Ledger.note
  split
  · rfl
  · exact absurd rfl (hob _)
  · rfl
  · rfl

theorem booked_stored (document : Json) :
    booked (t ++ [Observation.stored document]) = known t := by
  rw [booked, ledger_append]
  rfl

theorem known_created (order : Order) : known (t ++ [Observation.created order]) = known t := by
  rw [known, ledger_append]
  rfl

theorem known_submitted (call : Option ChangeEvent) (order : Order) :
    known (t ++ [Observation.submitted call order]) = known t := by
  rw [known, ledger_append]
  rfl

theorem known_filled (order : Order) (fill : Fill) :
    known (t ++ [Observation.answered order (.ok (.filled fill))]) =
      known t ++ [(order, fill)] := by
  rw [known, ledger_append]
  simp [Ledger.note, known]

theorem known_answered (order : Order) {answer : Except Fault Order.Outcome}
    (hanswer : ∀ fill, answer ≠ .ok (.filled fill)) :
    known (t ++ [Observation.answered order answer]) = known t := by
  rw [known, ledger_append]
  unfold Ledger.note
  split
  · next heq =>
    cases heq
    exact absurd rfl (hanswer _)
  · contradiction
  · contradiction
  · rfl

theorem known_stored (document : Json) : known (t ++ [Observation.stored document]) = known t := by
  rw [known, ledger_append]
  simp [Ledger.note, known]

end

/-! ### One more observation -/

theorem created_append_of_ne (t : Transcript) (ob : Observation)
    (hob : ∀ order, ob ≠ .created order) : created (t ++ [ob]) = created t := by
  cases ob with
  | created order => exact absurd rfl (hob order)
  | _ => simp [created]

/-- The orders that the gateway was handed. -/
def handedIn (t : Transcript) : List Order := t.submitted.map (·.2)

theorem handedIn_append_of_ne (t : Transcript) (ob : Observation)
    (hob : ∀ trigger order, ob ≠ .submitted trigger order) :
    handedIn (t ++ [ob]) = handedIn t := by
  cases ob with
  | submitted trigger order => exact absurd rfl (hob trigger order)
  | _ => simp [handedIn, submitted]

theorem answered_append_of_ne (t : Transcript) (ob : Observation)
    (hob : ∀ order answer, ob ≠ .answered order answer) :
    answered (t ++ [ob]) = answered t := by
  cases ob with
  | answered order answer => exact absurd rfl (hob order answer)
  | _ => simp [answered]

/-- A document in a transcript that has grown is an old one or the last. -/
theorem split_append {t before after : Transcript} {ob : Observation} {document : Json}
    (h : t ++ [ob] = before ++ Observation.stored document :: after) :
    (∃ after', t = before ++ Observation.stored document :: after') ∨
      (t = before ∧ ob = .stored document) := by
  rcases List.eq_nil_or_concat after with rfl | ⟨after', last, rfl⟩
  · obtain ⟨ht, hob⟩ := List.append_inj' h rfl
    exact .inr ⟨ht, by simpa using hob⟩
  · refine .inl ⟨after', ?_⟩
    have hassoc : t ++ [ob] = (before ++ Observation.stored document :: after') ++ [last] := by
      rw [h]
      simp
    exact (List.append_inj' hassoc rfl).1

/-! ### Names and answers -/

/-- No two orders have one name. -/
def Fresh (t : Transcript) : Prop := (t.created.map (·.clientId)).Nodup

/-- Once it has told of a fill, a gateway that answers tells of it again. -/
def Steady (t : Transcript) : Prop :=
  t.answered.Pairwise fun a b => ∀ fill outcome, a.2 = .ok (.filled fill) →
    b.2 = .ok outcome → a.1.clientId = b.1.clientId → outcome = .filled fill

variable {t : Transcript}

theorem Fresh.of_append {s : Transcript} (h : Fresh (t ++ s)) : Fresh t := by
  rw [Fresh, created_append, List.map_append] at h
  exact h.of_append_left

theorem Fresh.not_mem {order : Order} (h : Fresh (t ++ [Observation.created order])) :
    order ∉ created t := by
  intro hmem
  rw [Fresh, created_append, List.map_append, List.nodup_append] at h
  refine h.2.2 order.clientId (List.mem_map_of_mem hmem) order.clientId ?_ rfl
  simp [created]

theorem Steady.of_append {s : Transcript} (h : Steady (t ++ s)) : Steady t := by
  rw [Steady, answered_append] at h
  exact (List.pairwise_append.mp h).1

/-- An outcome that is taken in after a fill of the same order is that fill. -/
theorem Steady.filled {order : Order} {outcome : Order.Outcome} {fill : Fill}
    (h : Steady (t ++ [Observation.answered order (.ok outcome)]))
    (hfill : (order, .ok (.filled fill)) ∈ t.answered) : outcome = .filled fill := by
  rw [Steady, answered_append] at h
  refine (List.pairwise_append.mp h).2.2 _ hfill (order, .ok outcome) ?_ fill outcome rfl rfl rfl
  simp [answered]

end Transcript
end Executor
end TradingDesk
