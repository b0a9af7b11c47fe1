import TradingDesk.Market.Collection
import TradingDesk.Proofs.Text.Ascii
/-!
# Names of collections

What is known of the market is stored by its kind and its asset. For assets with ASCII names two of
these collections are one exactly if they are of one kind and the assets are equal up to case.
-/

namespace TradingDesk.Collection

/-- What a collection of an asset holds: its quotes, or its books at one level. -/
inductive Kind where
  | quotes
  | books (level : Book.Level)
deriving DecidableEq, Repr

namespace Kind

def all : List Kind := quotes :: Book.Level.all.map books

def family : Kind → String
  | quotes => "ticker"
  | books level => level.family

theorem mem_all (k : Kind) : k ∈ all := by
  rcases k with _ | (_ | _ | _) <;> decide

theorem family_injective {k k' : Kind} : k.family.toList = k'.family.toList → k = k' := by
  rcases k with _ | (_ | _ | _) <;> rcases k' with _ | (_ | _ | _) <;> decide

theorem dot_not_mem_family (k : Kind) : '.' ∉ k.family.toList := by
  rcases k with _ | (_ | _ | _) <;> decide

end Kind

def of (k : Kind) (asset : String) : String :=
  match k with
  | .quotes => quotes asset
  | .books level => books asset level

/-- A name ends its family with its first dot. -/
theorem takeWhile_family (k : Kind) (cs : List Char) :
    (k.family.toList ++ '.' :: cs).takeWhile (· != '.') = k.family.toList := by
  have hno : ∀ c ∈ k.family.toList, (c != '.') = true := fun c hc =>
    bne_iff_ne.mpr fun heq => k.dot_not_mem_family (heq ▸ hc)
  rw [List.takeWhile_append_of_pos hno, List.takeWhile_cons_of_neg (by simp), List.append_nil]

theorem toList_of (k : Kind) (asset : String) :
    (of k asset).toList = k.family.toList ++ '.' :: (Text.lower asset).toList := by
  cases k <;> simp [of, quotes, books, Kind.family]

theorem of_eq_of_iff {k k' : Kind} {s t : String} (hs : Text.IsAscii s) (ht : Text.IsAscii t) :
    of k s = of k' t ↔ k = k' ∧ Text.sameAscii s t = true := by
  rw [← String.toList_inj, toList_of, toList_of, ← Text.lower_eq_lower_iff hs ht]
  constructor
  · intro h
    have hfamily := congrArg (List.takeWhile (· != '.')) h
    rw [takeWhile_family, takeWhile_family] at hfamily
    obtain rfl := Kind.family_injective hfamily
    have hasset := List.append_cancel_left h
    exact ⟨rfl, String.toList_inj.mp (List.cons.inj hasset).2⟩
  · rintro ⟨rfl, hasset⟩
    rw [hasset]

/-- The asset's own name, in capital letters, leads to the same collections. -/
theorem of_upper (k : Kind) {asset : String} (h : Text.IsAscii asset) :
    of k (Text.upper asset) = of k asset :=
  (of_eq_of_iff (Text.isAscii_upper h) h).mpr ⟨rfl, Text.sameAscii_upper h⟩

end TradingDesk.Collection
