/-
  How a policy rounds what it wants.

  What a policy wants is a number of bytes.  What it asks for is the next capacity from there on: a
  multiple of the largest natural alignment, or the largest capacity if the next multiple is no word.
  `Growth.fitted` is that step by itself.  All that is known of `nextCapacity` elsewhere is said of
  `fitted` here, and comes from its two cases (`fitted_of_le`, `fitted_of_lt`).
-/
import StackArena.Growth
import StackArena.Proofs.Multiples

namespace StackArena

namespace Growth

open StackArena.Alignment (maxNatural padding)

variable {policy : Growth} {total requested wanted more limit : Nat}

/-! ## From bytes to capacities -/

/-- The capacity for the bytes that are wanted. -/
def fitted (wanted : Nat) : Nat := (Alignment.roundUp? wanted maxNatural).getD largest

/-- **The capacity is the next multiple**, or the largest one that is a word. -/
theorem fitted_eq (wanted : Nat) :
    fitted wanted
      = if wanted + padding wanted maxNatural < Word.count
        then wanted + padding wanted maxNatural else largest := by
  rw [fitted, Alignment.roundUp?_eq (by decide) (by decide)]
  split <;> rfl

/-- The next multiple is a word exactly if no more than the largest capacity is wanted. -/
theorem add_padding_lt_iff : wanted + padding wanted maxNatural < Word.count ↔ wanted ≤ largest := by
  rw [← Alignment.add_mask_lt_iff (by decide) (by decide)]
  show wanted + (16 - 1) < Word.count ↔ wanted ≤ Word.count - 16
  have : 16 ≤ Word.count := by decide
  omega

theorem fitted_of_le (h : wanted ≤ largest) : fitted wanted = wanted + padding wanted maxNatural := by
  rw [fitted_eq, if_pos (add_padding_lt_iff.2 h)]

theorem fitted_of_lt (h : largest < wanted) : fitted wanted = largest := by
  rw [fitted_eq, if_neg (mt add_padding_lt_iff.1 (Nat.not_le.2 h))]

/-- Capacities are multiples of the largest natural alignment. -/
theorem dvd_fitted (wanted : Nat) : maxNatural ∣ fitted wanted := by
  rcases Nat.lt_or_ge largest wanted with hlt | hle
  · rw [fitted_of_lt hlt]
    decide
  · rw [fitted_of_le hle]
    exact Alignment.dvd_add_padding (by decide) wanted

/-- No capacity is above the largest one. -/
theorem fitted_le_largest (wanted : Nat) : fitted wanted ≤ largest := by
  rcases Nat.lt_or_ge largest wanted with hlt | hle
  · exact Nat.le_of_eq (fitted_of_lt hlt)
  · rw [fitted_of_le hle]
    exact Alignment.add_padding_le (by decide) hle (by decide)

/-- **A capacity has room for all that is wanted**, unless that is more than the largest one has. -/
theorem le_fitted (h : wanted ≤ largest) : wanted ≤ fitted wanted := by
  rw [fitted_of_le h]
  exact Nat.le_add_right _ _

/-- **A capacity keeps to a limit** exactly if what is wanted does, since rounding up stops at a limit
    that is itself a multiple. -/
theorem fitted_le_iff (hlimit : maxNatural ∣ limit) (hlt : limit < largest) :
    fitted wanted ≤ limit ↔ wanted ≤ limit := by
  constructor
  · intro hle
    rcases Nat.lt_or_ge largest wanted with hover | hwanted
    · rw [fitted_of_lt hover] at hle
      omega
    · exact Nat.le_trans (le_fitted hwanted) hle
  · intro hle
    rw [fitted_of_le (by omega)]
    exact Alignment.add_padding_le (by decide) hle hlimit

/-- **Whoever wants more gets no less.** -/
theorem fitted_mono (h : wanted ≤ more) : fitted wanted ≤ fitted more := by
  rcases Nat.lt_or_ge largest more with hlt | hle
  · rw [fitted_of_lt hlt]
    exact fitted_le_largest wanted
  · rw [fitted_of_le (Nat.le_trans h hle)]
    exact Alignment.add_padding_le (by decide) (Nat.le_trans h (le_fitted hle)) (dvd_fitted more)

/-! ## The next capacity of a policy -/

/-- A policy asks for the capacity for all that it wants: its smallest block, the request, and the
    geometric step. -/
theorem nextCapacity_eq_fitted (policy : Growth) (total requested : Nat) :
    policy.nextCapacity total requested
      = fitted (max (max policy.minBlock requested) (policy.factor.scaleUp total)) := rfl

theorem dvd_nextCapacity (policy : Growth) (total requested : Nat) :
    maxNatural ∣ policy.nextCapacity total requested := by
  rw [nextCapacity_eq_fitted]
  exact dvd_fitted _

/-- **A policy keeps to a limit** exactly if all that it wants does. -/
theorem nextCapacity_le_iff (hlimit : maxNatural ∣ limit) (hlt : limit < largest) :
    policy.nextCapacity total requested ≤ limit ↔
      max (max policy.minBlock requested) (policy.factor.scaleUp total) ≤ limit := by
  rw [nextCapacity_eq_fitted]
  exact fitted_le_iff hlimit hlt

/-- A policy leaves room for all that it wants, unless it asks for the largest capacity. -/
theorem wanted_le_nextCapacity (h : policy.nextCapacity total requested < largest) :
    max (max policy.minBlock requested) (policy.factor.scaleUp total)
      ≤ policy.nextCapacity total requested :=
  (nextCapacity_le_iff (dvd_nextCapacity policy total requested) h).1 (Nat.le_refl _)

theorem le_nextCapacity (h : policy.nextCapacity total requested < largest) :
    requested ≤ policy.nextCapacity total requested := by
  have hwanted := wanted_le_nextCapacity h
  omega

end Growth

end StackArena
