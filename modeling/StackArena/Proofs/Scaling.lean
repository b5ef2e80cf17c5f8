/-
  How large a policy makes the next block.

  A policy wants the largest of three numbers: its smallest block, the request, and a factor times
  what the stack owns already.  That product is taken in binary64 arithmetic, where the total is
  rounded, and the product is rounded again; it is then rounded up to a whole number and cut to the
  range of words.

  1. **Grid** — the numbers of the format, as rational numbers.  `Rounds` says what rounding is,
     without saying how it is done, and it leaves no choice (`Rounds.unique`).
  2. **Magnitudes** — dropping low bits rounds in that sense (`Magnitude.nearest_rounds`): a number of
     the grid is whole in the units that are left, or it is further away
     (`Magnitude.whole_or_farther`).
  3. **Products** — `Value.Scales` says what the product of any value and a total is, for infinities
     and what is no number too, and `scaleUp_scales` that this is what is computed.
  4. **Capacities** — `nextCapacity_least` puts the product and the rounding of capacities together.
-/
import Mathlib.Algebra.Order.Field.Power
import Mathlib.Algebra.Order.Floor.Ring
import Mathlib.Data.Rat.Floor
import Mathlib.Tactic.Linarith
import Mathlib.Tactic.Positivity
import Mathlib.Tactic.Ring
import StackArena.Proofs.Hosting
import StackArena.Proofs.Sizing

namespace StackArena

namespace Binary64

/-! ## The grid -/

/-- `Written y n e`: the number `y` is `n * 2 ^ e`, with a significand of 53 bits and no unit finer
    than the finest of the format. -/
structure Written (y : ℚ) (n e : ℤ) : Prop where
  bits : |n| < 2 ^ 53
  finest : -1074 ≤ e
  eq : y = n * 2 ^ e

/-- The numbers of the format.  There is no upper end: a number beyond the largest finite one stands
    for an infinity, and no cut to the range of words tells the two apart. -/
def OnGrid (y : ℚ) : Prop := ∃ n e, Written y n e

/-- The numbers of the format that have an even significand in some unit: written out, their last bit
    is zero. -/
def EvenOnGrid (y : ℚ) : Prop := ∃ n e, Written y n e ∧ Even n

/-- `Rounds x y`: rounding `x` gives `y`, a number of the grid that is nearest to `x`, and the even one
    if there are two. -/
structure Rounds (x y : ℚ) : Prop where
  onGrid : OnGrid y
  nearest : ∀ z, OnGrid z → |y - x| ≤ |z - x|
  even : ∀ z, OnGrid z → |z - x| = |y - x| → z = y ∨ EvenOnGrid y

variable {x y z : ℚ} {m n e f s : ℤ}

theorem Written.neg (hy : Written y n e) : Written (-y) (-n) e := by
  refine ⟨by rw [abs_neg]; exact hy.bits, hy.finest, ?_⟩
  rw [hy.eq]
  push_cast
  ring

theorem OnGrid.neg (hy : OnGrid y) : OnGrid (-y) := by
  obtain ⟨n, e, hwritten⟩ := hy
  exact ⟨-n, e, hwritten.neg⟩

theorem EvenOnGrid.neg (hy : EvenOnGrid y) : EvenOnGrid (-y) := by
  obtain ⟨n, e, hwritten, heven⟩ := hy
  exact ⟨-n, e, hwritten.neg, heven.neg⟩

/-- Rounding treats both signs alike. -/
theorem Rounds.neg (h : Rounds x y) : Rounds (-x) (-y) := by
  have hflip (w : ℚ) : |w - -x| = |-w - x| := by
    rw [← abs_neg]
    congr 1
    ring
  refine ⟨h.onGrid.neg, ?_, ?_⟩
  · intro z hz
    rw [hflip, hflip, neg_neg]
    exact h.nearest (-z) hz.neg
  · intro z hz htie
    rw [hflip, hflip, neg_neg] at htie
    rcases h.even (-z) hz.neg htie with heq | heven
    · exact Or.inl (by rw [← heq, neg_neg])
    · exact Or.inr heven.neg

/-- A number of the grid stays as it is. -/
theorem OnGrid.rounds (hy : OnGrid y) : Rounds y y := by
  refine ⟨hy, ?_, ?_⟩
  · intro z _
    rw [sub_self, abs_zero]
    exact abs_nonneg _
  · intro z _ htie
    rw [sub_self, abs_zero, abs_eq_zero, sub_eq_zero] at htie
    exact Or.inl htie

/-! ## Units -/

/-- What is whole in a coarse unit is whole in a finer one. -/
theorem mul_unit_eq (hle : s ≤ e) (n : ℤ) :
    (n : ℚ) * 2 ^ e = ((n * 2 ^ (e - s).toNat : ℤ) : ℚ) * 2 ^ s := by
  have hsplit : (2 : ℚ) ^ e = 2 ^ (e - s).toNat * 2 ^ s := by
    rw [← zpow_natCast, ← zpow_add₀ two_ne_zero]
    congr 1
    omega
  push_cast
  rw [hsplit, mul_assoc]

theorem mul_unit_lt_iff : (m : ℚ) * 2 ^ e < n * 2 ^ e ↔ m < n := by
  rw [mul_lt_mul_iff_left₀ (zpow_pos two_pos e), Int.cast_lt]

/-- **A number of the grid is whole in every unit that 53 bits of it need**, and in the finest unit
    anyway. -/
theorem OnGrid.whole (hz : OnGrid z) (h : s = -1074 ∨ 2 ^ (52 + s) ≤ |z|) :
    ∃ j : ℤ, z = j * 2 ^ s := by
  obtain ⟨n, e, hbits, hfinest, rfl⟩ := hz
  rcases le_or_gt s e with hle | hlt
  · exact ⟨_, mul_unit_eq hle n⟩
  · -- With a finer unit and no more than 53 bits the number is too small.
    have hunit : (0 : ℚ) < 2 ^ e := zpow_pos two_pos e
    have hbits' : |(n : ℚ)| < 2 ^ (53 : ℤ) := by exact_mod_cast hbits
    have hsmall : |(n : ℚ) * 2 ^ e| < 2 ^ (52 + s) :=
      calc |(n : ℚ) * 2 ^ e| = |(n : ℚ)| * 2 ^ e := by rw [abs_mul, abs_of_pos hunit]
        _ < 2 ^ (53 : ℤ) * 2 ^ e := mul_lt_mul_of_pos_right hbits' hunit
        _ = 2 ^ (53 + e) := (zpow_add₀ two_ne_zero _ _).symm
        _ ≤ 2 ^ (52 + s) := zpow_le_zpow_right₀ one_le_two (by omega)
    rcases h with rfl | hlarge
    · omega
    · exact absurd hlarge (not_le.2 hsmall)

/-! ## Rounding leaves no choice -/

/-- Between two even numbers of units, the second in a coarser unit, lies an odd one in the first
    unit. -/
theorem add_one_lt_of_even (hm : Even m) (hn : Even n) (hle : e ≤ f)
    (hlt : (m : ℚ) * 2 ^ e < n * 2 ^ f) : ((m + 1 : ℤ) : ℚ) * 2 ^ e < n * 2 ^ f := by
  rw [mul_unit_eq hle n, mul_unit_lt_iff] at hlt ⊢
  obtain ⟨i, rfl⟩ := hm
  obtain ⟨j, hj⟩ := hn.mul_right (2 ^ (f - e).toNat)
  omega

/-- After an even number the grid goes on in the same unit. -/
theorem Written.succ (hy : Written y n e) (heven : Even n) :
    OnGrid (((n + 1 : ℤ) : ℚ) * 2 ^ e) := by
  have hbits := hy.bits
  refine ⟨n + 1, e, ?_, hy.finest, rfl⟩
  obtain ⟨i, rfl⟩ := heven
  rw [abs_lt] at hbits ⊢
  omega

/-- **Two even numbers are never neighbours on the grid.** -/
theorem EvenOnGrid.exists_between (hy : EvenOnGrid y) (hz : EvenOnGrid z) (hlt : y < z) :
    ∃ w, OnGrid w ∧ y < w ∧ w < z := by
  obtain ⟨m, e, hwy, hm⟩ := hy
  obtain ⟨n, f, hwz, hn⟩ := hz
  have hfirst := hwy.eq
  have hlast := hwz.eq
  rw [hfirst, hlast] at hlt ⊢
  rcases le_total e f with hle | hle
  · refine ⟨_, hwy.succ hm, ?_, add_one_lt_of_even hm hn hle hlt⟩
    rw [mul_unit_lt_iff]
    omega
  · -- The finer unit is that of the upper number: look from there, with the signs changed.
    have hunit : (0 : ℚ) < 2 ^ f := zpow_pos two_pos f
    have hback : ((-n : ℤ) : ℚ) * 2 ^ f < ((-m : ℤ) : ℚ) * 2 ^ e := by
      push_cast
      linarith
    have hnext := add_one_lt_of_even hn.neg hm.neg hle hback
    refine ⟨_, (hwz.neg.succ hn.neg).neg, ?_, ?_⟩
    · push_cast at hnext ⊢
      linarith
    · push_cast
      linarith

/-- **Rounding gives one number only.** -/
theorem Rounds.unique (hy : Rounds x y) (hz : Rounds x z) : y = z := by
  by_contra hne
  wlog hlt : y < z generalizing y z with hswap
  · exact hswap hz hy (Ne.symm hne) (lt_of_le_of_ne (not_lt.1 hlt) (Ne.symm hne))
  have htie : |z - x| = |y - x| := le_antisymm (hz.nearest y hy.onGrid) (hy.nearest z hz.onGrid)
  have heven : EvenOnGrid y := (hy.even z hz.onGrid htie).resolve_left (Ne.symm hne)
  have heven' : EvenOnGrid z := (hz.even y hy.onGrid htie.symm).resolve_left hne
  obtain ⟨w, hw, hyw, hwz⟩ := heven.exists_between heven' hlt
  -- At equal distances `x` is in the middle, and a number between the two is nearer to it.
  have hmiddle : z - x = -(y - x) := by
    rcases abs_eq_abs.1 htie with hsame | hmiddle
    · linarith
    · exact hmiddle
  have hnear := hy.nearest w hw
  rw [abs_of_nonpos (by linarith : y - x ≤ 0)] at hnear
  rcases abs_cases (w - x) with ⟨habs, -⟩ | ⟨habs, -⟩ <;> linarith

end Binary64

namespace Magnitude

open Binary64

/-! ## Magnitudes as numbers -/

/-- The number that a magnitude stands for. -/
def toRat (x : Magnitude) : ℚ := x.significand * 2 ^ x.exponent

theorem toRat_nonneg (x : Magnitude) : 0 ≤ x.toRat := by
  unfold toRat
  positivity

theorem toRat_ofNat (n : Nat) : (ofNat n).toRat = n := by
  unfold toRat ofNat
  rw [zpow_zero, mul_one]

theorem toRat_mul (x y : Magnitude) : (x.mul y).toRat = x.toRat * y.toRat := by
  unfold toRat mul
  rw [zpow_add₀ two_ne_zero]
  push_cast
  ring

/-- The quotient of whole numbers, rounded up. -/
theorem ceil_div {n u : Nat} (hu : 0 < u) : (((n + (u - 1)) / u : ℕ) : ℤ) = ⌈(n / u : ℚ)⌉ := by
  have hdiv := Nat.div_add_mod (n + (u - 1)) u
  have hmod := Nat.mod_lt (n + (u - 1)) hu
  generalize (n + (u - 1)) / u = q at hdiv ⊢
  have hle : n ≤ u * q := by omega
  have hlt : u * q < n + u := by omega
  have hpos : (0 : ℚ) < u := Nat.cast_pos.2 hu
  refine (Int.ceil_eq_iff.2 ⟨?_, ?_⟩).symm
  · have hlt' : (u * q : ℚ) < n + u := by exact_mod_cast hlt
    rw [lt_div_iff₀ hpos, Int.cast_natCast]
    linarith
  · have hle' : (n : ℚ) ≤ u * q := by exact_mod_cast hle
    rw [div_le_iff₀ hpos, Int.cast_natCast]
    linarith

/-- **The ceiling of a magnitude is that of its number.** -/
theorem ceil_eq (x : Magnitude) : (x.ceil : ℤ) = ⌈x.toRat⌉ := by
  obtain ⟨n, e⟩ := x
  cases e with
  | ofNat e =>
    have hwhole : toRat ⟨n, .ofNat e⟩ = ((n * 2 ^ e : ℕ) : ℚ) := by
      unfold toRat
      rw [Int.ofNat_eq_natCast, zpow_natCast]
      push_cast
      rfl
    rw [hwhole, Int.ceil_natCast]
    rfl
  | negSucc e =>
    have hquotient : toRat ⟨n, .negSucc e⟩ = n / (2 ^ (e + 1) : ℕ) := by
      unfold toRat
      rw [zpow_negSucc, div_eq_mul_inv]
      push_cast
      rfl
    rw [hquotient, ← ceil_div (Nat.two_pow_pos _)]
    rfl

/-! ## Dropping low bits -/

theorem shiftNearest_zero (n : Nat) : shiftNearest n 0 = n := by
  simp [shiftNearest, Nat.mod_one]

/-- The units that are there are kept if no more than half a unit is dropped, and there is one more if
    no less is; at exactly half a unit the number of units is even. -/
theorem shiftNearest_cases (n k : Nat) :
    (2 * (n % 2 ^ k) = 2 ^ k → shiftNearest n k % 2 = 0) ∧
      ((shiftNearest n k = n / 2 ^ k ∧ 2 * (n % 2 ^ k) ≤ 2 ^ k) ∨
        (shiftNearest n k = n / 2 ^ k + 1 ∧ 2 ^ k ≤ 2 * (n % 2 ^ k))) := by
  unfold shiftNearest
  simp only [Nat.pow_eq]
  split <;> omega

theorem shiftNearest_le (n k : Nat) : shiftNearest n k ≤ n / 2 ^ k + 1 := by
  rcases (shiftNearest_cases n k).2 with ⟨heq, -⟩ | ⟨heq, -⟩ <;> omega

/-- A whole number of units is one of two neighbours, or at least a unit away from both. -/
theorem steps_of_units (j : ℤ) (q u : Nat) :
    j * u ≤ q * u - u ∨ j = q ∨ j = q + 1 ∨ q * u + 2 * u ≤ j * u := by
  have hu : (0 : ℤ) ≤ u := Int.natCast_nonneg u
  rcases lt_or_ge j q with hbelow | habove
  · have hmul := Int.mul_le_mul_of_nonneg_right (show j ≤ q - 1 by omega) hu
    rw [Int.sub_mul, Int.one_mul] at hmul
    exact Or.inl hmul
  · rcases lt_or_ge j (q + 2) with hnear | hfar
    · omega
    · have hmul := Int.mul_le_mul_of_nonneg_right hfar hu
      rw [Int.add_mul] at hmul
      exact Or.inr (Or.inr (Or.inr hmul))

/-- **Dropping low bits goes to the nearest whole number of units**, and of two nearest ones to the
    even one. -/
theorem shiftNearest_spec (n k : Nat) (j : ℤ) :
    |(shiftNearest n k : ℤ) * 2 ^ k - n| ≤ |j * 2 ^ k - n| ∧
      (|j * 2 ^ k - n| = |(shiftNearest n k : ℤ) * 2 ^ k - n| →
        j = shiftNearest n k ∨ shiftNearest n k % 2 = 0) := by
  have hunit : ((2 ^ k : ℕ) : ℤ) = 2 ^ k := by push_cast; rfl
  have hdiv : ((2 ^ k * (n / 2 ^ k) + n % 2 ^ k : ℕ) : ℤ) = n :=
    congrArg Nat.cast (Nat.div_add_mod n (2 ^ k))
  have hmod : n % 2 ^ k < 2 ^ k := Nat.mod_lt n (Nat.two_pow_pos k)
  have hsteps := steps_of_units j (n / 2 ^ k) (2 ^ k)
  obtain ⟨heven, hcases⟩ := shiftNearest_cases n k
  rw [← hunit]
  generalize shiftNearest n k = rounded at heven hcases ⊢
  generalize n / 2 ^ k = q at hdiv hsteps hcases
  generalize n % 2 ^ k = r at hdiv hmod heven hcases
  generalize 2 ^ k = u at hdiv hmod hsteps heven hcases ⊢
  -- All distances are linear in the two products that are left.
  have hsucc : ((q : ℤ) + 1) * u = q * u + u := by ring
  have hn : (n : ℤ) = q * u + r := by
    rw [← hdiv]
    push_cast
    ring
  rw [hn]
  rcases hcases with ⟨rfl, hhalf⟩ | ⟨rfl, hhalf⟩
  · simp only [Int.abs_eq_natAbs]
    rcases hsteps with h | rfl | rfl | h <;> omega
  · rw [Nat.cast_add, Nat.cast_one, hsucc]
    simp only [Int.abs_eq_natAbs]
    rcases hsteps with h | rfl | rfl | h <;> omega

/-- A distance in coarse units, counted in fine ones. -/
theorem abs_sub_unit (n k : Nat) (e m : ℤ) :
    |(m : ℚ) * 2 ^ (e + k) - n * 2 ^ e| = ((|m * 2 ^ k - n| : ℤ) : ℚ) * 2 ^ e := by
  have hunit : (0 : ℚ) < 2 ^ e := zpow_pos two_pos e
  have hsplit : (m : ℚ) * 2 ^ (e + k) - n * 2 ^ e = ((m * 2 ^ k - n : ℤ) : ℚ) * 2 ^ e := by
    rw [zpow_add₀ two_ne_zero, zpow_natCast]
    push_cast
    ring
  rw [hsplit, abs_mul, abs_of_pos hunit, Int.cast_abs]

/-- No whole number of the units that are left is nearer than the rounded magnitude. -/
theorem nearest_of_whole (n k : Nat) (e j : ℤ) :
    |toRat ⟨shiftNearest n k, e + k⟩ - toRat ⟨n, e⟩| ≤ |j * 2 ^ (e + k) - toRat ⟨n, e⟩| ∧
      (|j * 2 ^ (e + k) - toRat ⟨n, e⟩| = |toRat ⟨shiftNearest n k, e + k⟩ - toRat ⟨n, e⟩| →
        j * 2 ^ (e + k) = toRat ⟨shiftNearest n k, e + k⟩ ∨ shiftNearest n k % 2 = 0) := by
  have hunit : (0 : ℚ) < 2 ^ e := zpow_pos two_pos e
  obtain ⟨hle, heven⟩ := shiftNearest_spec n k j
  have hrounded := abs_sub_unit n k e (shiftNearest n k)
  have hother := abs_sub_unit n k e j
  rw [Int.cast_natCast] at hrounded
  unfold toRat
  rw [hrounded, hother]
  constructor
  · exact mul_le_mul_of_nonneg_right (Int.cast_le.2 hle) hunit.le
  · intro htie
    have hsame := Int.cast_inj.1 (mul_right_cancel₀ hunit.ne' htie)
    rcases heven hsame with rfl | hzero
    · exact Or.inl (by rw [Int.cast_natCast])
    · exact Or.inr hzero

/-! ## Rounding a magnitude -/

/-- A significand of 53 bits, or the next one, is on the grid. -/
theorem onGrid_of_le {q : Nat} {s : ℤ} (hq : q ≤ 2 ^ 53) (hs : -1074 ≤ s) :
    OnGrid (toRat ⟨q, s⟩) ∧ (q % 2 = 0 → EvenOnGrid (toRat ⟨q, s⟩)) := by
  rcases Nat.lt_or_eq_of_le hq with hlt | rfl
  · have hwritten : Written (toRat ⟨q, s⟩) q s := by
      refine ⟨?_, hs, rfl⟩
      rw [Nat.abs_cast]
      exact_mod_cast hlt
    exact ⟨⟨_, _, hwritten⟩, fun heven => ⟨_, _, hwritten, (Nat.even_iff.2 heven).natCast⟩⟩
  · -- One bit more, and the unit is twice as large.
    have hwritten : Written (toRat ⟨2 ^ 53, s⟩) (2 ^ 52) (s + 1) := by
      refine ⟨by norm_num, by omega, ?_⟩
      unfold toRat
      rw [zpow_add₀ two_ne_zero, zpow_one]
      push_cast
      ring
    exact ⟨⟨_, _, hwritten⟩, fun _ => ⟨_, _, hwritten, by decide⟩⟩

/-- **A number of the grid is whole in the units that are left, or it is further away** than the
    rounded magnitude: if bits are dropped because there are more than 53, then it lies below all
    numbers with as many bits. -/
theorem whole_or_farther (x : Magnitude) {z : ℚ} (hz : OnGrid z) :
    (∃ j : ℤ, z = j * 2 ^ (x.exponent + x.excess)) ∨
      |x.nearest.toRat - x.toRat| < |z - x.toRat| := by
  obtain ⟨n, e⟩ := x
  have hk : excess ⟨n, e⟩ = max (n.log2 + 1 - 53) (-1074 - e).toNat := rfl
  unfold nearest
  dsimp only
  generalize excess ⟨n, e⟩ = k at hk ⊢
  by_cases hlarge : e + k = -1074 ∨ 2 ^ (52 + (e + k)) ≤ |z|
  · exact Or.inl (hz.whole hlarge)
  · obtain ⟨hcoarse, hbelow⟩ := not_or.1 hlarge
    rcases Nat.eq_zero_or_pos k with rfl | hpos
    · rw [shiftNearest_zero, Nat.cast_zero, add_zero, sub_self, abs_zero]
      rcases eq_or_ne z (toRat ⟨n, e⟩) with rfl | hne
      · exact Or.inl ⟨n, by rw [Int.cast_natCast]; rfl⟩
      · exact Or.inr (abs_pos.2 (sub_ne_zero.2 hne))
    · have hlog : n.log2 = 52 + k := by omega
      have hreach : (2 : ℚ) ^ (52 + (e + k)) ≤ toRat ⟨n, e⟩ := by
        have hne : n ≠ 0 := by
          rintro rfl
          rw [Nat.log2_zero] at hlog
          omega
        have hself : (2 : ℚ) ^ (52 + k) ≤ n := by exact_mod_cast hlog ▸ Nat.log2_self_le hne
        have hsplit : (2 : ℚ) ^ (52 + (e + k)) = 2 ^ (52 + k) * 2 ^ e := by
          rw [← zpow_natCast, ← zpow_add₀ two_ne_zero]
          congr 1
          push_cast
          ring
        rw [hsplit]
        exact mul_le_mul_of_nonneg_right hself (zpow_pos two_pos e).le
      -- The first number with as many bits is whole, so it is no nearer than the rounded magnitude;
      -- it lies between `z` and the magnitude.
      have hfirst := (nearest_of_whole n k e (2 ^ 52)).1
      have hbits : ((2 ^ 52 : ℤ) : ℚ) * 2 ^ (e + k) = 2 ^ (52 + (e + k)) := by
        rw [zpow_add₀ two_ne_zero 52]
        norm_num
      have hlow : z < 2 ^ (52 + (e + k)) := lt_of_le_of_lt (le_abs_self z) (not_le.1 hbelow)
      rw [hbits, abs_of_nonpos (sub_nonpos.2 hreach)] at hfirst
      right
      rw [abs_of_nonpos (sub_nonpos.2 (hlow.le.trans hreach))]
      linarith

/-- **Rounding a magnitude** goes to the nearest number of the grid, and of two nearest ones to the
    even one. -/
theorem nearest_rounds (x : Magnitude) : Rounds x.toRat x.nearest.toRat := by
  have hbits : x.significand < 2 ^ (x.significand.log2 + 1) := Nat.lt_log2_self
  have hexcess : x.excess = max (x.significand.log2 + 1 - 53) (-1074 - x.exponent).toNat := rfl
  have hquotient : x.significand / 2 ^ x.excess < 2 ^ 53 := by
    refine Nat.div_lt_of_lt_mul (Nat.lt_of_lt_of_le hbits ?_)
    rw [← Nat.pow_add]
    exact Nat.pow_le_pow_right (by decide) (by omega)
  have hq := shiftNearest_le x.significand x.excess
  obtain ⟨hgrid, heven⟩ := onGrid_of_le (q := shiftNearest x.significand x.excess)
    (s := x.exponent + x.excess) (by omega) (by omega)
  refine ⟨hgrid, ?_, ?_⟩
  · intro z hz
    rcases x.whole_or_farther hz with ⟨j, rfl⟩ | hfar
    · exact (nearest_of_whole x.significand x.excess x.exponent j).1
    · exact hfar.le
  · intro z hz htie
    rcases x.whole_or_farther hz with ⟨j, rfl⟩ | hfar
    · exact ((nearest_of_whole x.significand x.excess x.exponent j).2 htie).imp_right heven
    · exact absurd htie hfar.ne'

end Magnitude

namespace Binary64

/-! ## Products -/

/-- `value.Scales total n`: the product of a total and a value in binary64 arithmetic, rounded up to a
    whole number and cut to the range of words, is `n`.  The total is rounded to a number of the
    grid, and so is its product with a finite value.  What is no number counts as zero, and zero times
    an infinity is no number. -/
def Value.Scales (total n : Nat) : Value → Prop
  | .nan => n = 0
  | .infinite negative => n = if negative ∨ total = 0 then 0 else Word.max
  | .finite negative magnitude =>
    ∃ rounded step : ℚ, Rounds total rounded ∧
      Rounds (rounded * if negative then -magnitude.toRat else magnitude.toRat) step ∧
      n = min ⌈step⌉.toNat Word.max

theorem Value.Scales.unique {value : Value} {total m n : Nat} (hm : value.Scales total m)
    (hn : value.Scales total n) : m = n := by
  cases value with
  | nan => exact hm.trans hn.symm
  | infinite negative => exact hm.trans hn.symm
  | finite negative magnitude =>
    obtain ⟨rounded, step, hrounded, hstep, rfl⟩ := hm
    obtain ⟨rounded', step', hrounded', hstep', rfl⟩ := hn
    obtain rfl := hrounded.unique hrounded'
    rw [hstep.unique hstep']

/-- **Scaling a total** gives the product that binary64 arithmetic has. -/
theorem scaleUp_scales (factor : Binary64) (total : Nat) :
    factor.value.Scales total (factor.scaleUp total) := by
  unfold scaleUp
  cases factor.value with
  | nan => rfl
  | infinite negative =>
    show (if negative || total == 0 then 0 else Word.max) = _
    simp
  | finite negative magnitude =>
    have hrounded := (Magnitude.ofNat total).nearest_rounds
    have hstep := ((Magnitude.ofNat total).nearest.mul magnitude).nearest_rounds
    rw [Magnitude.toRat_ofNat] at hrounded
    rw [Magnitude.toRat_mul] at hstep
    cases negative with
    | false =>
      refine ⟨_, _, hrounded, hstep, ?_⟩
      rw [← Magnitude.ceil_eq, Int.toNat_natCast]
      rfl
    | true =>
      refine ⟨_, -((Magnitude.ofNat total).nearest.mul magnitude).nearest.toRat, hrounded, ?_, ?_⟩
      · rw [if_pos rfl, mul_neg]
        exact hstep.neg
      · -- The cut leaves nothing of what is below zero.
        rw [Int.toNat_of_nonpos (Int.ceil_nonpos.2 (neg_nonpos.2 (Magnitude.toRat_nonneg _))),
          Nat.zero_min]
        rfl

/-- **One times a total is the total**, as long as the total has at most 53 bits. -/
theorem one_scaleUp {total : Nat} (htotal : total ≤ 2 ^ 53) : one.scaleUp total = total := by
  have hvalue : one.value = .finite false ⟨2 ^ 52, -52⟩ := by decide
  have hone : Magnitude.toRat ⟨2 ^ 52, -52⟩ = 1 := by
    unfold Magnitude.toRat
    norm_num
  have hgrid : OnGrid total := by
    have := (Magnitude.onGrid_of_le (s := 0) htotal (by decide)).1
    rwa [← Magnitude.ofNat, Magnitude.toRat_ofNat] at this
  refine (scaleUp_scales one total).unique ?_
  rw [hvalue]
  refine ⟨total, total, hgrid.rounds, ?_, ?_⟩
  · rw [hone]
    simpa using hgrid.rounds
  · rw [Int.ceil_natCast, Int.toNat_natCast]
    exact (Nat.min_eq_left (Nat.le_trans htotal (by decide))).symm

end Binary64

namespace Growth

open StackArena.Alignment (maxNatural padding)

/-! ## Capacities -/

/-- The least multiple that is not below what is wanted, whether it is a word or not. -/
theorem isLeast_add_padding (wanted : Nat) :
    IsLeast {m | maxNatural ∣ m ∧ wanted ≤ m} (wanted + padding wanted maxNatural) := by
  constructor
  · exact ⟨Alignment.dvd_add_padding (by decide) wanted, Nat.le_add_right _ _⟩
  · rintro m ⟨hdvd, hle⟩
    exact Alignment.add_padding_le (by decide) hle hdvd

/-- **A policy asks for the least capacity** that has room for all that it wants.  For every smallest
    block, every bit pattern as the factor, every total and every request, with the one geometric step
    that binary64 arithmetic has for them:
    1. the capacity is the least multiple that is below neither the smallest block, nor the request,
       nor the step, if that is a word, and otherwise the largest multiple that is one;
    2. it is a word, and it has room for the request if any multiple that is a word has;
    3. a larger smallest block or a larger request never makes it smaller;
    4. if a block can have it, it has room for the request, and so has every block that is made
       with it. -/
theorem nextCapacity_least (policy : Growth) (total requested : Nat) :
    ∃ step, (∀ n, policy.factor.value.Scales total n ↔ n = step) ∧
      (∃ next, IsLeast {m | maxNatural ∣ m ∧ max (max policy.minBlock requested) step ≤ m} next ∧
        policy.nextCapacity total requested
          = if next < Word.count then next else Word.count - maxNatural) ∧
      policy.nextCapacity total requested < Word.count ∧
      (requested ≤ Word.count - maxNatural → requested ≤ policy.nextCapacity total requested) ∧
      (Monotone fun smallest => nextCapacity { policy with minBlock := smallest } total requested) ∧
      (Monotone fun request => policy.nextCapacity total request) ∧
      (policy.nextCapacity total requested ≤ Word.maxSize - 15 →
        requested ≤ policy.nextCapacity total requested) ∧
      ∀ p serial h blk h',
        Block.make p (policy.nextCapacity total requested) serial h = .ok blk h' →
          blk.capacity ≤ Word.maxSize - 15 ∧ requested ≤ blk.capacity := by
  have hcover : policy.nextCapacity total requested ≤ Word.maxSize - 15 →
      requested ≤ policy.nextCapacity total requested := by
    intro hsmall
    exact le_nextCapacity (Nat.lt_of_le_of_lt hsmall (by decide))
  refine ⟨policy.factor.scaleUp total, ?_, ⟨_, isLeast_add_padding _, ?_⟩, ?_, ?_, ?_, ?_, hcover, ?_⟩
  · intro n
    constructor
    · intro hn
      exact hn.unique (Binary64.scaleUp_scales policy.factor total)
    · rintro rfl
      exact Binary64.scaleUp_scales policy.factor total
  · rw [nextCapacity_eq_fitted]
    exact fitted_eq _
  · rw [nextCapacity_eq_fitted]
    exact Nat.lt_of_le_of_lt (fitted_le_largest _) (by decide)
  · intro hle
    rw [nextCapacity_eq_fitted]
    exact Nat.le_trans (le_fitted hle) (fitted_mono (by omega))
  · intro smallest smallest' hle
    dsimp only
    rw [nextCapacity_eq_fitted, nextCapacity_eq_fitted]
    exact fitted_mono (by dsimp only; omega)
  · intro request request' hle
    dsimp only
    rw [nextCapacity_eq_fitted, nextCapacity_eq_fitted]
    exact fitted_mono (by omega)
  · intro p serial h blk h' hmake
    rcases Block.make_cases p (policy.nextCapacity total requested) serial h with
      ⟨base, -, hdone, hsmall⟩ | ⟨f, hstop, -⟩
    · cases hdone.symm.trans hmake
      exact ⟨hsmall, hcover hsmall⟩
    · nomatch hstop.symm.trans hmake

/-- Beyond the largest multiple that is a word a request gets less than it asks for. -/
example : (Growth.mk 64 .one).nextCapacity 0 (Word.count - 15) = Word.count - 16 := by decide

end Growth

end StackArena
