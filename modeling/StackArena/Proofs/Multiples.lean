/-
  Rounding words with masks is rounding numbers.

  Padding is found with a mask.  Rounding up adds the mask, which has to give a word, and then clears
  the low bits.  In terms of unbounded numbers the padding is the way to the next multiple
  (`Alignment.eq_padding`), and rounding up gives that multiple exactly if it is a word
  (`Alignment.roundUp?_eq`), although the sum that is checked lies above it:

    v             v + padding        v + (a - 1)           Word.count
    |                  |                  |                    |
             a multiple of `a`                         a multiple of `a`

  The number of words is a multiple of every alignment.  So a multiple that is a word has a whole
  alignment above it that consists of words, and the sum lies there.

  No later proof looks at a mask again.  `rounds_exactly` puts the results together, for the
  functions that check the alignment first.
-/
import StackArena.Layout

namespace StackArena

namespace Alignment

variable {a v x : Nat}

/-! ## Masks -/

/-- The valid alignments are the powers of two. -/
theorem isValid_iff : isValid a = true ↔ a.isPowerOfTwo := by
  rw [← Nat.ne_zero_and_sub_one_eq_zero_iff_isPowerOfTwo, isValid, Bool.and_eq_true, bne_iff_ne,
    beq_iff_eq]

theorem pos_of_isValid (ha : isValid a = true) : 0 < a := Nat.pos_of_isPowerOfTwo (isValid_iff.1 ha)

theorem mask_eq (ha : isValid a = true) : mask a = a - 1 :=
  Word.wrapSub_of_le (pos_of_isValid ha)

theorem complement_mask (ha : isValid a = true) : Word.complement (mask a) = Word.count - a := by
  have hpos := pos_of_isValid ha
  rw [mask_eq ha]
  unfold Word.complement Word.max Word.count
  omega

/-- The mask of a valid alignment takes the remainder. -/
theorem and_mask_eq_mod (ha : isValid a = true) (v : Nat) : v &&& mask a = v % a := by
  rw [mask_eq ha]
  obtain ⟨k, rfl⟩ := isValid_iff.1 ha
  exact Nat.and_two_pow_sub_one_eq_mod v k

/-- Clearing the low bits of a word takes the remainder away. -/
theorem and_complement_eq (ha : isValid a = true) (hle : a ≤ Word.count) (hv : v < Word.count) :
    v &&& (Word.count - a) = v / a * a := by
  obtain ⟨k, rfl⟩ := isValid_iff.1 ha
  have hk : k ≤ 64 := (Nat.pow_le_pow_iff_right (by decide)).1 hle
  have hmask : Word.count - 2 ^ k = 2 ^ k * (2 ^ (64 - k) - 1) := by
    rw [Nat.mul_sub, ← Nat.pow_add, Nat.mul_one, show k + (64 - k) = 64 by omega]
    rfl
  refine Nat.eq_of_testBit_eq fun i => ?_
  rw [hmask, Nat.testBit_and, Nat.testBit_two_pow_mul, Nat.testBit_two_pow_sub_one,
    Nat.mul_comm (v / 2 ^ k), Nat.testBit_two_pow_mul, Nat.testBit_div_two_pow]
  by_cases hlow : i < k
  · simp [Nat.not_le.2 hlow]
  · have hsame : i - k + k = i := by omega
    by_cases hhigh : i < 64
    · have hset : i - k < 64 - k := by omega
      simp [Nat.not_lt.1 hlow, hset, hsame]
    · have hzero : v.testBit i = false := by
        refine Nat.testBit_lt_two_pow (Nat.lt_of_lt_of_le hv ?_)
        exact Nat.pow_le_pow_right (by decide) (by omega)
      simp [hzero, hsame]

/-! ## Padding -/

/-- Padding in terms of the remainder. -/
theorem padding_eq (ha : isValid a = true) (v : Nat) :
    padding v a = if v % a = 0 then 0 else a - v % a := by
  have hle : v % a ≤ a := Nat.le_of_lt (Nat.mod_lt v (pos_of_isValid ha))
  unfold padding
  dsimp only
  rw [and_mask_eq_mod ha, Word.wrapSub_of_le hle]

/-- **Padding leads to a multiple of the alignment.** -/
theorem dvd_add_padding (ha : isValid a = true) (v : Nat) : a ∣ v + padding v a := by
  have hlt : v % a < a := Nat.mod_lt v (pos_of_isValid ha)
  rw [padding_eq ha]
  by_cases hzero : v % a = 0
  · rw [if_pos hzero]
    exact Nat.dvd_of_mod_eq_zero hzero
  · rw [if_neg hzero]
    have hsum : v + (a - v % a) = a * (v / a + 1) := by
      have hdiv := Nat.div_add_mod v a
      rw [Nat.mul_add, Nat.mul_one]
      omega
    exact ⟨v / a + 1, hsum⟩

/-- Padding never takes a whole alignment. -/
theorem padding_lt (ha : isValid a = true) (v : Nat) : padding v a < a := by
  have hpos := pos_of_isValid ha
  rw [padding_eq ha]
  split <;> omega

/-- **No other number below the alignment leads to a multiple.** -/
theorem eq_padding (ha : isValid a = true) {p : Nat} (hlt : p < a) (hdvd : a ∣ v + p) :
    p = padding v a := by
  have hpadding := padding_lt ha v
  -- Both ways lead to a multiple, so one is longer than the other by a multiple: by none.
  rcases Nat.le_total p (padding v a) with hle | hle
  · have hgap := Nat.dvd_sub (dvd_add_padding ha v) hdvd
    have hzero := Nat.eq_zero_of_dvd_of_lt hgap (by omega)
    omega
  · have hgap := Nat.dvd_sub hdvd (dvd_add_padding ha v)
    have hzero := Nat.eq_zero_of_dvd_of_lt hgap (by omega)
    omega

/-- **Padding is no longer than it must be.** -/
theorem add_padding_le (ha : isValid a = true) (hle : v ≤ x) (hx : a ∣ x) :
    v + padding v a ≤ x := by
  rcases Nat.lt_or_ge (x - v) a with hnear | hfar
  · have hsum : v + (x - v) = x := by omega
    have heq := eq_padding ha hnear (hsum.symm ▸ hx)
    omega
  · have := padding_lt ha v
    omega

/-- A multiple needs no padding. -/
theorem padding_of_dvd (ha : isValid a = true) (hdvd : a ∣ v) : padding v a = 0 :=
  (eq_padding ha (pos_of_isValid ha) hdvd).symm

/-- An address is aligned, for either build, if it is a multiple of the alignment. -/
theorem isAligned_eq (ha : isValid a = true) (b : Build) (v : Nat) :
    isAligned b v a = .ok (decide (a ∣ v)) := by
  have hrem : Word.rem v a = .ok (v % a) := if_neg (Nat.ne_of_gt (pos_of_isValid ha))
  rw [isAligned, ha, Build.require_true, hrem]
  refine congrArg Except.ok ?_
  rw [Bool.eq_iff_iff, beq_iff_eq, decide_eq_true_iff]
  exact Nat.dvd_iff_mod_eq_zero.symm

/-- Of an alignment and the largest natural one the smaller divides the larger. -/
theorem dvd_natural (ha : isValid a = true) : a ∣ maxNatural ∨ maxNatural ∣ a := by
  obtain ⟨k, rfl⟩ := isValid_iff.1 ha
  have hnatural : maxNatural = 2 ^ 4 := rfl
  rw [hnatural]
  rcases Nat.le_total k 4 with hsmall | hlarge
  · exact Or.inl (Nat.pow_dvd_pow 2 hsmall)
  · exact Or.inr (Nat.pow_dvd_pow 2 hlarge)

/-- **On a base for every natural alignment the padding is covered by the slack.** -/
theorem padding_le (hv : maxNatural ∣ v) (ha : isValid a = true) :
    padding v a ≤ a - maxNatural := by
  rcases dvd_natural ha with hsmall | hlarge
  · rw [padding_of_dvd ha (Nat.dvd_trans hsmall hv)]
    exact Nat.zero_le _
  · -- Base and alignment are multiples of the natural one, so the padding is, and so is what it
    -- leaves of the alignment: something, so no less than the natural one.
    have hpadding : maxNatural ∣ padding v a :=
      (Nat.dvd_add_right hv).1 (Nat.dvd_trans hlarge (dvd_add_padding ha v))
    have hlt := padding_lt ha v
    have hrest := Nat.le_of_dvd (by omega) (Nat.dvd_sub hlarge hpadding)
    omega

/-! ## Rounding up -/

/-- The number of words is a multiple of every alignment. -/
theorem dvd_count (ha : isValid a = true) (hle : a ≤ Word.count) : a ∣ Word.count := by
  obtain ⟨k, rfl⟩ := isValid_iff.1 ha
  exact Nat.pow_dvd_pow 2 ((Nat.pow_le_pow_iff_right (by decide)).1 hle)

/-- A multiple that is a word is followed by a whole alignment of words. -/
theorem add_le_count (ha : isValid a = true) (hle : a ≤ Word.count) (hx : a ∣ x)
    (hlt : x < Word.count) : x + a ≤ Word.count := by
  have hgap : a ∣ Word.count - x := Nat.dvd_sub (dvd_count ha hle) hx
  have := Nat.le_of_dvd (by omega) hgap
  omega

/-- **The sum that is checked is a word exactly if the next multiple is one.** -/
theorem add_mask_lt_iff (ha : isValid a = true) (hle : a ≤ Word.count) :
    v + (a - 1) < Word.count ↔ v + padding v a < Word.count := by
  have hpadding := padding_lt ha v
  constructor
  · intro hsum
    omega
  · intro hnext
    have := add_le_count ha hle (dvd_add_padding ha v) hnext
    omega

/-- **Rounding up gives the next multiple**, if that is a word. -/
theorem roundUp?_eq (ha : isValid a = true) (hle : a ≤ Word.count) :
    roundUp? v a
      = if v + padding v a < Word.count then some (v + padding v a) else none := by
  rw [roundUp?, complement_mask ha, mask_eq ha, Word.add?]
  by_cases hnext : v + padding v a < Word.count
  · have hsum := (add_mask_lt_iff ha hle).2 hnext
    rw [if_pos hsum, if_pos hnext, Option.map_some, and_complement_eq ha hle hsum]
    -- The multiple below the sum lies above `v`, and by less than an alignment.
    have hdiv := Nat.div_add_mod (v + (a - 1)) a
    have hmod := Nat.mod_lt (v + (a - 1)) (pos_of_isValid ha)
    rw [Nat.mul_comm] at hdiv
    obtain ⟨p, hp⟩ : ∃ p, (v + (a - 1)) / a * a = v + p := Nat.exists_eq_add_of_le (by omega)
    have hpadding : p = padding v a := eq_padding ha (by omega) (hp ▸ Nat.dvd_mul_left a _)
    rw [hp, hpadding]
  · rw [if_neg hnext, if_neg (mt (add_mask_lt_iff ha hle).1 hnext)]
    rfl

end Alignment

/-! ## The slack of a request -/

/-- The room of a request is a word: its size, and what its alignment is more than the natural one. -/
theorem Request.room?_eq_some {r : Request} {required : Nat} (hroom : r.room? = some required) :
    required < Word.count ∧ required = r.size + (r.alignment - Alignment.maxNatural) := by
  unfold room? Word.add? at hroom
  split at hroom
  · rename_i hlt
    cases hroom
    exact ⟨hlt, rfl⟩
  · nomatch hroom

namespace Alignment

/-! ## All of it together -/

/-- **Masks round as numbers do.**  In either build, for every word and every power of two that is a
    word as the alignment, no check fires, and:
    1. the padding is the only number below the alignment that leads to a multiple;
    2. rounding up gives the sum with the padding if that is a word, and nothing if it is not; so a
       multiple is never rejected, however large it is;
    3. on a base for every natural alignment the padding is covered by the slack, which is what the
       room of a request has above its size. -/
theorem rounds_exactly {b : Build} {v a : Nat} (hv : v < Word.count) (ha : a.isPowerOfTwo)
    (hlt : a < Word.count) :
    ∃ p, offset b v a = .ok p ∧ (∀ q, q < a ∧ a ∣ v + q ↔ q = p) ∧
      roundUp b v a = .ok (if v + p < Word.count then some (v + p) else none) ∧
      (a ∣ v → roundUp b v a = .ok (some v)) ∧
      (maxNatural ∣ v → p ≤ max a maxNatural - maxNatural) ∧
      ∀ size, Request.room? ⟨size, a⟩ = Word.add? size (max a maxNatural - maxNatural) := by
  have hvalid : isValid a = true := isValid_iff.2 ha
  have hslack : max a maxNatural - maxNatural = a - maxNatural := by omega
  have hround : roundUp b v a
      = .ok (if v + padding v a < Word.count then some (v + padding v a) else none) := by
    rw [roundUp, hvalid, b.require_true, roundUp?_eq hvalid (Nat.le_of_lt hlt)]
    rfl
  refine ⟨padding v a, ?_, ?_, hround, ?_, ?_, ?_⟩
  · rw [offset, hvalid, b.require_true]
    rfl
  · intro q
    constructor
    · rintro ⟨hbelow, hdvd⟩
      exact eq_padding hvalid hbelow hdvd
    · rintro rfl
      exact ⟨padding_lt hvalid v, dvd_add_padding hvalid v⟩
  · intro hdvd
    rw [hround, padding_of_dvd hvalid hdvd, Nat.add_zero, if_pos hv]
  · intro hdvd
    rw [hslack]
    exact padding_le hdvd hvalid
  · intro size
    rw [hslack]
    rfl

/-- At the largest alignment, the base right above it needs as much padding as the slack allows for,
    and has no next multiple. -/
theorem rounds_exactly_largest :
    Nat.pow 2 63 + 16 < Word.count ∧ (Nat.pow 2 63).isPowerOfTwo ∧ Nat.pow 2 63 < Word.count ∧
      offset .debug (Nat.pow 2 63 + 16) (Nat.pow 2 63) = .ok (Nat.pow 2 63 - 16) ∧
      roundUp .debug (Nat.pow 2 63 + 16) (Nat.pow 2 63) = .ok none := by
  have hword : Nat.pow 2 63 + 16 < Word.count := by decide
  have hpower : (Nat.pow 2 63).isPowerOfTwo := ⟨63, rfl⟩
  have hlt : Nat.pow 2 63 < Word.count := by decide
  obtain ⟨p, hoffset, hunique, hround, -⟩ := rounds_exactly (b := .debug) hword hpower hlt
  obtain rfl : Nat.pow 2 63 - 16 = p := (hunique _).1 ⟨by decide, by decide⟩
  exact ⟨hword, hpower, hlt, hoffset, hround⟩

end Alignment

end StackArena
