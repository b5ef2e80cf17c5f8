/-
  The bytes of a region, as runs.

  A region is mostly long stretches of one byte, such as fill patterns.  `Bytes` keeps a list of
  runs `(byte, count)`; `toList` is the plain view, and every operation is described through it:
  cutting is `take` and `drop`, overwriting replaces a middle part, and `maximal` is the one list of
  runs in which no run is empty and no two neighbours have the same byte.
-/

namespace StackArena

/-- `Bytes`: a sequence of bytes by its runs. -/
structure Bytes where
  runs : List (UInt8 × Nat)
deriving DecidableEq, Repr

namespace Bytes

/-- The bytes one by one. -/
def toList (s : Bytes) : List UInt8 := s.runs.flatMap fun run => List.replicate run.2 run.1

/-- How many bytes there are. -/
def length (s : Bytes) : Nat := s.runs.foldr (fun run rest => run.2 + rest) 0

/-- The runs of the first `n` bytes. -/
def takeRuns : Nat → List (UInt8 × Nat) → List (UInt8 × Nat)
  | _, [] => []
  | n, (byte, count) :: rest =>
    if n ≤ count then [(byte, n)] else (byte, count) :: takeRuns (n - count) rest

/-- The runs of all but the first `n` bytes. -/
def dropRuns : Nat → List (UInt8 × Nat) → List (UInt8 × Nat)
  | _, [] => []
  | n, (byte, count) :: rest =>
    if n < count then (byte, count - n) :: rest else dropRuns (n - count) rest

/-- Exactly `n` bytes: the first ones, and zeros where there are no more. -/
def resize (s : Bytes) (n : Nat) : Bytes := ⟨takeRuns n s.runs ++ [(0, n - s.length)]⟩

/-- `length` bytes from `offset` on are overwritten with `byte`. -/
def fill (s : Bytes) (offset length : Nat) (byte : UInt8) : Bytes :=
  ⟨takeRuns offset s.runs ++ (byte, length) :: dropRuns (offset + length) s.runs⟩

/-- The sum of `length` bytes from `offset` on. -/
def sum (s : Bytes) (offset length : Nat) : Nat :=
  (takeRuns length (dropRuns offset s.runs)).foldl (fun total run => total + run.1.toNat * run.2) 0

/-- Neighbouring runs of one byte are joined and empty runs are left out. -/
def joinRuns : List (UInt8 × Nat) → List (UInt8 × Nat)
  | [] => []
  | (byte, count) :: rest =>
    if count = 0 then joinRuns rest
    else match joinRuns rest with
      | [] => [(byte, count)]
      | (next, more) :: tail =>
        if byte = next then (byte, count + more) :: tail else (byte, count) :: (next, more) :: tail

/-- The maximal runs. -/
def maximal (s : Bytes) : List (UInt8 × Nat) := joinRuns s.runs

/-! ## Through the plain view -/

@[simp] theorem length_toList (s : Bytes) : s.toList.length = s.length := by
  obtain ⟨runs⟩ := s
  induction runs with
  | nil => rfl
  | cons run rest ih =>
    simp only [toList, length] at ih ⊢
    rw [List.flatMap_cons, List.length_append, List.length_replicate, ih, List.foldr_cons]

theorem toList_takeRuns (n : Nat) (runs : List (UInt8 × Nat)) :
    toList ⟨takeRuns n runs⟩ = (toList ⟨runs⟩).take n := by
  induction runs generalizing n with
  | nil => simp [takeRuns, toList]
  | cons run rest ih =>
    obtain ⟨byte, count⟩ := run
    have ih' := ih (n - count)
    simp only [toList] at ih' ⊢
    unfold takeRuns
    split
    · simp [List.take_append, List.take_replicate, show n - count = 0 from by omega]; omega
    · simp [List.take_append, List.take_replicate, ih']; omega

theorem toList_dropRuns (n : Nat) (runs : List (UInt8 × Nat)) :
    toList ⟨dropRuns n runs⟩ = (toList ⟨runs⟩).drop n := by
  induction runs generalizing n with
  | nil => simp [dropRuns, toList]
  | cons run rest ih =>
    obtain ⟨byte, count⟩ := run
    have ih' := ih (n - count)
    simp only [toList] at ih' ⊢
    unfold dropRuns
    split
    · simp [List.drop_append, show n - count = 0 from by omega]
    · simp [List.drop_append, ih', show count - n = 0 from by omega]

theorem toList_resize (s : Bytes) (n : Nat) :
    (s.resize n).toList = s.toList.take n ++ List.replicate (n - s.length) 0 := by
  have htake := toList_takeRuns n s.runs
  simp only [toList] at htake ⊢
  simp [resize, htake]

theorem length_resize (s : Bytes) (n : Nat) : (s.resize n).toList.length = n := by
  rw [toList_resize, List.length_append, List.length_take, List.length_replicate, length_toList]
  omega

/-- Overwriting replaces the middle part and nothing else. -/
theorem toList_fill (s : Bytes) (offset length : Nat) (byte : UInt8) :
    (s.fill offset length byte).toList
      = s.toList.take offset ++ List.replicate length byte ++ s.toList.drop (offset + length) := by
  have htake := toList_takeRuns offset s.runs
  have hdrop := toList_dropRuns (offset + length) s.runs
  simp only [toList] at htake hdrop ⊢
  simp [fill, htake, hdrop]

theorem toList_joinRuns (runs : List (UInt8 × Nat)) :
    toList ⟨joinRuns runs⟩ = toList ⟨runs⟩ := by
  induction runs with
  | nil => rfl
  | cons run rest ih =>
    obtain ⟨byte, count⟩ := run
    simp only [toList] at ih ⊢
    unfold joinRuns
    split
    · simp_all
    · rw [List.flatMap_cons, ← ih]
      split
      · next h => simp [h]
      · next next more tail h =>
        split
        · next he => simp [h, he, ← List.replicate_append_replicate]
        · simp [h]

end Bytes

example : (((Bytes.mk [(1, 4)]).resize 8).fill 2 3 7).maximal = [(1, 2), (7, 3), (0, 3)] := by decide

end StackArena
