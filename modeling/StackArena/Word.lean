/-
  Words, and what a build does with a result that is not one.

  Sizes, offsets and addresses are natural numbers below `Word.count = 2 ^ 64`.  A **debug** build
  checks every sum, difference and product and stops on one that does not fit; a **release** build
  wraps it around.  The checks of contracts (`Build.require`) are made in debug builds only.

  Powers are written `Nat.pow 2 64`: a definition then means the same with and without a library
  that has a `^` of its own.

  The operations return `Except Fault Nat`, so that a proof that no check fires is a statement
  about values: `add_of_lt`, `sub_of_le` and `mul_of_lt` say when the plain result comes back.
-/
import StackArena.Fault

namespace StackArena

/-- The number of words: a size, an offset or an address lies below it. -/
def Word.count : Nat := Nat.pow 2 64

/-- The largest size of one object; distances inside an object fit in a signed word. -/
def Word.maxSize : Nat := Nat.pow 2 63 - 1

/-- The largest word. -/
def Word.max : Nat := Nat.pow 2 64 - 1

/-- `Build`: whether contracts and word arithmetic are checked. -/
inductive Build where
  | debug
  | release
deriving DecidableEq, Repr

namespace Build

/-! ## Checked word arithmetic -/

/-- Sum of two words. -/
def add (b : Build) (x y : Nat) : Except Fault Nat :=
  if x + y < Word.count then .ok (x + y)
  else match b with
    | debug => .error (.overflow .add)
    | release => .ok ((x + y) % Word.count)

/-- Difference of two words. -/
def sub (b : Build) (x y : Nat) : Except Fault Nat :=
  if y ≤ x then .ok (x - y)
  else match b with
    | debug => .error (.overflow .subtract)
    | release => .ok ((x + Word.count - y) % Word.count)

/-- Product of two words. -/
def mul (b : Build) (x y : Nat) : Except Fault Nat :=
  if x * y < Word.count then .ok (x * y)
  else match b with
    | debug => .error (.overflow .multiply)
    | release => .ok (x * y % Word.count)

/-- A check of a contract, made in debug builds only. -/
def require (b : Build) (holds : Bool) (fault : Fault) : Except Fault Unit :=
  match b with
  | debug => if holds then .ok () else .error fault
  | release => .ok ()

@[simp] theorem add_of_lt (b : Build) {x y : Nat} (h : x + y < Word.count) :
    b.add x y = .ok (x + y) := by
  simp [add, h]

@[simp] theorem sub_of_le (b : Build) {x y : Nat} (h : y ≤ x) : b.sub x y = .ok (x - y) := by
  simp [sub, h]

@[simp] theorem mul_of_lt (b : Build) {x y : Nat} (h : x * y < Word.count) :
    b.mul x y = .ok (x * y) := by
  simp [mul, h]

@[simp] theorem require_true (b : Build) (fault : Fault) : b.require true fault = .ok () := by
  cases b <;> rfl

@[simp] theorem require_release (holds : Bool) (fault : Fault) :
    release.require holds fault = .ok () := rfl

end Build

/-! ## The same in either build -/

/-- Sum of two words, if it is a word. -/
def Word.add? (x y : Nat) : Option Nat := if x + y < Word.count then some (x + y) else none

/-- Product of two words, if it is a word. -/
def Word.mul? (x y : Nat) : Option Nat := if x * y < Word.count then some (x * y) else none

/-- Remainder of a word by another; by 0 there is none. -/
def Word.rem (x y : Nat) : Except Fault Nat :=
  if y = 0 then .error .zeroDivisor else .ok (x % y)

/-- Difference of two words, wrapped around if it is below 0. -/
def Word.wrapSub (x y : Nat) : Nat := if y ≤ x then x - y else x + Word.count - y

@[simp] theorem Word.wrapSub_of_le {x y : Nat} (h : y ≤ x) : Word.wrapSub x y = x - y := if_pos h

/-- A word with all bits flipped. -/
def Word.complement (x : Nat) : Nat := Word.max - x

end StackArena
