/-
  A budget: the simplest provider there is.

  It owns one buffer and hands it out from the front, ignoring alignment, until the buffer is used
  up.  It states its own limits, which need not have to do with what it does.

  A budget that looks the first byte up in its buffer has two faults of its own, for requests that
  one which only compares sizes declines or serves:

    looksUp     used + size is no word    overflow
                no bytes are left         index outside, also if none are wanted
-/
import StackArena.Provider.Basic

namespace StackArena

/-- How a budget tells whether a request fits. -/
inductive FitTest where
  /-- The size is compared with the bytes that are left. -/
  | compares
  /-- The end is added up and compared with the capacity, and the first byte is looked up. -/
  | looksUp
deriving DecidableEq, Repr

/-- `Budget`: a buffer that is used up from the front. -/
structure Budget where
  /-- The number of the region that holds the buffer. -/
  region : Nat
  base : Nat
  capacity : Nat
  used : Nat
  limits : Limits
  test : FitTest
deriving DecidableEq, Repr

namespace Budget

/-- A buffer is made. -/
def make (p : Platform) (capacity : Nat) (limits : Limits) (test : FitTest) :
    HostAction Budget := do
  let (region, base) ← Host.makeRegion p ⟨capacity, Alignment.maxNatural⟩
  return { region, base, capacity, used := 0, limits, test }

/-- The end of a request in the buffer; `none` if it does not fit. -/
def limitFor (build : Build) (b : Budget) (r : Request) : Except Fault (Option Nat) :=
  match b.test with
  | .compares => return if r.size ≤ b.capacity - b.used then some (b.used + r.size) else none
  | .looksUp => do
    let limit ← build.add b.used r.size
    if b.capacity < limit then return none
    if b.capacity ≤ b.used then throw (.indexOutside b.capacity b.used)
    return some limit

/-- A request is served if the bytes are left. -/
def tryAllocate (build : Build) (r : Request) : Action Budget (Except AllocError Nat) := do
  let b ← Action.self
  match ← b.limitFor build r with
  | none => return .error (.exhausted r.size (b.capacity - b.used))
  | some limit =>
    Action.setSelf { b with used := limit }
    return .ok (b.base + b.used)

/-- Whether an address points into the buffer. -/
def owns (b : Budget) (address : Nat) : Bool := b.base ≤ address && address < b.base + b.capacity

/-- A budget as a provider. -/
def provider (p : Platform) : Provider Budget where
  build := p.build
  allocate r := do
    match ← tryAllocate p.build r with
    | .ok address => return address
    | .error cause => throw (.declined cause)
  tryAllocate r := tryAllocate p.build r
  deallocate _ _ := pure ()
  tryDeallocate address _ := do
    let b ← Action.self
    return b.owns address
  limits := Budget.limits

/-- The buffer is freed. -/
def discard : Action Budget Unit := do
  let b ← Action.self
  Host.freeRegion b.region

/-- **Debug text** of a budget. -/
def debug (b : Budget) : String := s!"Budget({b.used}/{b.capacity})"

end Budget

end StackArena
