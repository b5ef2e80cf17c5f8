/-
  A world of stacks, and runs in it.

  What clients can do with stacks is a call: make one, operate on one, discard one, or install a
  leak handler.  A run is a list of calls, carried out one after the other on a world: the host,
  the stacks by slots, and every marker that was ever captured.  An operation that ends with a
  fault leaves what it has done, and the run goes on, as it does after a fault is caught.

  A tenancy is a stack with what clients have of it: the guards that are open on it and the
  allocations that are live.  An allocation is live from the moment it is served until an unwind
  takes its block off the stack or moves the cursor of the block below its end; it never comes
  back after that.

    slots     0: tenancy    1: empty      2: tenancy ...
    tenancy   stack, guards (innermost first), live grants (latest first)

  Scopes are calls here: `enter` opens a guard, `leave` ends it on whatever way, and everything
  between the two is the body.
-/
import StackArena.Proofs.Lifetime
import StackArena.Provider.Stack
import StackArena.Guard

namespace StackArena

/-! ## Requests in every form -/

/-- The forms of a request to a stack, alone and as a provider; the request of an array is for one
    element. -/
inductive Form where
  | plain
  | fallible
  | offered
  | array (count : Nat)
  | offeredArray (count : Nat)
deriving DecidableEq, Repr

namespace Form

/-- What is asked of the stack in the end; `none` if the bytes of an array are no word. -/
def request? (r : Request) : Form → Option Request
  | array count | offeredArray count =>
    (Word.mul? count r.size).map fun total => ⟨total, r.alignment⟩
  | _ => some r

/-- A request in a form; the result is the address that is served. -/
def ask (p : Platform) (r : Request) : Form → Action Stack (Option Nat)
  | plain => some <$> Stack.allocate p r
  | fallible => Stack.tryAllocate p r
  | offered => Except.toOption <$> (Stack.provider p).tryAllocate r
  | array count => some <$> (Stack.provider p).allocateArray count r
  | offeredArray count => Except.toOption <$> (Stack.provider p).tryAllocateArray count r

end Form

/-! ## Grants and tenancies -/

/-- `Grant`: an allocation that was served. -/
structure Grant where
  /-- How many were served before it. -/
  number : Nat
  /-- The region of the block that served it. -/
  region : Nat
  address : Nat
  request : Request
deriving DecidableEq, Repr

/-- The first address after a grant. -/
def Grant.limit (g : Grant) : Nat := g.address + g.request.size

/-- Whether the block of a grant is active with its cursor not below the end of the grant. -/
def Stack.holds (s : Stack) (g : Grant) : Bool :=
  s.active.any fun blk => blk.region == g.region && g.limit ≤ blk.base + blk.cursor

/-- `Tenancy`: a stack, and what clients have of it. -/
structure Tenancy where
  stack : Stack
  /-- The open guards, innermost first. -/
  guards : List Guard
  /-- The live allocations, latest first. -/
  live : List Grant
  /-- How many allocations were served. -/
  served : Nat

/-- `Op`: one operation on a stack.  Markers go by the order in which they were captured. -/
inductive Op where
  | allocate (form : Form) (r : Request)
  | top
  | unwind (marker : Nat)
  | unwindAll
  | shrink
  | reportLeaks
  /-- Open a guard. -/
  | enter
  /-- Let the innermost guard go. -/
  | disarm
  /-- Unwind by the innermost guard, which stays. -/
  | retreat
  /-- End the scope of the innermost guard. -/
  | leave
deriving DecidableEq, Repr

namespace Tenancy

/-- The tenancy of a new stack. -/
def new (s : Stack) : Tenancy := ⟨s, [], [], 0⟩

/-- A request is made; an address that is served becomes a live grant of the current block. -/
def request (p : Platform) (form : Form) (r : Request) (t : Tenancy) (h : Host) : Tenancy × Host :=
  match Action.after (form.ask p r) (t.stack, h) with
  | (.ok (some address), s, h) =>
    let grant := ⟨t.served, s.current.region, address, (form.request? r).getD r⟩
    ({ t with stack := s, live := grant :: t.live, served := t.served + 1 }, h)
  | (_, s, h) => ({ t with stack := s }, h)

/-- An unwind is made; the grants that the stack does not hold any more are dead. -/
def release (a : Action Stack Unit) (t : Tenancy) (h : Host) : Tenancy × Host :=
  let (_, s, h) := Action.after a (t.stack, h)
  ({ t with stack := s, live := t.live.filter s.holds }, h)

/-- An operation that serves nothing and takes nothing back. -/
def keep {α : Type} (a : Action Stack α) (t : Tenancy) (h : Host) : Tenancy × Host :=
  let (_, s, h) := Action.after a (t.stack, h)
  ({ t with stack := s }, h)

/-- One operation; `markers` are the ones captured so far. -/
def act (p : Platform) (markers : List Marker) (t : Tenancy) (h : Host) : Op → Tenancy × Host
  | .allocate form r => t.request p form r h
  | .top => (t, h)
  | .unwind k => match markers[k]? with
    | some m => t.release (Stack.unwind p m) h
    | none => (t, h)
  | .unwindAll => t.release (Stack.unwindAll p) h
  | .shrink => t.keep Stack.shrink h
  | .reportLeaks => t.keep (Stack.reportLeaks p) h
  | .enter => ({ t with guards := Guard.enter t.stack :: t.guards }, h)
  | .disarm => match t.guards with
    | g :: outer => ({ t with guards := g.disarm :: outer }, h)
    | [] => (t, h)
  | .retreat => match t.guards with
    | g :: _ => t.release (g.unwind p) h
    | [] => (t, h)
  | .leave => match t.guards with
    | g :: outer => { t with guards := outer }.release (g.leave p) h
    | [] => (t, h)

/-- The markers that an operation captures. -/
def captures (t : Tenancy) : Op → List Marker
  | .top | .enter => [t.stack.top]
  | _ => []

/-- The marker that an operation is given or has from a guard, if it unwinds to one. -/
def target? (markers : List Marker) (t : Tenancy) : Op → Option Marker
  | .unwind k => markers[k]?
  | .retreat => t.guards.head?.map Guard.marker
  | .leave => (t.guards.head?.filter Guard.armed).map Guard.marker
  | _ => none

end Tenancy

/-! ## Worlds and runs -/

/-- `World`: the host, the stacks by slots, and the markers captured so far, oldest first. -/
structure World where
  host : Host
  slots : List (Option Tenancy)
  markers : List Marker

/-- `Call`: one thing that clients do. -/
inductive Call where
  | make (c : Config)
  | on (slot : Nat) (op : Op)
  /-- Bring a stack to its end; a stack with an open guard is borrowed and stays. -/
  | discard (slot : Nat)
  | install (next : Handler)

namespace World

/-- The world at the start of a program. -/
def initial : World := ⟨.initial, [], []⟩

/-- The tenancy in a slot. -/
def at? (w : World) (slot : Nat) : Option Tenancy := w.slots[slot]?.join

/-- A new stack takes the next slot. -/
def enroll (s : Stack) (h : Host) (w : World) : World where
  host := h
  slots := w.slots ++ [some (.new s)]
  markers := w.markers ++ [s.bottom]

/-- A stack is made of a configuration that is accepted. -/
def make (p : Platform) (c : Config) (w : World) : World :=
  match Stack.ofConfig p c w.host with
  | .ok (.ok s) h => w.enroll s h
  | .ok (.error _) h => { w with host := h }
  | .error _ h => { w with host := h }

/-- An operation on the stack in a slot. -/
def operate (p : Platform) (slot : Nat) (op : Op) (w : World) : World :=
  match w.at? slot with
  | some t =>
    let (t', h) := t.act p w.markers w.host op
    ⟨h, w.slots.set slot (some t'), w.markers ++ t.captures op⟩
  | none => w

/-- The stack in a slot comes to its end. -/
def discard (p : Platform) (slot : Nat) (w : World) : World :=
  match w.at? slot with
  | some t =>
    if t.guards.isEmpty then
      { w with
        host := (Action.after (Stack.discard p) (t.stack, w.host)).2.2
        slots := w.slots.set slot none }
    else w
  | none => w

/-- One call. -/
def step (p : Platform) (w : World) : Call → World
  | .make c => w.make p c
  | .on slot op => w.operate p slot op
  | .discard slot => w.discard p slot
  | .install next => { w with host := w.host.installed next }

/-- A run: calls one after the other. -/
def run (p : Platform) (w : World) (cs : List Call) : World := cs.foldl (step p) w

/-- `Reachable p w`: the world is where a run from the start leads. -/
def Reachable (p : Platform) (w : World) : Prop := ∃ cs, w = run p initial cs

/-- The marker that a call unwinds to, with the stack that it is given to. -/
def target? (w : World) : Call → Option (Stack × Marker)
  | .on slot op => (w.at? slot).bind fun t => (t.target? w.markers op).map (t.stack, ·)
  | _ => none

/-- `Careful p w cs`: no unwind of the run is given a marker that the checks object to. -/
def Careful (p : Platform) (w : World) : List Call → Prop
  | [] => True
  | c :: cs => (∀ s m, w.target? c = some (s, m) → s.objection? m = none) ∧
    Careful p (w.step p c) cs

/-- What is said of the marker of a call can be tested if it can be of any marker. -/
theorem all_target?_iff (P : Stack → Marker → Prop) [∀ s m, Decidable (P s m)] (w : World)
    (c : Call) : (w.target? c).all (fun (s, m) => decide (P s m)) = true ↔
      ∀ s m, w.target? c = some (s, m) → P s m := by
  rw [Option.all_eq_true]
  constructor
  · intro hall s m htarget
    exact of_decide_eq_true (hall (s, m) htarget)
  · rintro hall ⟨s, m⟩ htarget
    exact decide_eq_true (hall s m htarget)

instance decidableCareful (p : Platform) : (w : World) → (cs : List Call) →
    Decidable (Careful p w cs)
  | _, [] => inferInstanceAs (Decidable True)
  | w, c :: cs =>
    have := decidableCareful p (w.step p c) cs
    have := decidable_of_iff _ (w.all_target?_iff (fun s m => s.objection? m = none) c)
    inferInstanceAs (Decidable (_ ∧ _))

end World

end StackArena
