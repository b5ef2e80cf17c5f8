/-
  Bodies of guards: what a client does between the opening of a guard and its end.

  1. **Leading** — where an action leads, with a value or with a fault (`Action.Leads`).
  2. **Bodies** — requests, positions, unwinds, scopes inside the scope, and a panic at any point.
     What is done next may depend on what came of the last thing, a fault that was caught included.
  3. **Running** — `Body.run` carries a body out.  A scope inside a scope is `Guard.scope` again.
     What the body has done is kept in a `Trace`: its markers, its grants, the scopes that were
     opened, at every depth, and whether it has let its own guard go.
  4. **The guard** — only `disarm` is done to it (`run_grip`), so at the end of a body its guard is
     armed exactly if the body has not let it go.
-/
import StackArena.Proofs.World
import StackArena.Proofs.Outcome

namespace StackArena

namespace Action

variable {σ α β : Type}

/-! ## Where an action leads -/

/-- `Leads I Q a st`: from `st` the action leads to a state with `I`; and if it ends with a fault,
    `Q` holds of the fault and the state. -/
structure Leads (I : σ × Host → Prop) (Q : Fault → σ × Host → Prop) (a : Action σ α)
    (st : σ × Host) : Prop where
  state : I (after a st).2
  fault : ∀ f, (after a st).1 = .error f → Q f (after a st).2

variable {I : σ × Host → Prop} {Q : Fault → σ × Host → Prop} {a : Action σ α} {st : σ × Host}

theorem Leads.pure (hst : I st) (x : α) : Leads I Q (pure x : Action σ α) st := ⟨hst, nofun⟩

/-- Two actions that run alike lead to the same. -/
theorem Leads.of_eq {a' : Action σ α} {st' : σ × Host} (h : Leads I Q a st)
    (heq : a' st' = a st) : Leads I Q a' st' := by
  have hafter : after a' st' = after a st := by rw [after, after, heq]
  exact ⟨hafter ▸ h.state, hafter ▸ h.fault⟩

theorem Leads.bind {f : α → Action σ β} (ha : Leads I Q a st)
    (hf : ∀ x st', after a st = (.ok x, st') → I st' → Leads I Q (f x) st') :
    Leads I Q (a >>= f) st := by
  have hbind := after_bind a f st
  have hstate := ha.state
  have hfault := ha.fault
  generalize hdone : after a st = done at hbind hstate hfault
  obtain ⟨out, st'⟩ := done
  cases out with
  | ok x =>
    have hrest := hf x st' hdone hstate
    constructor
    · rw [hbind]
      exact hrest.state
    · rw [hbind]
      exact hrest.fault
  | error e =>
    constructor
    · rw [hbind]
      exact hstate
    · rw [hbind]
      rintro f hf
      cases hf
      exact hfault e rfl

/-- What an action that is caught ends with: a fatal fault is not caught. -/
theorem after_attempt (a : Action σ α) (st : σ × Host) :
    after (attempt a) st = match after a st with
      | (.ok x, st) => (.ok (.ok x), st)
      | (.error f, st) => if f.isFatal then (.error f, st) else (.ok (.error f), st) := by
  unfold after attempt
  cases a st with
  | ok x st' => rfl
  | error f st' =>
    dsimp only
    cases f.isFatal <;> rfl

/-- What is caught leads where it would have led. -/
theorem Leads.attempt (ha : Leads I Q a st) : Leads I Q (attempt a) st := by
  have hattempt := after_attempt a st
  have hstate := ha.state
  have hfault := ha.fault
  generalize after a st = done at hattempt hstate hfault
  obtain ⟨out, st'⟩ := done
  cases out with
  | ok x =>
    dsimp only at hattempt
    exact ⟨by rw [hattempt]; exact hstate, by rw [hattempt]; nofun⟩
  | error e =>
    dsimp only at hattempt
    by_cases hfatal : e.isFatal = true
    · rw [if_pos hfatal] at hattempt
      refine ⟨by rw [hattempt]; exact hstate, ?_⟩
      rw [hattempt]
      rintro f hf
      cases hf
      exact hfault e rfl
    · rw [if_neg hfatal] at hattempt
      exact ⟨by rw [hattempt]; exact hstate, by rw [hattempt]; nofun⟩

end Action

/-! ## Bodies -/

/-- `Body`: what is done under a guard.  Markers go by the order in which they were captured. -/
inductive Body where
  /-- Leave the scope. -/
  | done
  /-- Leave the scope with a panic. -/
  | raise (f : Fault) (hpanic : f.isFatal = false)
  /-- Make a request. -/
  | ask (form : Form) (r : Request) (rest : Except Fault (Option Nat) → Body)
  /-- Capture the position of the stack. -/
  | top (rest : Marker → Body)
  /-- Take the marker of the guard. -/
  | mark (rest : Marker → Body)
  | shrink (rest : Body)
  /-- Unwind to a marker captured in this body, or in a scope of it that has ended. -/
  | unwind (k : Nat) (rest : Except Fault Unit → Body)
  /-- Unwind to a marker captured in the bodies around this one. -/
  | unwindOuter (k : Nat) (rest : Except Fault Unit → Body)
  /-- Unwind by the guard, which stays. -/
  | retreat (rest : Except Fault Unit → Body)
  /-- Let the guard go. -/
  | disarm (rest : Body)
  /-- Run a scope inside, and catch the panic that leaves it. -/
  | scope (inner : Body) (rest : Except Fault Unit → Body)

/-- `Visit`: the opening of a scope. -/
structure Visit where
  body : Body
  /-- The markers captured before, in the bodies around it. -/
  outer : List Marker
  stack : Stack
  host : Host

/-- `Trace`: what a body has done so far. -/
structure Trace where
  /-- The markers captured inside it, oldest first. -/
  markers : List Marker
  /-- The allocations served inside it, latest first. -/
  grants : List Grant
  /-- The scopes opened inside it, at every depth. -/
  visits : List Visit
  /-- Whether it has let its own guard go. -/
  letGo : Bool

namespace Trace

/-- The trace of a body that has not begun. -/
def blank : Trace := ⟨[], [], [], false⟩

/-- The trace of a body, and after it that of a scope inside.  What the scope has done to its own
    guard is no matter of the body's. -/
def append (tr inner : Trace) : Trace :=
  ⟨tr.markers ++ inner.markers, inner.grants ++ tr.grants, inner.visits ++ tr.visits, tr.letGo⟩

end Trace

namespace Body

/-- A panic that was caught goes on; after any other fault there is nothing to go on with. -/
def reraise (f : Fault) : Body := if hpanic : f.isFatal = false then .raise f hpanic else .done

/-- `From n b`: the body and the scopes inside it unwind to none of the first `n` markers that were
    captured in the bodies around. -/
def From (n : Nat) : Body → Prop
  | .done => True
  | .raise _ _ => True
  | .ask _ _ rest => ∀ out, (rest out).From n
  | .top rest => ∀ m, (rest m).From n
  | .mark rest => ∀ m, (rest m).From n
  | .shrink rest => rest.From n
  | .unwind _ rest => ∀ out, (rest out).From n
  | .unwindOuter k rest => n ≤ k ∧ ∀ out, (rest out).From n
  | .retreat rest => ∀ out, (rest out).From n
  | .disarm rest => rest.From n
  | .scope inner rest => inner.From n ∧ ∀ out, (rest out).From n

/-! ## How a body is carried out -/

/-- An action on the stack, which is reached through the guard. -/
def onStack {α : Type} (a : Action Stack α) : Action (Guard × Stack × Trace) α :=
  Action.onSecond (Action.onFirst a)

/-- An address that was served becomes a grant of the current block. -/
def keepGrant (r : Request) (address : Nat) : Action (Guard × Stack × Trace) Unit := do
  let (g, s, tr) ← Action.self
  let grant : Grant := ⟨tr.grants.length, s.current.region, address, r⟩
  Action.setSelf (g, s, { tr with grants := grant :: tr.grants })

/-- A request is made. -/
def request (p : Platform) (form : Form) (r : Request) :
    Action (Guard × Stack × Trace) (Option Nat) := do
  match ← onStack (form.ask p r) with
  | some address =>
    keepGrant ((form.request? r).getD r) address
    return some address
  | none => return none

/-- A marker is kept. -/
def capture (m : Marker) : Action (Guard × Stack × Trace) Unit := do
  let (g, s, tr) ← Action.self
  Action.setSelf (g, s, { tr with markers := tr.markers ++ [m] })

/-- An unwind to a marker, if there is one. -/
def unwindTo (p : Platform) : Option Marker → Action (Guard × Stack × Trace) Unit
  | some m => onStack (Stack.unwind p m)
  | none => pure ()

/-- The opening of a scope is kept. -/
def visit (inner : Body) (outer : List Marker) : Action (Guard × Stack × Trace) Unit :=
  fun ((g, s, tr), h) => .ok () ((g, s, { tr with visits := ⟨inner, outer, s, h⟩ :: tr.visits }), h)

/-- A scope inside: it begins with a blank trace, which in the end follows the one around it. -/
def nested (a : Action (Stack × Trace) Unit) : Action (Guard × Stack × Trace) Unit :=
  Action.onSecond (Action.zoom (fun (s, _) => (s, .blank)) (fun (s, inner) (_, tr) =>
    (s, tr.append inner)) a)

/-- A body is carried out; `outer` are the markers captured in the bodies around it. -/
def run (p : Platform) (outer : List Marker) : Body → Action (Guard × Stack × Trace) Unit
  | .done => pure ()
  | .raise f _ => throw f
  | .ask form r rest => do
    let out ← Action.attempt (request p form r)
    run p outer (rest out)
  | .top rest => do
    let (_, s, _) ← Action.self
    capture s.top
    run p outer (rest s.top)
  | .mark rest => do
    let (g, _, _) ← Action.self
    capture g.marker
    run p outer (rest g.marker)
  | .shrink rest => do
    onStack Stack.shrink
    run p outer rest
  | .unwind k rest => do
    let (_, _, tr) ← Action.self
    let out ← Action.attempt (unwindTo p tr.markers[k]?)
    run p outer (rest out)
  | .unwindOuter k rest => do
    let out ← Action.attempt (unwindTo p outer[k]?)
    run p outer (rest out)
  | .retreat rest => do
    let (g, _, _) ← Action.self
    let out ← Action.attempt (onStack (g.unwind p))
    run p outer (rest out)
  | .disarm rest => do
    let (g, s, tr) ← Action.self
    Action.setSelf (g.disarm, s, { tr with letGo := true })
    run p outer rest
  | .scope inner rest => do
    let (_, _, tr) ← Action.self
    visit inner (outer ++ tr.markers)
    let out ← Action.attempt (nested (Guard.scope p (run p (outer ++ tr.markers) inner)))
    run p outer (rest out)

/-! ## What a body does to its guard -/

section

variable {s s' : Stack} {h h' : Host} {tr' : Trace}

/-- What an action on the stack comes to in a body. -/
theorem after_onStack {α : Type} (a : Action Stack α) (g : Guard) (s : Stack) (tr : Trace)
    (h : Host) : Action.after (onStack a) ((g, s, tr), h)
      = ((Action.after a (s, h)).1, (g, (Action.after a (s, h)).2.1, tr),
        (Action.after a (s, h)).2.2) := by
  simp only [onStack, Action.onSecond, Action.onFirst, Action.zoom, Action.after]
  cases a (s, h) <;> rfl

/-- A scope inside has the trace of its own, which then follows the one around it. -/
theorem after_nested (g : Guard) (tr : Trace) {a : Action (Stack × Trace) Unit}
    {out : Except Fault Unit} (ha : Action.after a ((s, .blank), h) = (out, (s', tr'), h')) :
    Action.after (nested a) ((g, s, tr), h) = (out, (g, s', tr.append tr'), h') := by
  rcases Action.of_after ha with ⟨x, rfl, hrun⟩ | ⟨f, rfl, hrun⟩
  · simp only [Action.after, nested, Action.onSecond, Action.zoom, hrun]
  · simp only [Action.after, nested, Action.onSecond, Action.zoom, hrun]

end

/-- `Grip I st`: `I` holds of the two that tell whether the guard of a body unwinds, its flag and
    whether the body has let it go. -/
def Grip (I : Bool → Bool → Prop) (st : (Guard × Stack × Trace) × Host) : Prop :=
  I st.1.1.armed st.1.2.2.letGo

section

variable {p : Platform} {I : Bool → Bool → Prop}

/-- No fault has to be told from another. -/
abbrev Anyhow (_ : Fault) (_ : (Guard × Stack × Trace) × Host) : Prop := True

/-- What is done on the stack is not done to the guard. -/
theorem onStack_grip {α : Type} (a : Action Stack α) {st : (Guard × Stack × Trace) × Host}
    (hst : Grip I st) : Action.Leads (Grip I) Anyhow (onStack a) st := by
  obtain ⟨⟨g, s, tr⟩, h⟩ := st
  refine ⟨?_, fun _ _ => trivial⟩
  rw [after_onStack]
  exact hst

theorem request_grip (form : Form) (r : Request) {st : (Guard × Stack × Trace) × Host}
    (hst : Grip I st) : Action.Leads (Grip I) Anyhow (request p form r) st := by
  refine .bind (onStack_grip _ hst) ?_
  intro served st' _ hst'
  cases served with
  | none => exact .pure hst' none
  | some address => exact ⟨hst', nofun⟩

theorem unwindTo_grip (target : Option Marker) {st : (Guard × Stack × Trace) × Host}
    (hst : Grip I st) : Action.Leads (Grip I) Anyhow (unwindTo p target) st := by
  cases target with
  | none => exact .pure hst ()
  | some m => exact onStack_grip _ hst

/-- A scope inside has a guard of its own. -/
theorem nested_grip (a : Action (Stack × Trace) Unit) {st : (Guard × Stack × Trace) × Host}
    (hst : Grip I st) : Action.Leads (Grip I) Anyhow (nested a) st := by
  obtain ⟨⟨g, s, tr⟩, h⟩ := st
  refine ⟨?_, fun _ _ => trivial⟩
  rw [after_nested g tr rfl]
  exact hst

/-- **Nothing but `disarm` is done to the guard of a body**: what holds of the flag and of whether
    the body has let go, and holds of a guard that was let go, holds to the end of the body. -/
theorem run_grip (hloose : I false true) (b : Body) (outer : List Marker)
    {st : (Guard × Stack × Trace) × Host} (hst : Grip I st) :
    Action.Leads (Grip I) Anyhow (b.run p outer) st := by
  induction b generalizing outer st with
  | done => exact .pure hst ()
  | raise f hpanic => exact ⟨hst, fun _ _ => trivial⟩
  | ask form r rest ih =>
    exact .bind (request_grip form r hst).attempt fun out st' _ hst' => ih out outer hst'
  | top rest ih =>
    obtain ⟨⟨g, s, tr⟩, h⟩ := st
    have hkept : Grip I ((g, s, { tr with markers := tr.markers ++ [s.top] }), h) := hst
    exact (ih s.top outer hkept).of_eq rfl
  | mark rest ih =>
    obtain ⟨⟨g, s, tr⟩, h⟩ := st
    have hkept : Grip I ((g, s, { tr with markers := tr.markers ++ [g.marker] }), h) := hst
    exact (ih g.marker outer hkept).of_eq rfl
  | shrink rest ih => exact .bind (onStack_grip _ hst) fun _ st' _ hst' => ih outer hst'
  | unwind k rest ih =>
    obtain ⟨⟨g, s, tr⟩, h⟩ := st
    exact (Action.Leads.bind (unwindTo_grip _ hst).attempt
      fun out st' _ hst' => ih out outer hst').of_eq rfl
  | unwindOuter k rest ih =>
    exact .bind (unwindTo_grip _ hst).attempt fun out st' _ hst' => ih out outer hst'
  | retreat rest ih =>
    obtain ⟨⟨g, s, tr⟩, h⟩ := st
    exact (Action.Leads.bind (onStack_grip _ hst).attempt
      fun out st' _ hst' => ih out outer hst').of_eq rfl
  | disarm rest ih =>
    obtain ⟨⟨g, s, tr⟩, h⟩ := st
    have hgone : Grip I ((g.disarm, s, { tr with letGo := true }), h) := hloose
    exact (ih outer hgone).of_eq rfl
  | scope inner rest ihInner ihRest =>
    obtain ⟨⟨g, s, tr⟩, h⟩ := st
    let tr' : Trace := { tr with visits := ⟨inner, outer ++ tr.markers, s, h⟩ :: tr.visits }
    have hopened : Grip I ((g, s, tr'), h) := hst
    exact (Action.Leads.bind (nested_grip _ hopened).attempt
      fun out st' _ hst' => ihRest out outer hst').of_eq rfl

/-- **A guard is armed until its body lets it go.** -/
theorem armed_eq {b : Body} {outer : List Marker} {s : Stack} {h : Host}
    {st : (Guard × Stack × Trace) × Host}
    (hend : (Action.after (b.run p outer) ((Guard.enter s, s, .blank), h)).2 = st) :
    st.1.1.armed = !st.1.2.2.letGo := by
  have hstart : Grip (fun armed letGo => armed = !letGo) ((Guard.enter s, s, .blank), h) := rfl
  have hgrip := (run_grip (p := p) rfl b outer hstart).state
  rw [hend] at hgrip
  exact hgrip

/-- **A guard that is let go stays so**, whatever the rest of the body does and however it ends. -/
theorem disarm_run (rest : Body) (outer : List Marker) (st : (Guard × Stack × Trace) × Host) :
    (Action.after ((Body.disarm rest).run p outer) st).2.1.1.armed = false ∧
      (Action.after ((Body.disarm rest).run p outer) st).2.1.2.2.letGo = true := by
  obtain ⟨⟨g, s, tr⟩, h⟩ := st
  have hgone : Grip (fun armed letGo => armed = false ∧ letGo = true)
      ((g.disarm, s, { tr with letGo := true }), h) := ⟨rfl, rfl⟩
  have hleads : Action.Leads (Grip fun armed letGo => armed = false ∧ letGo = true) Anyhow
      ((Body.disarm rest).run p outer) ((g, s, tr), h) :=
    (run_grip ⟨rfl, rfl⟩ rest outer hgone).of_eq rfl
  exact hleads.state

end

end Body

/-- A scope keeps to itself if its body unwinds to none of the markers captured before. -/
def Visit.Own (v : Visit) : Prop := v.body.From v.outer.length

end StackArena
