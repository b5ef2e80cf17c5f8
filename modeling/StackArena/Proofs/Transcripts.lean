/-
  Sessions that overwrite, beside sessions that do not.

  A stack that overwrites bytes answers as one that does not, whatever is asked of it.

    commands   make (fill)     allocate    guarded [ allocate, raise ]   inspect 0
               make (no fill)  allocate    guarded [ allocate, raise ]   inspect 0
    answers    nothing         region 0+0  entered … raised              bytes: the one difference

  1. **What is compared** — two lists of commands are the same but for overwriting if they are the
     same with it taken out of their recipes (`Command.unfilled`).  Of the steps everything counts,
     the notes in the journal included, but the bytes that a client has inspected (`Step.veiled`).
  2. **Operations** — a session is in lockstep with the one whose stacks overwrite nothing
     (`Session.Bare`): one lemma for each operation, with and without a target, and for guards.
  3. **Runs** — by induction on the commands, scopes inside scopes included
     (`Command.runInside_lockstep`), whole runs are (`runAll_lockstep`).
  4. **Views** — so two such lists have one transcript (`run_unfilled`), and lead to one view of the
     session and its host after any number of commands (`after_unfilled`).
-/
import StackArena.Proofs.Unfilled
import StackArena.Session.Run
import StackArena.Session.Setting
import Mathlib.Data.Option.Defs

namespace StackArena

open StackArena.Action Host

/-! ## What is compared -/

namespace Session

/-- Recipes say nothing of overwriting. -/
def OnSession.unfilled : OnSession → OnSession
  | make recipe => make recipe.unfilled
  | g => g

/-- The operation with overwriting taken out. -/
def Operation.unfilled : Operation → Operation
  | onSession g => onSession g.unfilled
  | op => op

mutual

/-- **The command with overwriting taken out**, in every recipe inside it. -/
def Command.unfilled : Command → Command
  | .act target bubbles op => .act target bubbles op.unfilled
  | .guarded target catches body => .guarded target catches (unfilledAll body)

/-- The same of all commands of a list. -/
def unfilledAll : List Command → List Command
  | [] => []
  | c :: rest => c.unfilled :: unfilledAll rest

end

/-- An answer without the bytes of memory in it. -/
def Answer.veiled : Answer → Answer
  | bytes live _ => bytes live []
  | a => a

/-- A step without the bytes of memory in it. -/
def Step.veiled (s : Step) : Step := { s with answer := s.answer.veiled }

/-- `x.Same y`: two answers that are the same but for the bytes of memory. -/
def Answer.Same (x y : Answer) : Prop := x.veiled = y.veiled

end Session

/-- `s.Bare u`: the stacks of the session on the right overwrite nothing, and otherwise the sessions
    are the same, up to the bytes of memory that were shown. -/
structure Session.Bare (s u : Session) : Prop where
  length : s.slots.length = u.slots.length
  slots : ∀ i, Option.Rel Allocator.Bare (s.slot? i) (u.slot? i)
  handles : s.handles = u.handles
  markers : s.markers = u.markers
  saved : s.saved = u.saved
  seen : s.seen = u.seen
  steps : s.steps.map Session.Step.veiled = u.steps.map Session.Step.veiled

namespace Session

variable {p : Platform} {s u : Session} {α β : Type} {T : α → β → Prop}

/-! ## Slots -/

namespace Bare

protected theorem initial : Bare initial initial :=
  ⟨rfl, fun _ => .none, rfl, rfl, rfl, rfl, rfl⟩

/-- A slot is empty on both sides, or holds allocators of one shape. -/
theorem slot_cases (hsu : Bare s u) (i : Nat) :
    (s.slot? i = none ∧ u.slot? i = none) ∨ ∃ (t : Tree) (x y : t.State),
      s.slot? i = some ⟨t, x⟩ ∧ u.slot? i = some ⟨t, y⟩ ∧ t.Bare x y := by
  have hslot := hsu.slots i
  generalize s.slot? i = left at hslot ⊢
  generalize u.slot? i = right at hslot ⊢
  cases hslot with
  | none => exact Or.inl ⟨rfl, rfl⟩
  | some hbare =>
    cases hbare with
    | mk hxy => exact Or.inr ⟨_, _, _, rfl, rfl, hxy⟩

theorem setSlot (hsu : Bare s u) (slot : Nat) {c d : Option Allocator}
    (hcd : Option.Rel Allocator.Bare c d) : Bare (s.setSlot slot c) (u.setSlot slot d) := by
  have hlength : (s.slots.set slot c).length = (u.slots.set slot d).length := by
    rw [List.length_set, List.length_set, hsu.length]
  refine ⟨hlength, fun i => ?_, hsu.handles, hsu.markers, hsu.saved, hsu.seen, hsu.steps⟩
  show Option.Rel Allocator.Bare (s.slots.set slot c)[i]?.join (u.slots.set slot d)[i]?.join
  rw [List.getElem?_set, List.getElem?_set, hsu.length]
  split
  · split
    · exact hcd
    · exact .none
  · exact hsu.slots i

theorem addSlot (hsu : Bare s u) {c d : Option Allocator} (hcd : Option.Rel Allocator.Bare c d) :
    Bare (s.addSlot c) (u.addSlot d) := by
  have hlength : (s.slots ++ [c]).length = (u.slots ++ [d]).length := by
    rw [List.length_append, List.length_append, hsu.length]
    rfl
  refine ⟨hlength, fun i => ?_, hsu.handles, hsu.markers, hsu.saved, hsu.seen, hsu.steps⟩
  show Option.Rel Allocator.Bare (s.slots ++ [c])[i]?.join (u.slots ++ [d])[i]?.join
  rw [List.getElem?_append, List.getElem?_append, hsu.length]
  split
  · exact hsu.slots i
  · cases i - u.slots.length with
    | zero => exact hcd
    | succ n => exact .none

end Bare

/-! ## Names and steps -/

theorem record_lockstep (path : List Nat) {x y : Answer} (hxy : x.Same y) (status : Option Status) :
    Lockstep (Both Bare Veiled) Eq (record path x status) (record path y status) := by
  rintro ⟨s, h⟩ ⟨u, k⟩ ⟨hsu, hhk⟩
  have hjournal : h.journal = k.journal := hhk.journal
  have hseen : s.seen = u.seen := hsu.seen
  have hanswer : x.veiled = y.veiled := hxy
  refine .ok rfl ⟨⟨hsu.length, hsu.slots, hsu.handles, hsu.markers, hsu.saved, ?_, ?_⟩, hhk⟩
  · exact congrArg List.length hjournal
  · show (s.steps ++ [_]).map Step.veiled = (u.steps ++ [_]).map Step.veiled
    rw [List.map_append, List.map_append, hsu.steps]
    simp only [List.map_cons, List.map_nil, Step.veiled, hjournal, hseen, hanswer]

theorem keepMarker_lockstep (name : Option String) (m : Marker) :
    Lockstep (Both Bare Veiled) Eq (keepMarker name m) (keepMarker name m) := by
  cases name with
  | none => exact .pure rfl
  | some name =>
    refine .bind .self fun s u hsu => .setSelf ?_
    exact ⟨hsu.length, hsu.slots, hsu.handles, congrArg ((name, m) :: ·) hsu.markers, hsu.saved,
      hsu.seen, hsu.steps⟩

theorem spotOf_lockstep (address alignment : Nat) :
    Lockstep Veiled Eq (spotOf address alignment) (spotOf address alignment) := by
  refine .bind .get fun h k hhk => ?_
  rw [Memory.locate?_of_outline hhk.outline]
  cases k.memory.locate? address with
  | some found => exact .pure rfl
  | none => exact .pure rfl

theorem keepHandle_lockstep (name : Option String) (address : Nat) (count : Option Nat)
    (r : Request) :
    Lockstep (Both Bare Veiled) Answer.Same (keepHandle name address count r)
      (keepHandle name address count r) := by
  refine .bind_eq (.onHost (spotOf_lockstep address r.alignment)) fun spot => ?_
  cases name with
  | none => exact .pure rfl
  | some name =>
    refine .bind .self fun s u hsu => .bind_eq (.setSelf ?_) fun _ => .pure rfl
    exact ⟨hsu.length, hsu.slots, congrArg ((name, _) :: ·) hsu.handles, hsu.markers, hsu.saved,
      hsu.seen, hsu.steps⟩

/-! ## Targets -/

/-- An action on the target, with its slot empty. -/
theorem withTarget_lockstep (target : Target) {act act' : (t : Tree) → Action (t.State × Session) α}
    {T : α → α → Prop}
    (hact : ∀ t : Tree, Lockstep (Both (Sides t.Bare Bare) Veiled) T (act t) (act' t)) :
    Lockstep (Both Bare Veiled) (Option.Rel T) (withTarget target act) (withTarget target act') := by
  rintro ⟨s, h⟩ ⟨u, k⟩ ⟨hsu, hhk⟩
  unfold withTarget
  dsimp only
  rcases hsu.slot_cases target.slot with ⟨hleft, hright⟩ | ⟨t, x, y, hleft, hright, hxy⟩
  · rw [hleft, hright]
    exact .ok .none ⟨hsu, hhk⟩
  · rw [hleft, hright]
    dsimp only
    cases hpart : t.part? target.path with
    | none => exact .ok .none ⟨hsu, hhk⟩
    | some q =>
      obtain ⟨hget, hput⟩ := Tree.part?_paired (R := Stack.Bare) hpart
      have hends := hact q.shape ((q.get x, s.setSlot target.slot none), h)
        ((q.get y, u.setSlot target.slot none), k)
        ⟨⟨hget x y hxy, hsu.setSlot target.slot .none⟩, hhk⟩
      dsimp only
      generalize act q.shape ((q.get x, s.setSlot target.slot none), h) = first at hends ⊢
      generalize act' q.shape ((q.get y, u.setSlot target.slot none), k) = second at hends ⊢
      -- However the action ends, what it leaves of the target goes back into the slot.
      cases hends with
      | ok hvalue hstate =>
        obtain ⟨⟨hinner, hsu'⟩, hhk'⟩ := hstate
        exact .ok (.some hvalue) ⟨hsu'.setSlot _ (.some (.mk (hput _ _ _ _ hinner hxy))), hhk'⟩
      | error hstate =>
        obtain ⟨⟨hinner, hsu'⟩, hhk'⟩ := hstate
        exact .error ⟨hsu'.setSlot _ (.some (.mk (hput _ _ _ _ hinner hxy))), hhk'⟩

/-- The state of an allocator is shown without what its stacks overwrite. -/
theorem status_of_bare (journal : List Note) {t : Tree} {s u : t.State} (hsu : t.Bare s u) :
    Status.of journal t s = Status.of journal t u := by
  refine hsu.congr (f := Status.of journal) (fun _ => rfl) fun hfirst hsecond => ?_
  rw [Status.of, Status.of, hfirst, hsecond]

theorem statusOf_lockstep (target : Target) :
    Lockstep (Both Bare Veiled) Eq (statusOf target) (statusOf target) := by
  rintro ⟨s, h⟩ ⟨u, k⟩ ⟨hsu, hhk⟩
  refine .ok ?_ ⟨hsu, hhk⟩
  show (s.slot? target.slot).bind _ = (u.slot? target.slot).bind _
  rcases hsu.slot_cases target.slot with ⟨hleft, hright⟩ | ⟨t, x, y, hleft, hright, hxy⟩
  · rw [hleft, hright]
    rfl
  · rw [hleft, hright]
    show (t.part? target.path).bind _ = (t.part? target.path).bind _
    cases hpart : t.part? target.path with
    | none => rfl
    | some q =>
      have hjournal : h.journal = k.journal := hhk.journal
      show some (Status.of h.journal q.shape (q.get x)) = some (Status.of k.journal q.shape (q.get y))
      rw [hjournal, status_of_bare k.journal ((Tree.part?_paired hpart).1 x y hxy)]

theorem statusHere_lockstep (t : Tree) :
    Lockstep (Both (Sides t.Bare Bare) Veiled) Eq (statusHere t) (statusHere t) := by
  rintro ⟨⟨x, s⟩, h⟩ ⟨⟨y, u⟩, k⟩ ⟨⟨hxy, hsu⟩, hhk⟩
  refine .ok ?_ ⟨⟨hxy, hsu⟩, hhk⟩
  have hjournal : h.journal = k.journal := hhk.journal
  show Status.of h.journal t x = Status.of k.journal t y
  rw [hjournal, status_of_bare k.journal hxy]

/-! ## Operations without a target -/

theorem make_lockstep (recipe : Recipe) :
    Lockstep (Both Bare Veiled) Answer.Same (make p recipe) (make p recipe.unfilled) := by
  refine .bind .self fun s u hsu => ?_
  refine .bind_eq (.setSelf (hsu.addSlot .none)) fun _ => ?_
  refine .bind (.onHost (recipe.make_lockstep p)) fun x y hxy => ?_
  cases hxy with
  | error e => exact .pure rfl
  | ok hmade =>
    refine .bind .self fun s' u' hsu' => .bind_eq (.setSelf ?_) fun _ => .pure rfl
    rw [hsu.length]
    exact hsu'.setSlot _ (.some hmade)

theorem discard_lockstep (slot : Nat) :
    Lockstep (Both Bare Veiled) Answer.Same (discard p slot) (discard p slot) := by
  refine .bind .self fun s u hsu => ?_
  rcases hsu.slot_cases slot with ⟨hleft, hright⟩ | ⟨t, x, y, hleft, hright, hxy⟩
  · rw [hleft, hright]
    exact .pure rfl
  · rw [hleft, hright]
    refine .bind_eq (.setSelf (hsu.setSlot slot .none)) fun _ => ?_
    exact .bind_eq (.onHost (.withState t.discard_lockstep hxy)) fun _ => .pure rfl

theorem split_lockstep (slot : Nat) :
    Lockstep (Both Bare Veiled) Answer.Same (split slot) (split slot) := by
  refine .bind .self fun s u hsu => ?_
  rcases hsu.slot_cases slot with ⟨hleft, hright⟩ | ⟨t, x, y, hleft, hright, hxy⟩
  · rw [hleft, hright]
    exact .pure rfl
  · rw [hleft, hright]
    cases t with
    | fallback first second =>
      obtain ⟨hfirst, hsecond⟩ := hxy
      have hsu' := hsu.setSlot slot (.some (.mk hfirst))
      refine .bind_eq (.setSelf (hsu'.addSlot (.some (.mk hsecond)))) fun _ => .pure ?_
      exact congrArg (fun n => (Answer.number n).veiled) hsu'.length
    | _ => exact .pure rfl

theorem compareMarkers_lockstep (a b : String) :
    Lockstep (Both Bare Veiled) Answer.Same (compareMarkers a b) (compareMarkers a b) := by
  refine .bind .self fun s u hsu => ?_
  rw [hsu.markers]
  cases u.markers.lookup a with
  | none => exact .pure rfl
  | some m =>
    cases u.markers.lookup b with
    | none => exact .pure rfl
    | some n => exact .pure rfl

/-- What a region holds is not the same on both sides, but that it is there, and live. -/
theorem inspect_lockstep (number : Nat) :
    Lockstep Veiled Answer.Same (inspect number) (inspect number) := by
  refine .bind .get fun h k hhk => ?_
  have hextent := Memory.extent?_of_outline hhk.outline number
  unfold Memory.extent? at hextent
  generalize h.memory.region? number = left at hextent ⊢
  generalize k.memory.region? number = right at hextent ⊢
  cases left with
  | none =>
    cases right with
    | none => exact .pure rfl
    | some r => cases hextent
  | some r =>
    cases right with
    | none => cases hextent
    | some r' =>
      have hlive : r.live = r'.live := congrArg Extent.live (Option.some.inj hextent)
      exact .pure (congrArg (Answer.bytes · []) hlive)

/-- What a client has written is what it reads back. -/
theorem writeRegion_apply {h : Host} {number offset : Nat} (hm : h.memory.Ample)
    (hin : ∀ x, h.memory.extent? number = some x → offset ≤ x.layout.size) (length : Nat)
    (byte : UInt8) :
    writeRegion number offset length byte h
      = .ok (.number (if (h.memory.extent? number).isSome then length * byte.toNat else 0))
        (h.filled number offset length byte) := by
  rw [← hm.sum_fill hin]
  rfl

/-- So it is the same on both sides. -/
theorem writeRegion_inStep {h k : Host} (hhk : Veiled h k) {number offset : Nat}
    (hin : ∀ x, h.memory.extent? number = some x → offset ≤ x.layout.size) (length : Nat)
    (byte : UInt8) :
    InStep Veiled Answer.Same (writeRegion number offset length byte h)
      (writeRegion number offset length byte k) := by
  have hextent := Memory.extent?_of_outline hhk.outline number
  have hright : ∀ x, k.memory.extent? number = some x → offset ≤ x.layout.size := by
    intro x hx
    rw [← hextent] at hx
    exact hin x hx
  rw [writeRegion_apply hhk.ample.1 hin, writeRegion_apply hhk.ample.2 hright, hextent]
  exact .ok rfl (hhk.filled_both number offset length byte)

theorem write_lockstep (name : String) (byte : UInt8) :
    Lockstep (Both Bare Veiled) Answer.Same (write name byte) (write name byte) := by
  refine .bind .self fun s u hsu => ?_
  rw [hsu.handles]
  cases u.handles.lookup name with
  | none => exact .pure rfl
  | some handle =>
    refine .getHost fun s u h k hsu hhk => ?_
    have hlocate := Memory.locate?_of_outline hhk.outline handle.address
    dsimp only
    cases hleft : h.memory.locate? handle.address with
    | none =>
      rw [← hlocate, hleft, Memory.chunk?_of_outline hhk.outline]
      dsimp only
      split
      · exact .ok rfl ⟨hsu, hhk⟩
      · exact .ok rfl ⟨hsu, hhk⟩
    | some found =>
      obtain ⟨number, offset⟩ := found
      have hin := fun x => Memory.offset_le_of_locate? hleft (x := x)
      rw [← hlocate, hleft]
      dsimp only
      rw [Memory.capacity_of_outline hhk.outline]
      exact (writeRegion_inStep hhk hin _ byte).onHost hsu

theorem deallocateForeign_lockstep (r : Request) :
    Lockstep Veiled Answer.Same (deallocateForeign p r) (deallocateForeign p r) :=
  .bind_eq (Heap.deallocate_lockstep 0 r) fun _ => .pure rfl

theorem setHandler_lockstep (choice : HandlerChoice) :
    Lockstep (Both Bare Veiled) Answer.Same (setHandler choice) (setHandler choice) := by
  refine .bind .self fun s u hsu => ?_
  rw [hsu.saved]
  refine .bind_eq (.onHost (install_lockstep _)) fun previous => ?_
  refine .bind_eq (.setSelf ?_) fun _ => .pure rfl
  exact ⟨hsu.length, hsu.slots, hsu.handles, hsu.markers, rfl, hsu.seen, hsu.steps⟩

theorem callHandler_lockstep (amount : Nat) :
    Lockstep Veiled Answer.Same (callHandler p amount) (callHandler p amount) := by
  refine .bind_eq freshId_lockstep fun id => .bind .get fun h k hhk => ?_
  rw [hhk.handler]
  exact .bind_eq (call_lockstep p p.reportDepth k.handler _ amount) fun _ => .pure rfl

theorem report_lockstep (name : String) (amount : Nat) :
    Lockstep Veiled Answer.Same (report p name amount) (report p name amount) := by
  refine .bind_eq freshId_lockstep fun id => ?_
  exact .bind_eq (reportLeak_lockstep p ⟨name, id⟩ amount) fun _ => .pure rfl

theorem takeIds_lockstep (count : Nat) : Lockstep Veiled Eq (takeIds count) (takeIds count) := by
  induction count with
  | zero => exact .pure rfl
  | succ count ih => exact .bind_eq freshId_lockstep fun id => .bind_eq ih fun ids => .pure rfl

/-- **An operation that needs no target.** -/
theorem onSession_lockstep (g : OnSession) :
    Lockstep (Both Bare Veiled) Answer.Same (onSession p g) (onSession p g.unfilled) := by
  cases g with
  | make recipe => exact make_lockstep recipe
  | discard slot => exact discard_lockstep slot
  | split slot => exact split_lockstep slot
  | compare a b => exact compareMarkers_lockstep a b
  | inspect region => exact .onHost (inspect_lockstep region)
  | write handle byte => exact write_lockstep handle byte
  | setHandler choice => exact setHandler_lockstep choice
  | getHandler =>
    refine .bind (.onHost .get) fun h k hhk => .pure ?_
    exact congrArg (fun handler => (Answer.text (Handler.name handler)).veiled) hhk.handler
  | callHandler amount => exact .onHost (callHandler_lockstep amount)
  | report name amount => exact .onHost (report_lockstep name amount)
  | takeIds count => exact .bind_eq (.onHost (takeIds_lockstep count)) fun ids => .pure rfl
  | deallocateForeign r => exact .onHost (deallocateForeign_lockstep r)
  | raise text => exact .throw _

/-! ## Operations on allocators -/

theorem refuses_of_bare {m m' : Memory} (hm : m.outline = m'.outline) {t : Tree} {s u : t.State}
    (hsu : t.Bare s u) (g : GiveBack) (handle : Handle) (address : Nat) :
    refuses p m t s g handle address = refuses p m' t u g handle address := by
  rw [refuses, refuses, Memory.chunk?_of_outline hm, Tree.taker?_of_bare p.build hsu]

theorem request_lockstep (t : Tree) (mayDecline : Bool) (count : Option Nat) (r : Request) :
    Lockstep (Both t.Bare Veiled) Eq (request p t mayDecline count r)
      (request p t mayDecline count r) := by
  have ht := t.provider_locksteps (p := p)
  cases mayDecline with
  | true =>
    cases count with
    | none => exact ht.tryAllocate r
    | some count => exact ht.tryAllocateArray count r
  | false =>
    cases count with
    | none => exact .bind_eq (ht.allocate r) fun address => .pure rfl
    | some count => exact .bind_eq (ht.allocateArray count r) fun address => .pure rfl

theorem giveBack_lockstep (t : Tree) (asks array : Bool) (g : GiveBack) (handle : Handle)
    (address : Nat) :
    Lockstep (Both t.Bare Veiled) Answer.Same (giveBack p t asks array g handle address)
      (giveBack p t asks array g handle address) := by
  have ht := t.provider_locksteps (p := p)
  cases asks with
  | true =>
    cases array with
    | true => exact .bind_eq (ht.tryDeallocateArray address _ _) fun taken => .pure rfl
    | false => exact .bind_eq (ht.tryDeallocate address _) fun taken => .pure rfl
  | false =>
    cases array with
    | true => exact .bind_eq (ht.deallocateArray address _ _) fun _ => .pure rfl
    | false => exact .bind_eq (ht.deallocate address _) fun _ => .pure rfl

/-- **An operation of every allocator.** -/
theorem onAllocator_lockstep (t : Tree) (o : OnAllocator) :
    Lockstep (Both (Sides t.Bare Bare) Veiled) Answer.Same (onAllocator p t o)
      (onAllocator p t o) := by
  cases o with
  | allocate mayDecline count r name =>
    refine .bind_eq (.onFirst (request_lockstep t mayDecline count r)) fun out => ?_
    cases out with
    | error cause => exact .pure rfl
    | ok address => exact .onSecond (keepHandle_lockstep name address count r)
  | deallocate asks array g =>
    refine .bind .self fun x y hxy => ?_
    obtain ⟨state, s⟩ := x
    obtain ⟨state', u⟩ := y
    obtain ⟨hstate, hsu⟩ := hxy
    have hhandles : s.handles = u.handles := hsu.handles
    dsimp only
    rw [hhandles]
    cases u.handles.lookup g.handle with
    | none => exact .pure rfl
    | some handle =>
      refine .bind (.onHost .get) fun h k hhk => ?_
      rw [refuses_of_bare hhk.outline hstate]
      refine .bind_eq (.check _) fun refused => ?_
      exact .ite (.pure rfl) (.onFirst (giveBack_lockstep t asks array g handle _))
  | limits =>
    refine .bind .self fun x y hxy => .pure ?_
    have hlimits := (t.provider_locksteps (p := p)).limits x.1 y.1 hxy.1
    exact congrArg (fun limits => (Answer.limits limits).veiled) hlimits
  | debug =>
    refine .bind .self fun x y hxy => .pure ?_
    exact congrArg (fun text => (Answer.text text).veiled) (Tree.debug_of_bare hxy.1)
  | look => exact .pure rfl

theorem spotsOf_lockstep (served : List (Nat × Request)) :
    Lockstep Veiled Eq (spotsOf served) (spotsOf served) := by
  induction served with
  | nil => exact .pure rfl
  | cons first rest ih =>
    exact .bind_eq (spotOf_lockstep _ _) fun spot => .bind_eq ih fun spots => .pure rfl

/-- The stack and the session around it, where both are looked at. -/
theorem lookBoth_lockstep {f : Stack × Session → Action (Stack × Session) α}
    {g : Stack × Session → Action (Stack × Session) β}
    (hfg : ∀ stack s u, Bare s u →
      Lockstep (Both (Sides Stack.Bare Bare) Veiled) T (f (stack, s)) (g (stack.unfilled, u))) :
    Lockstep (Both (Sides Stack.Bare Bare) Veiled) T (self >>= f) (self >>= g) := by
  refine .bind .self fun x y hxy => ?_
  obtain ⟨stack, s⟩ := x
  obtain ⟨other, u⟩ := y
  obtain ⟨⟨-, hother⟩, hsu⟩ := hxy
  obtain rfl : other = stack.unfilled := hother
  exact hfg stack s u hsu

/-- **An operation of stacks.** -/
theorem onStack_lockstep (o : OnStack) :
    Lockstep (Both (Sides Stack.Bare Bare) Veiled) Answer.Same (onStack p o) (onStack p o) := by
  cases o with
  | allocate r name =>
    refine .bind_eq (.onFirst Stack.allocate_lockstep) fun address => ?_
    exact .onSecond (keepHandle_lockstep name address none r)
  | tryAllocate r name =>
    refine .bind_eq (.onFirst Stack.tryAllocate_lockstep) fun found => ?_
    cases found with
    | none => exact .pure rfl
    | some address => exact .onSecond (keepHandle_lockstep name address none r)
  | allocateAll requests =>
    refine .bind_eq (.onFirst (Stack.allocateAll_lockstep requests)) fun addresses => ?_
    exact .bind_eq (.onHost (spotsOf_lockstep _)) fun spots => .pure rfl
  | top name =>
    refine lookBoth_lockstep fun stack s u _ => ?_
    exact .bind_eq (.onSecond (keepMarker_lockstep name stack.top)) fun _ => .pure rfl
  | unwind marker =>
    refine lookBoth_lockstep fun stack s u hsu => ?_
    dsimp only
    rw [hsu.markers]
    cases u.markers.lookup marker with
    | none => exact .pure rfl
    | some m => exact .bind_eq (.onFirst (Stack.unwind_lockstep m)) fun _ => .pure rfl
  | unwindAll => exact .bind_eq (.onFirst Stack.unwindAll_lockstep) fun _ => .pure rfl
  | shrink => exact .bind_eq (.onFirst Stack.shrink_lockstep) fun _ => .pure rfl
  | reportLeaks => exact .bind_eq (.onFirst Stack.reportLeaks_lockstep) fun amount => .pure rfl
  | growth => exact lookBoth_lockstep fun stack s u _ => .pure rfl
  | info => exact lookBoth_lockstep fun stack s u _ => .pure rfl
  | owns name shift =>
    refine lookBoth_lockstep fun stack s u hsu => ?_
    dsimp only
    rw [hsu.handles]
    cases u.handles.lookup name with
    | none => exact .pure rfl
    | some handle => exact .bind_eq (.check (stack.owns p.build _)) fun own => .pure rfl

/-! ## Guards -/

/-- **An operation of guards.** -/
theorem onGuard_lockstep (o : OnGuard) :
    Lockstep (Both (Sides Eq (Sides Stack.Bare Bare)) Veiled) Answer.Same (onGuard p o)
      (onGuard p o) := by
  cases o with
  | disarm =>
    refine .bind .self fun x y hxy => ?_
    obtain ⟨g, rest⟩ := x
    obtain ⟨g', rest'⟩ := y
    obtain ⟨hguard, hrest⟩ := hxy
    obtain rfl : g = g' := hguard
    exact .bind_eq (.setSelf ⟨rfl, hrest⟩) fun _ => .pure rfl
  | unwind =>
    refine .bind .self fun x y hxy => ?_
    obtain ⟨g, rest⟩ := x
    obtain ⟨g', rest'⟩ := y
    obtain rfl : g = g' := hxy.1
    refine .bind_eq (.onSecond (.onFirst (Stack.unwind_lockstep g.marker))) fun _ => .pure rfl
  | willUnwind =>
    refine .bind .self fun x y hxy => .pure ?_
    exact congrArg (fun g => (Answer.flag (Guard.armed g)).veiled) hxy.1
  | marker =>
    refine .bind .self fun x y hxy => .pure ?_
    exact congrArg (fun g => (Answer.text (Guard.marker g).debug).veiled) hxy.1

/-- **A scope**: a guard remembers the same place on both sides, and unwinds to it on every way
    out. -/
theorem scope_lockstep {ρ : Type} {R : ρ → ρ → Prop} {T : α → α → Prop}
    {body body' : Action (Guard × Stack × ρ) α}
    (hbody : Lockstep (Both (Sides Eq (Sides Stack.Bare R)) Veiled) T body body') :
    Lockstep (Both (Sides Stack.Bare R) Veiled) T (Guard.scope p body) (Guard.scope p body') := by
  rintro ⟨⟨s, r⟩, h⟩ ⟨⟨u, r'⟩, k⟩ ⟨⟨hsu, hr⟩, hhk⟩
  have henter : Guard.enter s = Guard.enter u := by
    obtain ⟨-, rfl⟩ := hsu
    rfl
  unfold Guard.scope
  dsimp only
  generalize hfirst : Action.ensuring body _ ((Guard.enter s, s, r), h) = first
  generalize hsecond : Action.ensuring body' _ ((Guard.enter u, u, r'), k) = second
  have hends : InStep (Both (Sides Eq (Sides Stack.Bare R)) Veiled) T first second := by
    rw [← hfirst, ← hsecond]
    refine Lockstep.ensuring hbody (.bind .self fun x y hxy => ?_) _ _ ⟨⟨henter, hsu, hr⟩, hhk⟩
    obtain ⟨g, rest⟩ := x
    obtain ⟨g', rest'⟩ := y
    obtain rfl : g = g' := hxy.1
    exact .onSecond (.onFirst (.ite (Stack.unwind_lockstep g.marker) (.pure rfl)))
  cases hends with
  | ok hvalue hstate => exact .ok hvalue ⟨hstate.1.2, hstate.2⟩
  | error hstate => exact .error ⟨hstate.1.2, hstate.2⟩

/-! ## By the kind of target -/

/-- **An operation on an allocator** outside of every scope. -/
theorem outside_lockstep (t : Tree) (op : Operation) :
    Lockstep (Both (Sides t.Bare Bare) Veiled) Answer.Same (outside p t op)
      (outside p t op.unfilled) := by
  cases op with
  | onSession g => exact .onSecond (onSession_lockstep g)
  | onAllocator o => exact onAllocator_lockstep t o
  | onStack o =>
    cases t with
    | stack => exact onStack_lockstep o
    | _ => exact .pure rfl
  | onGuard o => exact .pure rfl

/-- **An operation inside a scope.** -/
theorem inside_lockstep (op : Operation) :
    Lockstep (Both (Sides Eq (Sides Stack.Bare Bare)) Veiled) Answer.Same (inside p op)
      (inside p op.unfilled) := by
  cases op with
  | onSession g => exact .onSecond (.onSecond (onSession_lockstep g))
  | onAllocator o => exact .onSecond (onAllocator_lockstep .stack o)
  | onStack o => exact .onSecond (onStack_lockstep o)
  | onGuard o => exact onGuard_lockstep o

/-! ## Runs -/

/-- An outcome as an answer. -/
theorem same_of_outcome {x y : Except Fault Answer} (hxy : Outcome Answer.Same x y) :
    (Answer.ofOutcome x).Same (.ofOutcome y) := by
  cases hxy with
  | ok hsame => exact hsame
  | error f => rfl

theorem recordInside_lockstep (path : List Nat) {x y : Answer} (hxy : x.Same y) :
    Lockstep (Both (Sides Stack.Bare Bare) Veiled) Eq (recordInside path x)
      (recordInside path y) :=
  .bind_eq (statusHere_lockstep .stack) fun _ => .onSecond (record_lockstep path hxy _)

/-- What is taken out of an operation has no part in whether it leaves its scope. -/
theorem Operation.raises_unfilled (op : Operation) : op.unfilled.raises = op.raises := by
  cases op with
  | onSession g => cases g <;> rfl
  | _ => rfl

theorem OnSession.moves_unfilled (g : OnSession) :
    (Operation.onSession g.unfilled).moves = (Operation.onSession g).moves := by
  cases g <;> rfl

mutual

/-- **A command inside a scope.**  The induction is on the command, a scope inside the scope with
    all commands in it. -/
theorem Command.runInside_lockstep (path : List Nat) : (c : Command) →
    Lockstep (Both (Sides Eq (Sides Stack.Bare Bare)) Veiled) Eq (c.runInside p path)
      (c.unfilled.runInside p path)
  | .act _ bubbles op => by
    rw [Command.unfilled, Command.runInside, Command.runInside, op.raises_unfilled]
    refine .bind (inside_lockstep op).attempt fun x y hxy => ?_
    refine .bind_eq (.onSecond (recordInside_lockstep path (same_of_outcome hxy))) fun _ => ?_
    cases hxy with
    | ok _ => exact .pure rfl
    | error f => exact .ite (.throw f) (.pure rfl)
  | .guarded _ catches body => by
    rw [Command.unfilled, Command.runInside, Command.runInside]
    refine .onSecond (.bind_eq (recordInside_lockstep path rfl) fun _ => ?_)
    refine .bind (scope_lockstep (runAllInside_lockstep path 0 body)).attempt fun x y hxy => ?_
    cases hxy with
    | ok _ => exact recordInside_lockstep path rfl
    | error f => exact .ite (recordInside_lockstep path rfl) (.throw f)

/-- All commands inside a scope. -/
theorem runAllInside_lockstep (path : List Nat) (i : Nat) : (cs : List Command) →
    Lockstep (Both (Sides Eq (Sides Stack.Bare Bare)) Veiled) Eq (runAllInside p path i cs)
      (runAllInside p path i (unfilledAll cs))
  | [] => by
    rw [unfilledAll, runAllInside]
    exact .pure rfl
  | c :: rest => by
    rw [unfilledAll, runAllInside, runAllInside]
    exact .bind_eq (c.runInside_lockstep (path ++ [i])) fun _ =>
      runAllInside_lockstep path (i + 1) rest

end

theorem runScope_lockstep (path : List Nat) (body : List Command) (t : Tree) :
    Lockstep (Both (Sides t.Bare Bare) Veiled) Eq (runScope p path body t)
      (runScope p path (unfilledAll body) t) := by
  have hrefused : ∀ t : Tree, Lockstep (Both (Sides t.Bare Bare) Veiled) Eq
      (statusHere t >>= fun status =>
        onSecond (record path (.refusal .notAStack) (some status)))
      (statusHere t >>= fun status =>
        onSecond (record path (.refusal .notAStack) (some status))) :=
    fun t => .bind_eq (statusHere_lockstep t) fun status => .onSecond (record_lockstep path rfl _)
  cases t with
  | stack =>
    refine .bind_eq (recordInside_lockstep path rfl) fun _ => ?_
    refine .bind (scope_lockstep (runAllInside_lockstep path 0 body)).attempt fun x y hxy => ?_
    cases hxy with
    | ok _ => exact recordInside_lockstep path rfl
    | error f => exact recordInside_lockstep path rfl
  | heap => exact hrefused .heap
  | budget => exact hrefused .budget
  | fallback first second => exact hrefused (.fallback first second)

/-- An operation on a target, and what is made of its outcome, or of there being no target. -/
theorem onTarget_lockstep (target : Target) (op : Operation)
    {f g : Option (Except Fault Answer) → Action Session Unit}
    (hnone : Lockstep (Both Bare Veiled) Eq (f none) (g none))
    (hsome : ∀ x y, Outcome Answer.Same x y →
      Lockstep (Both Bare Veiled) Eq (f (some x)) (g (some y))) :
    Lockstep (Both Bare Veiled) Eq
      (withTarget target (fun t => Action.attempt (outside p t op)) >>= f)
      (withTarget target (fun t => Action.attempt (outside p t op.unfilled)) >>= g) := by
  refine .bind (withTarget_lockstep target fun t => (outside_lockstep t op).attempt) ?_
  intro x y hxy
  cases hxy with
  | none => exact hnone
  | some hsame => exact hsome _ _ hsame

/-- **A command outside of every scope.** -/
theorem Command.run_lockstep (path : List Nat) (c : Command) :
    Lockstep (Both Bare Veiled) Eq (c.run p path) (c.unfilled.run p path) := by
  cases c with
  | act target bubbles op =>
    have hanswer : ∀ {x y : Answer}, x.Same y → Lockstep (Both Bare Veiled) Eq
        (statusOf target >>= record path x) (statusOf target >>= record path y) :=
      fun hxy => .bind_eq (statusOf_lockstep target) (record_lockstep path hxy)
    cases op with
    | onSession g =>
      refine .bind (onSession_lockstep g).attempt fun x y hxy => ?_
      have hsame := same_of_outcome hxy
      rw [g.moves_unfilled]
      exact .ite (record_lockstep path hsame none) (hanswer hsame)
    | onAllocator o =>
      exact onTarget_lockstep target (.onAllocator o) (hanswer rfl)
        fun _ _ hxy => hanswer (same_of_outcome hxy)
    | onStack o =>
      exact onTarget_lockstep target (.onStack o) (hanswer rfl)
        fun _ _ hxy => hanswer (same_of_outcome hxy)
    | onGuard o =>
      exact onTarget_lockstep target (.onGuard o) (hanswer rfl)
        fun _ _ hxy => hanswer (same_of_outcome hxy)
  | guarded target catches body =>
    refine .bind (withTarget_lockstep target (runScope_lockstep path body)) fun x y hxy => ?_
    cases hxy with
    | none => exact record_lockstep path rfl none
    | some _ => exact .pure rfl

/-- **All commands**, one after the other. -/
theorem runAll_lockstep (i : Nat) (cs : List Command) :
    Lockstep (Both Bare Veiled) Eq (runAll p i cs) (runAll p i (cs.map Command.unfilled)) := by
  induction cs generalizing i with
  | nil => exact .pure rfl
  | cons c rest ih => exact .bind_eq (c.run_lockstep [i]) fun _ => ih (i + 1)

/-- The end of what is left in the slots. -/
theorem close_lockstep (commands : Nat) (slots : List Nat) :
    Lockstep (Both Bare Veiled) Eq (close p commands slots) (close p commands slots) := by
  induction slots with
  | nil => exact .pure rfl
  | cons slot rest ih =>
    refine .bind .self fun s u hsu => ?_
    have hsome : (s.slot? slot).isSome = (u.slot? slot).isSome := by
      rcases hsu.slot_cases slot with ⟨hleft, hright⟩ | ⟨t, x, y, hleft, hright, -⟩
      · rw [hleft, hright]
      · rw [hleft, hright]
        rfl
    rw [hsome]
    refine .ite (.bind (discard_lockstep slot).attempt fun x y hxy => ?_) ih
    exact .bind_eq (record_lockstep _ (same_of_outcome hxy) none) fun _ => ih

/-- Every session starts from one state. -/
theorem both_initial : Both Bare Veiled (initial, Host.initial) (initial, Host.initial) :=
  ⟨.initial, .initial⟩

/-- **The transcript of a session**, up to the bytes that were shown. -/
theorem run_unfilled (p : Platform) (cs : List Command) :
    (run p cs).map (List.map Step.veiled)
      = (run p (cs.map Command.unfilled)).map (List.map Step.veiled) := by
  have hwhole : Lockstep (Both Bare Veiled) Eq
      (runAll p 0 cs >>= fun _ => self >>= fun s : Session =>
        close p cs.length (List.range s.slots.length))
      (runAll p 0 (cs.map Command.unfilled) >>= fun _ => self >>= fun s : Session =>
        close p (cs.map Command.unfilled).length (List.range s.slots.length)) := by
    refine .bind_eq (runAll_lockstep 0 cs) fun _ => .bind .self fun s u hsu => ?_
    rw [hsu.length, List.length_map]
    exact close_lockstep _ _
  have hends := hwhole _ _ both_initial
  unfold run
  dsimp only
  generalize (runAll p 0 cs >>= _ : Action Session Unit) (initial, Host.initial) = first at hends ⊢
  generalize (runAll p 0 (cs.map Command.unfilled) >>= _ : Action Session Unit)
    (initial, Host.initial) = second at hends ⊢
  cases hends with
  | ok _ hstate => exact congrArg Except.ok hstate.1.steps
  | error _ => rfl

/-! ## Views -/

/-- The session with nothing said of overwriting, nor of the bytes that were shown. -/
def veiled (s : Session) : Session :=
  { s with
    slots := s.slots.map (Option.map Allocator.unfilled)
    steps := s.steps.map Step.veiled }

/-- `View`: everything that there is of a session and its host, but the bytes of memory. -/
structure View where
  session : Session
  outline : Outline
  lastId : Nat
  hook : Hook
  journal : List Note

/-- The view of a session on its host. -/
def view (st : Session × Host) : View :=
  ⟨st.1.veiled, st.2.memory.outline, st.2.lastId, st.2.hook, st.2.journal⟩

/-- The slots, with nothing said of overwriting, are the same. -/
theorem Bare.slots_eq (hsu : Bare s u) :
    s.slots.map (Option.map Allocator.unfilled) = u.slots.map (Option.map Allocator.unfilled) := by
  refine List.ext_getElem (by rw [List.length_map, List.length_map, hsu.length]) fun i hi hj => ?_
  rw [List.length_map] at hi hj
  rw [List.getElem_map, List.getElem_map]
  have hslot := hsu.slots i
  have hleft : s.slot? i = s.slots[i] := congrArg Option.join (List.getElem?_eq_getElem hi)
  have hright : u.slot? i = u.slots[i] := congrArg Option.join (List.getElem?_eq_getElem hj)
  rw [hleft, hright] at hslot
  generalize s.slots[i] = left at hslot ⊢
  generalize u.slots[i] = right at hslot ⊢
  cases hslot with
  | none => rfl
  | some hab => exact congrArg some hab.unfilled_eq

/-- States that are held to be the same have the same view. -/
theorem view_eq {st st' : Session × Host} (hst : Both Bare Veiled st st') : view st = view st' := by
  obtain ⟨s, h⟩ := st
  obtain ⟨u, k⟩ := st'
  obtain ⟨hsu, hhk⟩ := hst
  have hsession : s.veiled = u.veiled := by
    obtain ⟨slots, handles, markers, saved, seen, steps⟩ := s
    obtain ⟨slots', handles', markers', saved', seen', steps'⟩ := u
    obtain rfl : handles = handles' := hsu.handles
    obtain rfl : markers = markers' := hsu.markers
    obtain rfl : saved = saved' := hsu.saved
    obtain rfl : seen = seen' := hsu.seen
    show Session.mk _ _ _ _ _ _ = Session.mk _ _ _ _ _ _
    rw [hsu.slots_eq, hsu.steps]
  show View.mk s.veiled h.memory.outline _ _ _ = View.mk u.veiled k.memory.outline _ _ _
  rw [hsession, hhk.outline, hhk.lastId, hhk.hook, hhk.journal]

/-- **Where a session stands** after some commands, up to the bytes of memory. -/
theorem after_unfilled (p : Platform) (cs : List Command) :
    Prod.map id view (after (runAll p 0 cs) (initial, .initial))
      = Prod.map id view (after (runAll p 0 (cs.map Command.unfilled)) (initial, .initial)) := by
  obtain ⟨hout, hstate⟩ := (runAll_lockstep (p := p) 0 cs).after both_initial
  exact Prod.ext hout (view_eq hstate)

/-- **Overwriting is invisible**, but in the bytes of memory.

    Two lists of commands that are the same but for what their recipes say of overwriting lead to

    1. one transcript, up to bytes that were inspected: step by step the same answers, the same
       faults with the same texts, the same states of the targets, and in the journal the same
       events, leak reports, and regions made and freed, inside scopes too;
    2. one outcome and one view after any number of commands: the same addresses, markers and
       stacks, the same regions at the same places. -/
theorem fill_invisible (p : Platform) {cs ds : List Command}
    (hsame : cs.map Command.unfilled = ds.map Command.unfilled) :
    (run p cs).map (List.map Step.veiled) = (run p ds).map (List.map Step.veiled) ∧
    ∀ n, Prod.map id view (after (runAll p 0 (cs.take n)) (initial, .initial))
      = Prod.map id view (after (runAll p 0 (ds.take n)) (initial, .initial)) := by
  constructor
  · rw [run_unfilled p cs, hsame, ← run_unfilled p ds]
  · intro n
    rw [after_unfilled p (cs.take n), List.map_take, hsame, ← List.map_take,
      ← after_unfilled p (ds.take n)]

/-- A stack of 64 bytes that may overwrite: 40 bytes, a scope that grows it and is left by a fault,
    an unwind to the bottom and one back above the top, which a release build cuts short, 16 bytes,
    and a look at the first block. -/
def cutShort (fill : Bool) : List Command :=
  let here : Target := ⟨0, []⟩
  [.act here false (.onSession (.make (.stack { Config.sized .release 64 with fill }))),
    .act here false (.onStack (.allocate ⟨40, 8⟩ none)),
    .act here false (.onStack (.top (some "top"))),
    .guarded here false
      [.act here false (.onStack (.allocate ⟨100, 8⟩ none)),
        .act here false (.onSession (.raise "stop"))],
    .act here false (.onStack .unwindAll),
    .act here false (.onStack (.unwind "top")),
    .act here false (.onStack (.allocate ⟨16, 8⟩ none)),
    .act here false (.onSession (.inspect 0))]

/-- The bytes that a step shows. -/
def Step.shown? (s : Step) : Option (List (UInt8 × Nat)) :=
  match s.answer with
  | .bytes _ runs => some runs
  | _ => none

/-- What was overwritten is what the look shows, and the only thing to tell the two by. -/
theorem fill_invisible_cutShort :
    (cutShort true).map Command.unfilled = (cutShort false).map Command.unfilled ∧
      (run (platform .release []) (cutShort true)).map (List.map Step.veiled)
        = (run (platform .release []) (cutShort false)).map (List.map Step.veiled) ∧
      (run (platform .release []) (cutShort true)).toOption.map (List.filterMap Step.shown?)
        = some [[(0xCD, 16), (0xDD, 24), (0, 24)]] ∧
      (run (platform .release []) (cutShort false)).toOption.map (List.filterMap Step.shown?)
        = some [[(0, 64)]] := by
  have hsame : (cutShort true).map Command.unfilled = (cutShort false).map Command.unfilled := rfl
  have hleft : (run (platform .release []) (cutShort true)).toOption.map
      (List.filterMap Step.shown?) = some [[(0xCD, 16), (0xDD, 24), (0, 24)]] := by
    decide +kernel
  have hright : (run (platform .release []) (cutShort false)).toOption.map
      (List.filterMap Step.shown?) = some [[(0, 64)]] := by
    decide +kernel
  obtain ⟨hsteps, -⟩ := fill_invisible (platform .release []) hsame
  exact ⟨hsame, hsteps, hleft, hright⟩

end Session

end StackArena
