/-
  Runs of a tree.

  A **venture** is a tree of stacks and heaps with its host and the markers that were captured on
  its stacks.  Clients make moves: they ask any part of the tree in any way, give memory back to it,
  work with the stacks at the leaves, compare markers, write into the regions, install leak
  handlers, and bring the tree to its end.

    host, state    markers: oldest first    response: what a move comes to

  1. What a move comes to is an action on the state of the tree (`Venture.Move.action`).
  2. A move changes one of the stacks at most, in one of the ways of `Change`, and nothing of the
     regions of the others (`Stirred`).
  3. Ventures stay orderly (`Orderly`): the stacks stand abreast under different identities, their
     books balance where sums are checked, and their serials are in use below the next one as long
     as they last.
-/
import StackArena.Proofs.Failing
import StackArena.Proofs.Neighbours

namespace StackArena

/-- `Venture t`: a tree of shape `t` with its host, and the markers captured so far. -/
structure Venture (t : Tree) where
  host : Host
  state : t.State
  markers : List Marker

namespace Venture

/-! ## Moves and responses -/

/-- `Response`: what a move comes to. -/
inductive Response where
  | nothing
  /-- A request was served. -/
  | address (a : Nat)
  /-- A request was declined, with a cause if there is one. -/
  | declined (cause : Option AllocError)
  | taken (b : Bool)
  | position (m : Marker)
  | order (o : Option Ordering)
  | amount (n : Nat)
  | replaced (h : Handler)
deriving DecidableEq, Repr

namespace Response

/-- A request that was made on trial. -/
def ofTrial : Except AllocError Nat → Response
  | .ok a => address a
  | .error cause => declined (some cause)

/-- A request that was made of the current block of a stack. -/
def ofFound : Option Nat → Response
  | some a => address a
  | none => declined none

/-- The address, if one was served. -/
def address? : Response → Option Nat
  | address a => some a
  | _ => none

end Response

/-- `Chore`: work with the stack at a leaf.  Markers go by the order in which they were captured; a
    guard is a marker that its end unwinds to. -/
inductive Chore where
  | tryAllocate (r : Request)
  | top
  | unwind (marker : Nat)
  | unwindAll
  | shrink
  | reportLeaks
deriving DecidableEq, Repr

/-- `Move`: one thing that clients do.  Paths lead to a part of the tree. -/
inductive Move where
  | ask (path : List Side) (w : Way) (r : Request)
  | giveBack (path : List Side) (address : Nat) (w : Way) (r : Request)
  | chore (path : List Side) (c : Chore)
  | compare (left right : Nat)
  /-- Bytes of a region are written by a client. -/
  | write (region offset length : Nat) (byte : UInt8)
  | install (next : Handler)
  | discard
deriving DecidableEq, Repr

/-- What is asked for by a move. -/
def Move.request? : Move → Option Request
  | ask _ _ r => some r
  | chore _ (.tryAllocate r) => some r
  | _ => none

end Venture

open Venture

/-- A request, with the cause where it is declined. -/
def Way.inquire {σ : Type} (P : Provider σ) (r : Request) : Way → Action σ Response
  | ⟨false, none⟩ => .address <$> P.allocate r
  | ⟨true, none⟩ => .ofTrial <$> P.tryAllocate r
  | ⟨false, some count⟩ => .address <$> P.allocateArray count r
  | ⟨true, some count⟩ => .ofTrial <$> P.tryAllocateArray count r

/-- Without the cause it is the request itself. -/
theorem Way.after_ask {σ : Type} (P : Provider σ) (r : Request) (w : Way) (st : σ × Host) :
    Action.after (w.ask P r) st
      = Prod.map (Except.map Response.address?) id (Action.after (w.inquire P r) st) := by
  obtain ⟨_ | _, _ | count⟩ := w
  · simp only [ask, inquire, Action.after_map]
    rcases Action.after (P.allocate r) st with ⟨_ | _, st'⟩ <;> rfl
  · simp only [ask, inquire, Action.after_map]
    rcases Action.after (P.allocateArray count r) st with ⟨_ | _, st'⟩ <;> rfl
  · simp only [ask, inquire, Action.after_map]
    rcases Action.after (P.tryAllocate r) st with ⟨_ | (_ | _), st'⟩ <;> rfl
  · simp only [ask, inquire, Action.after_map]
    rcases Action.after (P.tryAllocateArray count r) st with ⟨_ | (_ | _), st'⟩ <;> rfl

/-- An action on the part that a path leads to; without one nothing is done. -/
def Tree.atPart (t : Tree) (path : List Side) (a : (u : Tree) → Action u.State Response) :
    Action t.State Response :=
  match t.part? path with
  | some q => Action.zoom q.get q.put (a q.shape)
  | none => pure .nothing

/-- An action on a tree that is one stack. -/
def Tree.onStack (a : Action Stack Response) : (u : Tree) → Action u.State Response
  | stack => a
  | _ => pure .nothing

namespace Venture

/-- A chore as an action; `markers` are the ones captured so far. -/
def Chore.action (p : Platform) (markers : List Marker) : Chore → Action Stack Response
  | tryAllocate r => .ofFound <$> Stack.tryAllocate p r
  | top => do
    let s ← Action.self
    return .position s.top
  | unwind k => match markers[k]? with
    | some m => (fun _ => .nothing) <$> Stack.unwind p m
    | none => pure .nothing
  | unwindAll => (fun _ => .nothing) <$> Stack.unwindAll p
  | shrink => (fun _ => .nothing) <$> Stack.shrink
  | reportLeaks => .amount <$> Stack.reportLeaks p

/-- A move as an action on the state of the tree. -/
def Move.action (p : Platform) (t : Tree) (markers : List Marker) : Move → Action t.State Response
  | ask path w r => t.atPart path fun u => w.inquire (u.provider p) r
  | giveBack path address w r =>
    t.atPart path fun u => .taken <$> w.giveBack (u.provider p) address r
  | chore path c => t.atPart path (Tree.onStack (c.action p markers))
  | compare i k => pure (match markers[i]?, markers[k]? with
    | some m, some n => .order (m.compare? n)
    | _, _ => .nothing)
  | write region offset length byte =>
    (fun _ => .nothing) <$> (Host.fill region offset length byte : HostAction Unit)
  | install next => .replaced <$> (Host.install next : HostAction Handler)
  | discard => (fun _ => .nothing) <$> t.discard p

/-- The marker that a move has captured. -/
def captured : Except Fault Response → List Marker
  | .ok (.position m) => [m]
  | _ => []

variable {t : Tree}

/-- The stacks of a venture, from left to right. -/
def leaves (v : Venture t) : List Stack := t.stackLeaves v.state

/-- One move, and what it comes to. -/
def act (p : Platform) (v : Venture t) (d : Move) : Except Fault Response × Venture t :=
  let (out, s, h) := Action.after (d.action p t v.markers) (v.state, v.host)
  (out, ⟨h, s, v.markers ++ captured out⟩)

/-- One move. -/
def step (p : Platform) (v : Venture t) (d : Move) : Venture t := (v.act p d).2

/-- A run: moves one after the other. -/
def run (p : Platform) (v : Venture t) (ds : List Move) : Venture t := ds.foldl (step p) v

/-- What the moves of a run come to. -/
def responses (p : Platform) (v : Venture t) : List Move → List (Except Fault Response)
  | [] => []
  | d :: ds => (v.act p d).1 :: responses p (v.step p d) ds

end Venture

/-! ## What a move does -/

open Stack

/-- `Stirred p known ss h ss' h'`: one of the stacks has changed at most, and otherwise nothing of
    the regions; `known` are the markers that it may have been unwound to. -/
inductive Stirred (p : Platform) (known : List Marker) :
    List Stack → Host → List Stack → Host → Prop
  | none {ss : List Stack} {h h' : Host}
      (hregions : ∀ n, h'.memory.extent? n = h.memory.extent? n) : Stirred p known ss h ss h'
  | stack {left right : List Stack} {s s' : Stack} {h h' : Host}
      (hchange : Change p (fun m => m ∈ known ∨ m = s.bottom) s h s' h') :
      Stirred p known (left ++ s :: right) h (left ++ s' :: right) h'

namespace Stirred

variable {p : Platform} {known : List Marker} {ss ss' : List Stack} {h h' : Host}

/-- Further stacks are left alone. -/
theorem append (hstirred : Stirred p known ss h ss' h') (left right : List Stack) :
    Stirred p known (left ++ ss ++ right) h (left ++ ss' ++ right) h' := by
  cases hstirred with
  | none hregions => exact .none hregions
  | stack hchange =>
    simp only [List.append_assoc, List.cons_append]
    simp only [← List.append_assoc left]
    exact .stack hchange

/-- A stack alone has changed. -/
theorem single {s s' : Stack} (hchange : Change p (fun m => m ∈ known ∨ m = s.bottom) s h s' h') :
    Stirred p known [s] h [s'] h' := by
  have hall : Stirred p known ([] ++ s :: []) h ([] ++ s' :: []) h' := .stack hchange
  exact hall

end Stirred

/-- A request to a tree stirs one of its leaves at most. -/
theorem Answers.stirred {p : Platform} {known : List Marker} {r : Request} {heaped : Bool}
    {ss ss' : List Stack} {h h' : Host} {out : Except Fault (Option Nat)}
    (ha : Answers p r heaped ss h (out, ss', h')) : Stirred p known ss h ss' h' := by
  cases ha with
  | refused => exact .none fun _ => rfl
  | stack hserves => exact .stack (.served hserves)
  | heap _ hends =>
    cases hends with
    | served => exact .none fun _ => rfl
    | nothing => exact .none fun _ => rfl

/-! ## Giving back -/

namespace Action

variable {σ τ α β : Type}

/-- `a.Spares`: an action changes neither its own state nor any region, however it ends. -/
def Spares (a : Action σ α) : Prop :=
  ∀ s h, (after a (s, h)).2.1 = s ∧
    ∀ n, (after a (s, h)).2.2.memory.extent? n = h.memory.extent? n

theorem Spares.pure (x : α) : Spares (pure x : Action σ α) := fun _ _ => ⟨rfl, fun _ => rfl⟩

theorem Spares.self : Spares (self : Action σ σ) := fun _ _ => ⟨rfl, fun _ => rfl⟩

theorem Spares.check (x : Except Fault α) : Spares (check x : Action σ α) := by
  intro s h
  cases x <;> exact ⟨rfl, fun _ => rfl⟩

theorem Spares.bind {a : Action σ α} {f : α → Action σ β} (ha : Spares a)
    (hf : ∀ x, Spares (f x)) : Spares (a >>= f) := by
  intro s h
  obtain ⟨hself, hregions⟩ := ha s h
  rw [after_bind]
  rcases hlast : after a (s, h) with ⟨_ | x, s', h'⟩
  · rw [hlast] at hself hregions
    exact ⟨hself, hregions⟩
  · rw [hlast] at hself hregions
    obtain rfl : s' = s := hself
    obtain ⟨hself', hregions'⟩ := hf x s' h'
    exact ⟨hself', fun n => (hregions' n).trans (hregions n)⟩

theorem Spares.map {a : Action σ α} (ha : Spares a) (f : α → β) : Spares (f <$> a) := by
  intro s h
  rw [after_map]
  exact ha s h

theorem Spares.onFirst {a : Action σ α} (ha : Spares a) :
    Spares (onFirst a : Action (σ × τ) α) := by
  rintro ⟨s, u⟩ h
  rw [after_onFirst]
  exact ⟨congrArg (·, u) (ha s h).1, (ha s h).2⟩

theorem Spares.onSecond {a : Action τ α} (ha : Spares a) :
    Spares (onSecond a : Action (σ × τ) α) := by
  rintro ⟨s, u⟩ h
  rw [after_onSecond]
  exact ⟨congrArg (s, ·) (ha u h).1, (ha u h).2⟩

end Action

/-- What is given back to the heap is nothing to the regions. -/
theorem Heap.deallocate_spares (p : Platform) (address : Nat) (r : Request) :
    Action.Spares (Action.onHost (Heap.deallocate p address r) : Action Unit Unit) := by
  intro s h
  cases hlayout : Heap.layout r with
  | ok l =>
    have hrun : Heap.deallocate p address r h = .ok () (h.withoutChunk address l) := by
      rw [Heap.deallocate, hlayout]
      rfl
    rw [Action.after_of_ok (Action.onHost_of_ok hrun)]
    exact ⟨rfl, fun _ => rfl⟩
  | error cause =>
    cases hbuild : p.build with
    | debug =>
      have hrun : Heap.deallocate p address r h
          = .error (.layoutMismatch r.size r.alignment) h := by
        rw [Heap.deallocate, hlayout, hbuild]
        rfl
      rw [Action.after_of_error (Action.onHost_of_error hrun)]
      exact ⟨rfl, fun _ => rfl⟩
    | release =>
      have hrun : Heap.deallocate p address r h = .ok () h := by
        rw [Heap.deallocate, hlayout, hbuild]
        rfl
      rw [Action.after_of_ok (Action.onHost_of_ok hrun)]
      exact ⟨rfl, fun _ => rfl⟩

namespace Provider

variable {σ τ : Type}

/-- `P.Spares`: whatever is given back, no state and no region is changed. -/
structure Spares (P : Provider σ) : Prop where
  deallocate : ∀ address r, Action.Spares (P.deallocate address r)
  tryDeallocate : ∀ address r, Action.Spares (P.tryDeallocate address r)
  deallocateArray : ∀ address count e, Action.Spares (P.deallocateArray address count e)
  tryDeallocateArray : ∀ address count e, Action.Spares (P.tryDeallocateArray address count e)

theorem Spares.giveBack {P : Provider σ} (hP : P.Spares) (address : Nat) (r : Request) (w : Way) :
    Action.Spares (w.giveBack P address r) := by
  obtain ⟨_ | _, _ | count⟩ := w
  · exact (hP.deallocate address r).map _
  · exact (hP.deallocateArray address count r).map _
  · exact hP.tryDeallocate address r
  · exact hP.tryDeallocateArray address count r

section

variable (build : Build) (allocate : Request → Action σ Nat)
  (tryAllocate : Request → Action σ (Except AllocError Nat))
  {deallocate : Nat → Request → Action σ Unit} {tryDeallocate : Nat → Request → Action σ Bool}
  (limits : σ → Limits)

/-- A provider that says nothing of arrays spares if its plain forms do. -/
theorem spares_default (hdeallocate : ∀ address r, Action.Spares (deallocate address r))
    (htryDeallocate : ∀ address r, Action.Spares (tryDeallocate address r)) :
    Spares { build, allocate, tryAllocate, deallocate, tryDeallocate, limits } := by
  refine ⟨hdeallocate, htryDeallocate, ?_, ?_⟩
  · intro address count e
    exact (Action.Spares.check _).bind fun total => hdeallocate address _
  · intro address count e
    dsimp only
    cases Word.mul? count e.size with
    | some total => exact htryDeallocate address _
    | none => exact .pure false

end

/-- Two providers as one spare if both do. -/
theorem Spares.fallback {P : Provider σ} {Q : Provider τ} (hP : P.Spares) (hQ : Q.Spares) :
    (P.fallback Q).Spares := by
  have htry : ∀ address r, Action.Spares ((P.fallback Q).tryDeallocate address r) := by
    intro address r
    refine (hP.tryDeallocate address r).onFirst.bind fun taken => ?_
    cases taken with
    | true => exact .pure true
    | false => exact (hQ.tryDeallocate address r).onSecond
  refine ⟨?_, htry, ?_, ?_⟩
  · intro address r
    refine (hP.tryDeallocate address r).onFirst.bind fun taken => ?_
    cases taken with
    | true => exact .pure ()
    | false => exact (hQ.deallocate address r).onSecond
  · intro address count e
    refine (hP.tryDeallocateArray address count e).onFirst.bind fun taken => ?_
    cases taken with
    | true => exact .pure ()
    | false => exact (hQ.deallocateArray address count e).onSecond
  · intro address count e
    dsimp only [Provider.fallback]
    cases Word.mul? count e.size with
    | some total => exact htry address _
    | none => exact .pure false

end Provider

/-- **Whatever is given back to a tree of stacks and heaps**, in any way, no stack and no region is
    changed. -/
theorem Tree.provider_spares (p : Platform) {t : Tree} (ht : t.Unbudgeted) :
    (t.provider p).Spares := by
  induction t with
  | stack =>
    refine Provider.spares_default _ _ _ _ (fun address r => .pure ()) fun address r => ?_
    exact Action.Spares.self.bind fun s => .check _
  | heap =>
    refine Provider.spares_default _ _ _ _ (fun address r => Heap.deallocate_spares p address r) ?_
    exact fun address r => (Heap.deallocate_spares p address r).bind fun _ => .pure true
  | budget => exact ht.elim
  | fallback first second ihfirst ihsecond => exact (ihfirst ht.1).fallback (ihsecond ht.2)

/-! ## Every move -/

namespace Venture

variable {p : Platform} {gap : Nat} {markers : List Marker} {s s' : Stack} {h h' : Host}

/-- A chore changes its stack in one of the ways of `Change`, or not at all, and then what it has
    captured is the position of the stack. -/
theorem Chore.change (hset : s.Settled gap h) (c : Chore) :
    Change p (fun m => m ∈ markers ∨ m = s.bottom) s h
      (Action.after (c.action p markers) (s, h)).2.1
      (Action.after (c.action p markers) (s, h)).2.2 := by
  have hunwind : ∀ m, m ∈ markers ∨ m = s.bottom →
      Change p (fun m => m ∈ markers ∨ m = s.bottom) s h
        (Action.after (Stack.unwind p m) (s, h)).2.1
        (Action.after (Stack.unwind p m) (s, h)).2.2 := by
    intro m hm
    rcases unwind_ends p m h hset.wellFormed with ⟨hrun, hok⟩ | ⟨f, hrun, -, -⟩
    · rw [hrun]
      exact .unwound hm hok
    · rw [hrun]
      exact .still (Host.Still.refl h)
  cases c with
  | tryAllocate r =>
    rw [action, Action.after_map]
    rcases tryAllocate_ends (p := p) (r := r) (h := h) hset.wellFormed with hbump | ⟨-, hrun⟩
    · exact .served (.bumped hbump)
    · rw [Action.after_of_error hrun]
      exact .still (Host.Still.refl h)
  | top => exact .still (Host.Still.refl h)
  | unwind k =>
    rw [action]
    cases hk : markers[k]? with
    | none => exact .still (Host.Still.refl h)
    | some m =>
      dsimp only
      rw [Action.after_map]
      exact hunwind m (Or.inl (List.mem_of_getElem? hk))
  | unwindAll =>
    rw [action, Action.after_map]
    exact hunwind s.bottom (Or.inr rfl)
  | shrink =>
    rw [action, Action.after_map, Action.after_of_ok (shrink_apply s h)]
    exact .shrunk
  | reportLeaks =>
    obtain ⟨out, h', hrun, hstill⟩ := reportLeaks_ends p s h
    rw [action, Action.after_map, hrun]
    exact .still hstill

/-- An action whose values are no positions captures nothing. -/
theorem captured_map {σ α : Type} (a : Action σ α) {f : α → Response}
    (hf : ∀ x, captured (.ok (f x)) = []) (st : σ × Host) :
    captured (Action.after (f <$> a) st).1 = [] := by
  rw [Action.after_map]
  rcases Action.after a st with ⟨g | x, st'⟩
  · rfl
  · exact hf x

/-- What a chore captures is the position of the stack. -/
theorem Chore.eq_top_of_captured {c : Chore} {m : Marker}
    (hm : m ∈ captured (Action.after (c.action p markers) (s, h)).1) : m = s.top := by
  have hnone : captured (Action.after (c.action p markers) (s, h)).1 = [] → m = s.top := by
    intro hnothing
    rw [hnothing] at hm
    nomatch hm
  cases c with
  | top => exact List.mem_singleton.1 hm
  | tryAllocate r => exact hnone (captured_map _ (fun x => by cases x <;> rfl) _)
  | unwind k =>
    refine hnone ?_
    rw [action]
    cases markers[k]? with
    | none => rfl
    | some m => exact captured_map _ (fun _ => rfl) _
  | unwindAll => exact hnone (captured_map _ (fun _ => rfl) _)
  | shrink => exact hnone (captured_map _ (fun _ => rfl) _)
  | reportLeaks => exact hnone (captured_map _ (fun _ => rfl) _)

/-- `Tame p gap markers t a`: the action stirs one leaf at most, and captures nothing but the
    position of one. -/
def Tame (p : Platform) (gap : Nat) (markers : List Marker) (t : Tree)
    (a : Action t.State Response) : Prop :=
  ∀ s h, (∀ st ∈ t.stackLeaves s, st.Settled gap h) →
    Stirred p markers (t.stackLeaves s) h (t.stackLeaves (Action.after a (s, h)).2.1)
      (Action.after a (s, h)).2.2 ∧
    ∀ m ∈ captured (Action.after a (s, h)).1, ∃ st ∈ t.stackLeaves s, m = st.top

/-- What spares the stacks and captures nothing is tame. -/
theorem Tame.of_spares {t : Tree} {a : Action t.State Response} (ha : Action.Spares a)
    (hnothing : ∀ st, captured (Action.after a st).1 = []) : Tame p gap markers t a := by
  intro s h _
  obtain ⟨hself, hregions⟩ := ha s h
  rw [hself]
  refine ⟨.none hregions, fun m hm => ?_⟩
  rw [hnothing] at hm
  nomatch hm

/-- Tame actions on the parts make one on the whole. -/
theorem Tame.atPart {t : Tree} (ht : t.Unbudgeted) (path : List Side)
    {a : (u : Tree) → Action u.State Response}
    (ha : ∀ u : Tree, u.Unbudgeted → Tame p gap markers u (a u)) :
    Tame p gap markers t (t.atPart path a) := by
  unfold Tree.atPart
  cases hpart : t.part? path with
  | none => exact .of_spares (.pure _) fun _ => rfl
  | some q =>
    intro s h hset
    obtain ⟨left, right, hleaves, hput⟩ := Tree.part?_leaves hpart s
    have hmem : ∀ st ∈ q.shape.stackLeaves (q.get s), st ∈ t.stackLeaves s := by
      intro st hst
      rw [hleaves]
      exact List.mem_append_left _ (List.mem_append_right _ hst)
    obtain ⟨hstirred, htops⟩ := ha q.shape (Tree.part?_unbudgeted ht hpart) (q.get s) h
      fun st hst => hset st (hmem st hst)
    dsimp only
    rw [Action.after_zoom, hput, hleaves]
    refine ⟨hstirred.append left right, fun m hm => ?_⟩
    obtain ⟨st, hst, rfl⟩ := htops m hm
    exact ⟨st, hleaves ▸ hmem st hst, rfl⟩

/-- Asking captures nothing. -/
theorem captured_inquire {σ : Type} (P : Provider σ) (w : Way) (r : Request) (st : σ × Host) :
    captured (Action.after (w.inquire P r) st).1 = [] := by
  obtain ⟨_ | _, _ | count⟩ := w
  · exact captured_map _ (fun _ => rfl) _
  · exact captured_map _ (fun _ => rfl) _
  · exact captured_map _ (fun x => by cases x <;> rfl) _
  · exact captured_map _ (fun x => by cases x <;> rfl) _

/-- Asking is tame. -/
theorem Tame.inquire (hp : p.Sound gap) {t : Tree} (ht : t.Unbudgeted) (w : Way) (r : Request) :
    Tame p gap markers t (w.inquire (t.provider p) r) := by
  intro s h hset
  obtain ⟨out, s', h', hrun, ha⟩ := Tree.ask_answers hp ht w r s h hset
  rw [Way.after_ask] at hrun
  have hstate : (Action.after (w.inquire (t.provider p) r) (s, h)).2 = (s', h') :=
    congrArg Prod.snd hrun
  rw [hstate, captured_inquire]
  exact ⟨ha.stirred, nofun⟩

/-- **Every move but the last is tame.** -/
theorem Move.tame (hp : p.Sound gap) {t : Tree} (ht : t.Unbudgeted) {d : Move}
    (hd : d ≠ .discard) : Tame p gap markers t (d.action p t markers) := by
  cases d with
  | ask path w r => exact .atPart ht path fun u hu => .inquire hp hu w r
  | giveBack path address w r =>
    refine Tame.atPart ht path (a := fun u => .taken <$> w.giveBack (u.provider p) address r)
      fun u hu => ?_
    have hspares := (Tree.provider_spares p hu).giveBack address r w
    exact .of_spares (hspares.map Response.taken) (captured_map _ fun _ => rfl)
  | chore path c =>
    refine .atPart ht path fun u _ => ?_
    cases u with
    | stack =>
      intro s h hset
      have hown := hset s List.mem_cons_self
      exact ⟨.single (c.change hown),
        fun m hm => ⟨s, List.mem_cons_self, c.eq_top_of_captured hm⟩⟩
    | heap => exact .of_spares (.pure _) fun _ => rfl
    | budget => exact .of_spares (.pure _) fun _ => rfl
    | fallback first second => exact .of_spares (.pure _) fun _ => rfl
  | compare i k =>
    refine .of_spares (.pure _) fun st => ?_
    rw [action]
    cases markers[i]? <;> cases markers[k]? <;> rfl
  | write region offset length byte =>
    refine .of_spares (fun s h => ⟨rfl, fun n => ?_⟩) fun _ => rfl
    exact h.memory.extent?_fill region offset length n byte
  | install next => exact .of_spares (fun s h => ⟨rfl, fun _ => rfl⟩) fun _ => rfl
  | discard => exact absurd rfl hd

end Venture

/-! ## Serials in use -/

namespace Stack

variable {p : Platform} {gap : Nat} {s s' : Stack} {h h' : Host}

/-- `s.Issued markers`: all serials of the stack, those of its markers too, lie below the next. -/
structure Issued (s : Stack) (markers : List Marker) : Prop where
  blocks : ∀ blk ∈ s.blocks, blk.serial < s.nextSerial
  markers : ∀ m ∈ markers, m.stack = s.id → m.serial < s.nextSerial

/-- A stack whose blocks all had their serials before has no new ones. -/
theorem Issued.of_serials {markers : List Marker} (hs : s.Issued markers) (hid : s'.id = s.id)
    (hnext : s.nextSerial ≤ s'.nextSerial)
    (hblocks : ∀ blk' ∈ s'.blocks, ∃ blk ∈ s.blocks, blk'.serial = blk.serial) :
    s'.Issued markers := by
  constructor
  · intro blk' hblk'
    obtain ⟨blk, hblk, hserial⟩ := hblocks blk' hblk'
    have hlt := hs.blocks blk hblk
    omega
  · intro m hm hstack
    exact Nat.lt_of_lt_of_le (hs.markers m hm (hstack.trans hid)) hnext

theorem Bump.issued {markers : List Marker} {r : Request} {out : Except Fault (Option Nat)}
    (hs : s.Issued markers) (hbump : Bump p r s h (out, s', h')) : s'.Issued markers := by
  have hturned : ∀ {cursor outstanding : Nat},
      ({ s with current := { s.current with cursor }, outstanding } : Stack).Issued markers := by
    intro cursor outstanding
    refine hs.of_serials rfl (Nat.le_refl _) fun blk hblk => ?_
    rcases List.mem_cons.1 hblk with rfl | hold
    · exact ⟨s.current, s.current_mem_blocks, rfl⟩
    · exact ⟨blk, List.mem_cons_of_mem _ hold, rfl⟩
  cases hbump with
  | declined => exact hs
  | overdrawn => exact hturned
  | served => exact hturned

/-- A block that is put on top goes by the serial that was the next. -/
theorem Issued.push {markers : List Marker} (hs : s.Issued markers) {blk : Block}
    {others : List Block} (hserial : blk.serial = s.nextSerial)
    (hothers : ∀ other ∈ others, other ∈ s.cache) :
    (s.push blk others (s.nextSerial + 1)).Issued markers := by
  constructor
  · intro other hother
    show other.serial < s.nextSerial + 1
    rcases List.mem_append.1 hother with hactive | hcache
    · rcases List.mem_cons.1 hactive with rfl | hold
      · omega
      · exact Nat.lt_succ_of_lt (hs.blocks other (mem_blocks_of_active hold))
    · exact Nat.lt_succ_of_lt (hs.blocks other (mem_blocks_of_cache (hothers other hcache)))
  · exact fun m hm hstack => Nat.lt_succ_of_lt (hs.markers m hm hstack)

theorem Grow.issued {markers : List Marker} {required : Nat} {out : Except Fault Unit}
    (hroom : p.build = .debug ∨ s.nextSerial + 1 < Word.count) (hs : s.Issued markers)
    (hgrow : Grow p required s h (out, s', h')) : s'.Issued markers := by
  cases hgrow with
  | reused hserial hcache =>
    rw [nextSerial_eq hroom hserial]
    refine hs.push rfl fun other hother => ?_
    exact (takeCached?_spec hcache).2.subset (List.mem_cons_of_mem _ hother)
  | made hserial =>
    rw [nextSerial_eq hroom hserial]
    exact hs.push rfl fun other hother => hother
  | serialsOut => exact hs
  | noBlock hserial =>
    rw [nextSerial_eq hroom hserial]
    exact hs.of_serials rfl (Nat.le_succ _) fun blk hblk => ⟨blk, hblk, rfl⟩

/-- **A change leaves the serials in use below the next one**, as long as they last. -/
theorem Change.issued {markers : List Marker} {known : Marker → Prop}
    (hroom : p.build = .debug ∨ s.nextSerial + 1 < Word.count) (hs : s.Issued markers)
    (hchange : Change p known s h s' h') : s'.Issued markers := by
  cases hchange with
  | still => exact hs
  | served hserves =>
    exact hserves.keeps (P := fun s' _ => s'.Issued markers) hs (fun hgrow => hgrow.issued hroom hs)
      fun hs₁ hbump => hbump.issued hs₁
  | @unwound m =>
    obtain ⟨current, below, cache, capacity, outstanding, heq⟩ := unwound_eq m s
    refine hs.of_serials (by rw [heq]) (by rw [heq]) fun blk hblk => ?_
    obtain ⟨old, hold, cursor, rfl⟩ := mem_blocks_of_unwound hblk
    exact ⟨old, hold, rfl⟩
  | shrunk =>
    refine hs.of_serials rfl (Nat.le_refl _) fun blk hblk => ⟨blk, ?_, rfl⟩
    rcases List.mem_append.1 hblk with hactive | hnone
    · exact mem_blocks_of_active hactive
    · nomatch hnone

/-- The position of a stack is issued. -/
theorem Issued.top {markers : List Marker} (hs : s.Issued markers) :
    s.top.serial < s.nextSerial :=
  hs.blocks s.current s.current_mem_blocks

end Stack

/-! ## Orderly ventures -/

/-- `Orderly p gap n markers ss h`: after `n` moves the stacks stand abreast, go by different
    identities and are sturdy; where sums are checked, their books balance and they know all
    markers; and as long as the serials last, those in use are issued. -/
structure Orderly (p : Platform) (gap n : Nat) (markers : List Marker) (ss : List Stack)
    (h : Host) : Prop where
  abreast : Abreast gap ss h
  distinct : (ss.map Stack.id).Nodup
  sturdy : ∀ s ∈ ss, s.Sturdy
  booked : p.build = .debug → ∀ s ∈ ss, s.Balanced ∧ s.Ordered ∧ ∀ m ∈ markers, s.Knows m
  issued : n < Word.max → ∀ s ∈ ss, s.nextSerial ≤ n + 1 ∧ s.Issued markers

namespace Orderly

variable {p : Platform} {gap n : Nat} {markers known : List Marker} {ss ss' : List Stack}
  {h h' : Host}

/-- The stacks of an orderly venture are fit for requests. -/
theorem fit (ho : Orderly p gap n markers ss h) : ∀ s ∈ ss, s.Fit p gap h := fun s hs =>
  ⟨ho.abreast.settled s hs, ho.sturdy s hs, fun hdebug => (ho.booked hdebug s hs).1⟩

/-- Another stack goes by another identity. -/
theorem eq_of_id (ho : Orderly p gap n markers ss h) {s u : Stack} (hs : s ∈ ss) (hu : u ∈ ss)
    (hid : s.id = u.id) : s = u :=
  List.inj_on_of_nodup_map ho.distinct hs hu hid

/-- **Positions may be captured**: their own stack knows them, and to the others they are
    foreign. -/
theorem capture (ho : Orderly p gap n markers ss h) {new : List Marker}
    (hnew : ∀ m ∈ new, ∃ s ∈ ss, m = s.top) : Orderly p gap n (markers ++ new) ss h := by
  refine ⟨ho.abreast, ho.distinct, ho.sturdy, fun hdebug s hs => ?_, fun hfew s hs => ?_⟩
  · obtain ⟨hbalanced, hordered, hknows⟩ := ho.booked hdebug s hs
    refine ⟨hbalanced, hordered, fun m hm => ?_⟩
    rcases List.mem_append.1 hm with hold | hcaptured
    · exact hknows m hold
    · obtain ⟨u, hu, rfl⟩ := hnew m hcaptured
      intro hstack
      obtain rfl := ho.eq_of_id hu hs hstack
      exact knows_top hordered hbalanced hstack
  · obtain ⟨hle, hissued⟩ := ho.issued hfew s hs
    refine ⟨hle, hissued.blocks, fun m hm hstack => ?_⟩
    rcases List.mem_append.1 hm with hold | hcaptured
    · exact hissued.markers m hold hstack
    · obtain ⟨u, hu, rfl⟩ := hnew m hcaptured
      obtain rfl := ho.eq_of_id hu hs hstack
      exact hissued.top

/-- What a change of one stack keeps of it. -/
theorem stir (hp : p.Sound gap) (ho : Orderly p gap n markers ss h) (hknown : known ⊆ markers)
    (hstirred : Stirred p known ss h ss' h') : Orderly p gap (n + 1) markers ss' h' := by
  cases hstirred with
  | none hregions =>
    refine ⟨ho.abreast.of_regions hregions, ho.distinct, ho.sturdy, ho.booked, fun hfew s hs => ?_⟩
    obtain ⟨hle, hissued⟩ := ho.issued (Nat.lt_of_succ_lt hfew) s hs
    exact ⟨Nat.le_succ_of_le hle, hissued⟩
  | @stack left right s s' _ _ hchange =>
    have hmem : s ∈ left ++ s :: right := List.mem_append_right left List.mem_cons_self
    have hset := ho.abreast.settled s hmem
    have hmoves := hchange.moves hp hset
    -- What is true of the changed stack and was true of all is true of all.
    have hall : ∀ {P : Stack → Prop}, P s' → (∀ u ∈ left ++ s :: right, P u) →
        ∀ u ∈ left ++ s' :: right, P u := by
      intro P hs' hold u hu
      rcases List.mem_append.1 hu with hleft | hrest
      · exact hold u (List.mem_append_left _ hleft)
      · rcases List.mem_cons.1 hrest with rfl | hright
        · exact hs'
        · exact hold u (List.mem_append_right _ (List.mem_cons_of_mem s hright))
    refine ⟨ho.abreast.replace hmoves, ?_, ?_, ?_, ?_⟩
    · have hids : (left ++ s' :: right).map Stack.id = (left ++ s :: right).map Stack.id := by
        rw [List.map_append, List.map_append, List.map_cons, List.map_cons, hmoves.id_eq]
      rw [hids]
      exact ho.distinct
    · exact hall (hchange.sturdy hp (ho.sturdy s hmem)) ho.sturdy
    · intro hdebug
      obtain ⟨hbalanced, hordered, hknows⟩ := ho.booked hdebug s hmem
      have hshift := hchange.shift (Or.inl hdebug)
      refine hall ⟨?_, hshift.ordered hordered, fun m hm => hshift.knows (hknows m hm)⟩
        (ho.booked hdebug)
      refine hchange.balanced hp hset hbalanced ?_ fun m _ => Or.inl hdebug
      rintro m (hm | rfl)
      · exact hknows m (hknown hm)
      · exact knows_bottom hset.wellFormed hordered
    · intro hfew
      have hfew' : n < Word.max := Nat.lt_of_succ_lt hfew
      obtain ⟨hle, hissued⟩ := ho.issued hfew' s hmem
      have hroom : s.nextSerial + 1 < Word.count := by
        have hmax : Word.max + 1 = Word.count := by decide
        omega
      have hnext := hchange.nextSerial_le
      refine hall ⟨by omega, hchange.issued (Or.inr hroom) hissued⟩ fun u hu => ?_
      obtain ⟨hle, hissued⟩ := ho.issued hfew' u hu
      exact ⟨Nat.le_succ_of_le hle, hissued⟩

end Orderly

namespace Venture

variable {p : Platform} {gap n : Nat} {t : Tree} {v : Venture t}

/-- **A move keeps a venture orderly**, but for the last one. -/
theorem orderly_step (hp : p.Sound gap) (ht : t.Unbudgeted)
    (ho : Orderly p gap n v.markers v.leaves v.host) {d : Move} (hd : d ≠ .discard) :
    Orderly p gap (n + 1) (v.step p d).markers (v.step p d).leaves (v.step p d).host := by
  obtain ⟨hstirred, hcaptured⟩ := Move.tame hp ht hd v.state v.host ho.abreast.settled
  exact (ho.capture hcaptured).stir hp (List.subset_append_left _ _) hstirred

theorem orderly_run (hp : p.Sound gap) (ht : t.Unbudgeted)
    (ho : Orderly p gap n v.markers v.leaves v.host) {ds : List Move} (hds : .discard ∉ ds) :
    Orderly p gap (n + ds.length) (v.run p ds).markers (v.run p ds).leaves (v.run p ds).host := by
  induction ds generalizing v n with
  | nil => exact ho
  | cons d ds ih =>
    obtain ⟨hd, hds⟩ := not_or.1 (mt List.mem_cons.2 hds)
    rw [List.length_cons, Nat.add_comm ds.length 1, ← Nat.add_assoc]
    exact ih (orderly_step hp ht ho (Ne.symm hd)) hds

end Venture

/-! ## The start -/

namespace Recipe

variable {p : Platform} {gap : Nat} {h h' : Host}

/-- All stacks that a recipe makes are new, of configurations that were accepted. -/
theorem make_newborn {recipe : Recipe} (ht : recipe.tree.Unbudgeted) {s : recipe.tree.State}
    (hrun : recipe.make p h = .ok (.ok s) h') : ∀ st ∈ recipe.tree.stackLeaves s,
      ∃ c h₀ base, p.placeRegion h₀.memory.outline (Block.layoutOf c.initialBlock) = some base ∧
        c.validate = .ok () ∧ st = newborn c h₀ base := by
  induction recipe generalizing h h' with
  | stack c =>
    obtain ⟨base, hplace, hvalid, rfl, -⟩ := Stack.newborn_of_ofConfig hrun
    intro st hst
    rw [List.mem_singleton.1 hst]
    exact ⟨c, h, base, hplace, hvalid, rfl⟩
  | heap =>
    cases hrun
    nofun
  | budget => exact ht.elim
  | fallback first second ihfirst ihsecond =>
    obtain ⟨s, u⟩ := s
    obtain ⟨h₁, hfirst, hsecond⟩ := make_fallback hrun
    intro st hst
    rcases List.mem_append.1 hst with hleft | hright
    · exact ihfirst ht.1 hfirst st hleft
    · exact ihsecond ht.2 hsecond st hright

/-- They go by the identities that were taken meanwhile, each by its own. -/
theorem make_ids {recipe : Recipe} (ht : recipe.tree.Unbudgeted) {s : recipe.tree.State}
    (hrun : recipe.make p h = .ok (.ok s) h') : h.lastId ≤ h'.lastId ∧
      ((recipe.tree.stackLeaves s).map Stack.id).Nodup ∧
      ∀ st ∈ recipe.tree.stackLeaves s, h.lastId < st.id.value ∧ st.id.value ≤ h'.lastId := by
  induction recipe generalizing h h' with
  | stack c =>
    obtain ⟨base, -, -, rfl, rfl⟩ := Stack.newborn_of_ofConfig hrun
    refine ⟨Nat.le_succ _, List.nodup_singleton _, fun st hst => ?_⟩
    rw [List.mem_singleton.1 hst]
    exact ⟨Nat.lt_succ_self _, Nat.le_refl _⟩
  | heap =>
    cases hrun
    exact ⟨Nat.le_refl _, List.nodup_nil, nofun⟩
  | budget => exact ht.elim
  | fallback first second ihfirst ihsecond =>
    obtain ⟨s, u⟩ := s
    obtain ⟨h₁, hfirst, hsecond⟩ := make_fallback hrun
    obtain ⟨hle, hnodup, hbetween⟩ := ihfirst ht.1 hfirst
    obtain ⟨hle', hnodup', hbetween'⟩ := ihsecond ht.2 hsecond
    refine ⟨Nat.le_trans hle hle', ?_, fun st hst => ?_⟩
    · show ((first.tree.stackLeaves s ++ second.tree.stackLeaves u).map Stack.id).Nodup
      rw [List.map_append]
      refine hnodup.append hnodup' ?_
      -- The identities of the second side were taken after those of the first.
      intro id hid hid'
      obtain ⟨st, hst, rfl⟩ := List.mem_map.1 hid
      obtain ⟨st', hst', heq⟩ := List.mem_map.1 hid'
      have hfirst := (hbetween st hst).2
      have hsecond := (hbetween' st' hst').1
      rw [heq] at hsecond
      omega
    · rcases List.mem_append.1 hst with hleft | hright
      · obtain ⟨hlow, hhigh⟩ := hbetween st hleft
        exact ⟨hlow, Nat.le_trans hhigh hle'⟩
      · obtain ⟨hlow, hhigh⟩ := hbetween' st hright
        exact ⟨Nat.lt_of_le_of_lt hle hlow, hhigh⟩

/-- **What a recipe makes is orderly.** -/
theorem make_orderly (hp : p.Sound gap) {recipe : Recipe} (ht : recipe.tree.Unbudgeted)
    {s : recipe.tree.State} (hspaced : h.memory.Spaced gap)
    (hrun : recipe.make p h = .ok (.ok s) h') :
    Orderly p gap 0 [] (recipe.tree.stackLeaves s) h' := by
  have hnewborn := make_newborn ht hrun
  refine ⟨(make_abreast hp ht hspaced hrun).1, (make_ids ht hrun).2.1, ?_, ?_, ?_⟩
  · intro st hst
    obtain ⟨c, h₀, base, hplace, hvalid, rfl⟩ := hnewborn st hst
    exact newborn_sturdy hp hvalid hplace
  · intro _ st hst
    obtain ⟨c, h₀, base, -, -, rfl⟩ := hnewborn st hst
    exact ⟨rfl, newborn_ordered c h₀ base, nofun⟩
  · intro _ st hst
    obtain ⟨c, h₀, base, -, -, rfl⟩ := hnewborn st hst
    refine ⟨Nat.le_refl _, fun blk hblk => ?_, nofun⟩
    rw [List.mem_singleton.1 hblk]
    exact Nat.zero_lt_one

end Recipe

end StackArena
