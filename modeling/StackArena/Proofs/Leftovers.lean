/-
  What the cursors of cached blocks are good for: nothing.

  A block that goes to the cache keeps the cursor that it had.  Nothing ever reads that cursor again,
  since a block that is taken out of the cache is emptied first.

  1. Two stacks are the same but for leftover cursors if they are the same with all of them cleared
     (`Stack.stripped`).
  2. Every operation echoes itself on such stacks (`Stack.Echoes`): with the same host it comes to
     the same, and to stacks that are the same but for leftover cursors again.  The proof about an
     operation has the shape of the operation.  This asks for more than `Action.Agree` does, which
     takes faults up to the serials that they show.
  3. So no run of moves tells such stacks apart (`Venture.responses_of_stripped`).
-/
import StackArena.Proofs.Renumbering
import StackArena.Proofs.Ventures

namespace StackArena

open StackArena.Action

variable {α β : Type}

namespace Stack

/-- The stack with the leftover cursors of its cached blocks cleared. -/
def stripped (s : Stack) : Stack := { s with cache := s.cache.map Block.reset }

/-- Stacks that are the same but for leftover cursors differ in nothing but the cache. -/
theorem eq_of_stripped {s t : Stack} (hst : s.stripped = t.stripped) :
    ∃ cache, s.cache.map Block.reset = cache.map Block.reset ∧ t = { s with cache } := by
  obtain ⟨id, current, below, cache, growth, retention, fill, capacity, outstanding, nextSerial,
    bottom⟩ := s
  obtain ⟨id', current', below', cache', growth', retention', fill', capacity', outstanding',
    nextSerial', bottom'⟩ := t
  simp only [stripped, mk.injEq] at hst
  obtain ⟨rfl, rfl, rfl, hcache, rfl, rfl, rfl, rfl, rfl, rfl, rfl⟩ := hst
  exact ⟨cache', hcache, rfl⟩

/-- `Echo end end'`: the same value or fault, on the same host, in stacks that are the same but for
    leftover cursors. -/
inductive Echo : EStateM.Result Fault (Stack × Host) α → EStateM.Result Fault (Stack × Host) α → Prop
  | ok {x : α} {s t : Stack} {h : Host} (hst : s.stripped = t.stripped) :
      Echo (.ok x (s, h)) (.ok x (t, h))
  | error {f : Fault} {s t : Stack} {h : Host} (hst : s.stripped = t.stripped) :
      Echo (.error f (s, h)) (.error f (t, h))

/-- `Echoes a b`: from stacks that are the same but for leftover cursors, and on the same host, the
    two actions end the same. -/
def Echoes (a b : Action Stack α) : Prop :=
  ∀ s t h, s.stripped = t.stripped → Echo (a (s, h)) (b (t, h))

namespace Echoes

/-! ## Steps -/

protected theorem pure (x : α) : Echoes (pure x) (pure x) := fun _ _ _ hst => .ok hst

protected theorem throw (f : Fault) : Echoes (throw f : Action Stack α) (throw f) :=
  fun _ _ _ hst => .error hst

protected theorem bind {a b : Action Stack α} {f g : α → Action Stack β} (hab : Echoes a b)
    (hfg : ∀ x, Echoes (f x) (g x)) : Echoes (a >>= f) (b >>= g) := by
  intro s t h hst
  have hends := hab s t h hst
  show Echo (EStateM.bind a f (s, h)) (EStateM.bind b g (t, h))
  unfold EStateM.bind
  generalize a (s, h) = left at hends ⊢
  generalize b (t, h) = right at hends ⊢
  cases hends with
  | ok hst' => exact hfg _ _ _ _ hst'
  | error hst' => exact .error hst'

protected theorem map {a b : Action Stack α} (hab : Echoes a b) (f : α → β) :
    Echoes (f <$> a) (f <$> b) := by
  intro s t h hst
  have hends := hab s t h hst
  show Echo (EStateM.map f a (s, h)) (EStateM.map f b (t, h))
  unfold EStateM.map
  generalize a (s, h) = left at hends ⊢
  generalize b (t, h) = right at hends ⊢
  cases hends with
  | ok hst' => exact .ok hst'
  | error hst' => exact .error hst'

theorem ite {c : Prop} [Decidable c] {a b a' b' : Action Stack α} (hpos : Echoes a b)
    (hneg : Echoes a' b') : Echoes (if c then a else a') (if c then b else b') := by
  by_cases hc : c
  · rw [if_pos hc, if_pos hc]
    exact hpos
  · rw [if_neg hc, if_neg hc]
    exact hneg

/-- An operation that looks at its stack finds another cache on the other side, the same one but for
    leftover cursors. -/
theorem look {f g : Stack → Action Stack α}
    (hfg : ∀ s cache, s.cache.map Block.reset = cache.map Block.reset →
      Echoes (f s) (g { s with cache })) : Echoes (self >>= f) (self >>= g) := by
  intro s t h hst
  obtain ⟨cache, hcache, rfl⟩ := eq_of_stripped hst
  exact hfg s cache hcache s _ h hst

protected theorem setSelf {s t : Stack} (hst : s.stripped = t.stripped) :
    Echoes (setSelf s) (setSelf t) := fun _ _ _ _ => .ok hst

/-- The other side keeps its cache. -/
theorem setSelf_cache (s : Stack) {cache : List Block}
    (hcache : s.cache.map Block.reset = cache.map Block.reset) :
    Echoes (Action.setSelf s) (Action.setSelf { s with cache }) :=
  .setSelf (congrArg (fun cache => ({ s with cache } : Stack)) hcache)

protected theorem check (x : Except Fault α) :
    Echoes (liftM x : Action Stack α) (liftM x) := by
  intro s t h hst
  cases x with
  | ok x => exact .ok hst
  | error f => exact .error hst

protected theorem onHost (a : HostAction α) : Echoes (liftM a : Action Stack α) (liftM a) := by
  intro s t h hst
  show Echo (Action.onHost a (s, h)) (Action.onHost a (t, h))
  unfold Action.onHost
  dsimp only
  cases a h with
  | ok x h' => exact .ok hst
  | error f h' => exact .error hst

protected theorem ensuring {body body' : Action Stack α} {cleanup cleanup' : Action Stack Unit}
    (hbody : Echoes body body') (hcleanup : Echoes cleanup cleanup') :
    Echoes (Action.ensuring body cleanup) (Action.ensuring body' cleanup') := by
  intro s t h hst
  have hends := hbody s t h hst
  unfold Action.ensuring
  generalize body (s, h) = left at hends ⊢
  generalize body' (t, h) = right at hends ⊢
  cases hends with
  | @ok x s t h hst' =>
    have hlast := hcleanup s t h hst'
    dsimp only
    generalize cleanup (s, h) = left at hlast ⊢
    generalize cleanup' (t, h) = right at hlast ⊢
    cases hlast with
    | ok hst'' => exact .ok hst''
    | error hst'' => exact .error hst''
  | @error f s t h hst' =>
    have hlast := hcleanup s t h hst'
    dsimp only
    split
    · exact .error hst'
    · generalize cleanup (s, h) = left at hlast ⊢
      generalize cleanup' (t, h) = right at hlast ⊢
      cases hlast with
      | ok hst'' => exact .error hst''
      | error hst'' => exact .error hst''

/-- Two actions that echo each other, seen from the end. -/
protected theorem after {a b : Action Stack α} (hab : Echoes a b) {s t : Stack}
    (hst : s.stripped = t.stripped) (h : Host) : ∃ out s' t' h', s'.stripped = t'.stripped ∧
      Action.after a (s, h) = (out, s', h') ∧ Action.after b (t, h) = (out, t', h') := by
  have hends := hab s t h hst
  unfold Action.after
  generalize a (s, h) = left at hends ⊢
  generalize b (t, h) = right at hends ⊢
  cases hends with
  | ok hst' => exact ⟨_, _, _, _, hst', rfl, rfl⟩
  | error hst' => exact ⟨_, _, _, _, hst', rfl, rfl⟩

end Echoes

/-! ## Requests -/

variable {p : Platform} {r : Request}

theorem commit_echoes (a : Allocation) (size : Nat) : Echoes (commit p a size) (commit p a size) := by
  refine .look fun s cache hcache => ?_
  refine .bind (.check _) fun outstanding => ?_
  refine .bind (.setSelf_cache _ hcache) fun _ => ?_
  refine .ite (.bind (.check _) fun start => ?_) (.pure _)
  exact .bind (.onHost _) fun _ => .pure _

theorem bump_echoes : Echoes (bump p r) (bump p r) := by
  refine .look fun s cache hcache => ?_
  refine .bind (.check _) fun found => ?_
  cases found with
  | none => exact .pure _
  | some served =>
    refine .bind (.setSelf_cache { s with current := served.2 } hcache) fun _ => ?_
    exact .bind (commit_echoes served.1 r.size) fun address => .pure _

/-- Blocks that are the same but for their cursors are the same when they are used again. -/
theorem recycle_of_reset {blk other : Block} (hsame : blk.reset = other.reset) (serial : Nat) :
    blk.recycle serial = other.recycle serial := by
  rw [Block.recycle, Block.recycle, hsame]

/-- A block is taken from the caches of both sides, or from neither. -/
theorem obtain_echoes (required serial : Nat) :
    Echoes (Stack.obtain p required serial) (Stack.obtain p required serial) := by
  refine .look fun s cache hcache => ?_
  -- The search looks at capacities only, so it stops at the same place on both sides.
  have htaken : (takeCached? required s.cache).map (Prod.map Block.reset (List.map Block.reset))
      = (takeCached? required cache).map (Prod.map Block.reset (List.map Block.reset)) := by
    rw [← takeCached?_map Block.reset (fun _ => rfl), hcache,
      takeCached?_map Block.reset (fun _ => rfl)]
  dsimp only
  generalize takeCached? required s.cache = left at htaken ⊢
  generalize takeCached? required cache = right at htaken ⊢
  cases left with
  | none =>
    cases right with
    | none => exact .bind (.onHost _) fun _ => .onHost _
    | some found => nomatch htaken
  | some found =>
    cases right with
    | none => nomatch htaken
    | some other =>
      obtain ⟨hblock, hothers⟩ := Prod.mk.inj (Option.some.inj htaken)
      refine .bind (.setSelf_cache { s with cache := found.2 } hothers) fun _ => ?_
      rw [recycle_of_reset hblock]
      exact .pure _

theorem grow_echoes (required : Nat) : Echoes (grow p required) (grow p required) := by
  refine .look fun s cache hcache => ?_
  refine .bind (.check _) fun nextSerial => ?_
  refine .bind (.setSelf_cache { s with nextSerial } hcache) fun _ => ?_
  refine .bind (obtain_echoes required s.nextSerial) fun blk => ?_
  refine .look fun s₁ cache₁ hcache₁ => ?_
  refine .bind (.check _) fun capacity => ?_
  exact .setSelf_cache { s₁ with current := blk, below := s₁.active, capacity } hcache₁

theorem tryAllocate_echoes : Echoes (tryAllocate p r) (tryAllocate p r) :=
  .bind (.check _) fun _ => bump_echoes

theorem allocate_echoes : Echoes (allocate p r) (allocate p r) := by
  refine .bind (.check _) fun _ => .bind bump_echoes fun found => ?_
  cases found with
  | some address => exact .pure _
  | none =>
    cases r.room? with
    | none => exact .throw _
    | some required =>
      refine .bind (grow_echoes required) fun _ => .bind bump_echoes fun found => ?_
      cases found with
      | some address => exact .pure _
      | none => exact .throw _

theorem offer_echoes : Echoes (offer p r) (offer p r) := by
  refine .ite (.pure _) (.bind tryAllocate_echoes fun found => ?_)
  cases found with
  | some address => exact .pure _
  | none => exact .look fun s cache hcache => .bind (.check _) fun available => .pure _

/-! ## Unwinds -/

theorem releaseCurrent_echoes : Echoes (releaseCurrent p) (releaseCurrent p) := by
  refine .look fun s cache hcache => ?_
  dsimp only
  cases s.below with
  | nil => exact .pure _
  | cons next below =>
    refine .bind (.check _) fun capacity => ?_
    refine .bind (.setSelf_cache { s with current := next, below, capacity } hcache) fun _ => ?_
    refine .ite (.bind (.onHost _) fun _ => ?rest) ?rest
    cases s.retention with
    | release => exact .onHost _
    | cache =>
      refine .look fun s₁ cache₁ hcache₁ => ?_
      refine .setSelf_cache { s₁ with cache := s.current :: s₁.cache } ?_
      exact congrArg (s.current.reset :: ·) hcache₁

theorem releaseBlocks_echoes (n : Nat) : Echoes (releaseBlocks p n) (releaseBlocks p n) := by
  induction n with
  | zero => exact .pure _
  | succ n ih => exact .bind releaseCurrent_echoes fun _ => ih

theorem rewindCurrent_echoes (offset : Nat) :
    Echoes (rewindCurrent p offset) (rewindCurrent p offset) := by
  refine .look fun s cache hcache => ?_
  have hlast : Echoes
      (do
        let current ← s.current.rewind p.build (min offset s.current.cursor)
        setSelf { s with current })
      (do
        let current ← s.current.rewind p.build (min offset s.current.cursor)
        setSelf { s with current, cache }) :=
    .bind (.check _) fun current => .setSelf_cache { s with current } hcache
  exact .ite (.bind (.check _) fun length => .bind (.onHost _) fun _ => hlast) hlast

theorem unwind_echoes (m : Marker) : Echoes (unwind p m) (unwind p m) := by
  refine .look fun s cache hcache => ?_
  refine .bind (.check (s.checkMarker p.build m)) fun _ => ?_
  refine .bind (releaseBlocks_echoes _) fun _ => ?_
  have hlast : Echoes
      (do
        rewindCurrent p m.offset
        let s ← self
        setSelf { s with outstanding := min m.outstanding s.outstanding })
      (do
        rewindCurrent p m.offset
        let s ← self
        setSelf { s with outstanding := min m.outstanding s.outstanding }) := by
    refine .bind (rewindCurrent_echoes m.offset) fun _ => .look fun s₁ cache₁ hcache₁ => ?_
    exact .setSelf_cache { s₁ with outstanding := min m.outstanding s₁.outstanding } hcache₁
  exact .ite (.bind (.onHost _) fun _ => hlast) hlast

theorem unwindAll_echoes : Echoes (unwindAll p) (unwindAll p) :=
  .look fun s _ _ => unwind_echoes s.bottom

/-! ## Reports, trimming and the end -/

theorem reportLeaks_echoes : Echoes (reportLeaks p) (reportLeaks p) := by
  refine .look fun s cache hcache => ?_
  exact .ite (.bind (.onHost _) fun _ => .pure _) (.pure _)

/-- Blocks are freed by their regions, so cursors do not matter. -/
theorem freeBlocks_of_reset {blks others : List Block}
    (hsame : blks.map Block.reset = others.map Block.reset) : freeBlocks blks = freeBlocks others := by
  induction blks generalizing others with
  | nil =>
    obtain rfl := List.map_eq_nil_iff.1 hsame.symm
    rfl
  | cons blk rest ih =>
    obtain ⟨other, more, rfl, hblock, hrest⟩ := List.map_eq_cons_iff.1 hsame.symm
    have hfree : blk.reset.free = other.reset.free := congrArg Block.free hblock.symm
    rw [freeBlocks, freeBlocks, ih hrest.symm]
    exact congrArg (· >>= fun _ => freeBlocks more) hfree

theorem shrink_echoes : Echoes shrink shrink := by
  refine .look fun s cache hcache => ?_
  have hlength : s.cache.length = cache.length := by
    rw [← List.length_map Block.reset, hcache, List.length_map]
  have hempty : s.cache.isEmpty = cache.isEmpty := by
    rw [Bool.eq_iff_iff, List.isEmpty_iff_length_eq_zero, List.isEmpty_iff_length_eq_zero, hlength]
  have hfree : freeBlocks s.cache.reverse = freeBlocks cache.reverse := by
    refine freeBlocks_of_reset ?_
    rw [List.map_reverse, List.map_reverse, hcache]
  dsimp only
  rw [hlength, hempty, hfree]
  exact .ite (.bind (.onHost _) fun _ => .bind (.setSelf rfl) fun _ => .onHost _)
    (.bind (.setSelf rfl) fun _ => .onHost _)

theorem discard_echoes : Echoes (discard p) (discard p) := by
  refine .ensuring (.bind reportLeaks_echoes fun _ => .pure _) (.look fun s cache hcache => ?_)
  have hfree : freeBlocks (s.active.reverse ++ s.cache.reverse)
      = freeBlocks (s.active.reverse ++ cache.reverse) := by
    refine freeBlocks_of_reset ?_
    simp only [List.map_append, List.map_reverse, hcache]
  dsimp only
  rw [hfree]
  exact .onHost _

/-! ## As a provider -/

theorem inquire_echoes (r : Request) (w : Way) :
    Echoes (w.inquire (provider p) r) (w.inquire (provider p) r) := by
  obtain ⟨_ | _, _ | count⟩ := w
  · exact allocate_echoes.map _
  · refine .map ?_ _
    show Echoes ((provider p).allocateArray count r) ((provider p).allocateArray count r)
    dsimp only [provider]
    cases arraySize count r.size with
    | ok total => exact allocate_echoes
    | error cause => exact .throw _
  · exact offer_echoes.map _
  · refine .map ?_ _
    show Echoes ((provider p).tryAllocateArray count r) ((provider p).tryAllocateArray count r)
    dsimp only [provider]
    cases arraySize count r.size with
    | ok total => exact offer_echoes
    | error cause => exact .pure _

/-- Which addresses a stack owns is a matter of its active blocks. -/
theorem tryDeallocate_echoes (address : Nat) (r : Request) :
    Echoes ((provider p).tryDeallocate address r) ((provider p).tryDeallocate address r) :=
  .look fun s _ _ => .check (s.owns p.build address)

theorem giveBack_echoes (address : Nat) (r : Request) (w : Way) :
    Echoes (w.giveBack (provider p) address r) (w.giveBack (provider p) address r) := by
  obtain ⟨_ | _, _ | count⟩ := w
  · exact .map (.pure _) _
  · exact .map (.bind (.check _) fun _ => .pure _) _
  · exact tryDeallocate_echoes address r
  · show Echoes ((provider p).tryDeallocateArray address count r)
      ((provider p).tryDeallocateArray address count r)
    dsimp only [provider]
    cases Word.mul? count r.size with
    | some total => exact tryDeallocate_echoes address ⟨total, r.alignment⟩
    | none => exact .pure _

end Stack

/-! ## Runs -/

namespace Venture

open Stack

variable {p : Platform}

theorem Chore.echoes (c : Chore) (markers : List Marker) :
    Echoes (c.action p markers) (c.action p markers) := by
  cases c with
  | tryAllocate r => exact tryAllocate_echoes.map _
  | top => exact .look fun s _ _ => .pure _
  | unwind k =>
    rw [action]
    cases markers[k]? with
    | none => exact .pure _
    | some m => exact (unwind_echoes m).map _
  | unwindAll => exact unwindAll_echoes.map _
  | shrink => exact shrink_echoes.map _
  | reportLeaks => exact reportLeaks_echoes.map _

/-- The only part of a stack is the stack. -/
theorem atPart_echoes (path : List Side) {a : (u : Tree) → Action u.State Response}
    (ha : Echoes (a .stack) (a .stack)) :
    Echoes (Tree.stack.atPart path a) (Tree.stack.atPart path a) := by
  cases path with
  | cons side path =>
    have hnone : Tree.stack.part? (side :: path) = none := by cases side <;> rfl
    rw [Tree.atPart, hnone]
    exact .pure _
  | nil =>
    have hwhole : Tree.stack.atPart [] a = a .stack := by
      funext (s, h)
      show Action.zoom (fun s => s) (fun s _ => s) (a .stack) (s, h) = a .stack (s, h)
      unfold Action.zoom
      dsimp only
      cases a .stack (s, h) <;> rfl
    rw [hwhole]
    exact ha

/-- **A move** comes to the same, whatever cursors the cached blocks were left with. -/
theorem Move.echoes (d : Move) (markers : List Marker) :
    Echoes (d.action p .stack markers) (d.action p .stack markers) := by
  cases d with
  | ask path w r =>
    exact atPart_echoes path (a := fun u => w.inquire (u.provider p) r) (inquire_echoes r w)
  | giveBack path address w r =>
    exact atPart_echoes path (a := fun u => .taken <$> w.giveBack (u.provider p) address r)
      ((giveBack_echoes address r w).map _)
  | chore path c =>
    exact atPart_echoes path (a := Tree.onStack (c.action p markers)) (c.echoes markers)
  | compare i k => exact .pure _
  | write region offset length byte =>
    exact .map (.onHost (Host.fill region offset length byte)) _
  | install next => exact .map (.onHost (Host.install next)) _
  | discard => exact discard_echoes.map _

/-- **Leftover cursors cannot be observed**: stacks that are the same but for them answer alike,
    whatever moves are made. -/
theorem responses_of_stripped {s t : Stack} (hst : s.stripped = t.stripped) (h : Host)
    (markers : List Marker) (ds : List Move) :
    (⟨h, s, markers⟩ : Venture .stack).responses p ds
      = (⟨h, t, markers⟩ : Venture .stack).responses p ds := by
  induction ds generalizing s t h markers with
  | nil => rfl
  | cons d ds ih =>
    -- The move comes to the same on both sides, and the rest starts from stacks of the same kind.
    obtain ⟨out, s', t', h', hst', hleft, hright⟩ := (d.echoes (p := p) markers).after hst h
    have hact : ∀ {s s' : Stack}, Action.after (d.action p .stack markers) (s, h) = (out, s', h') →
        (⟨h, s, markers⟩ : Venture .stack).act p d = (out, ⟨h', s', markers ++ captured out⟩) :=
      fun hrun => congrArg (fun last : Except Fault Response × Stack × Host =>
        (last.1, (⟨last.2.2, last.2.1, markers ++ captured last.1⟩ : Venture .stack))) hrun
    rw [responses, responses, step, step, hact hleft, hact hright, ih hst']

end Venture

end StackArena
