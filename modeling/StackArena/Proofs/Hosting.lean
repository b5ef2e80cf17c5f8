/-
  What the actions on the host leave alone.

  A host action is **quiet** when it touches neither memory nor the counter of identities, however
  it ends.  Notes, events and leak reports are quiet: a handler may write, install and report as it
  likes, and the induction on its conduct, inside the one on the depth of nested reports, shows
  that nothing else comes of it.  Making a block is the one action that puts a region into memory.
-/
import StackArena.Proofs.Extents
import StackArena.Block.Basic

namespace StackArena

/-! ## Quiet actions -/

/-- `h.Still h'`: memory and identities are the same in both. -/
def Host.Still (h h' : Host) : Prop := h'.memory = h.memory ∧ h'.lastId = h.lastId

theorem Host.Still.refl (h : Host) : h.Still h := ⟨rfl, rfl⟩

theorem Host.Still.trans {h₁ h₂ h₃ : Host} (h : h₁.Still h₂) (h' : h₂.Still h₃) : h₁.Still h₃ :=
  ⟨h'.1.trans h.1, h'.2.trans h.2⟩

/-- The state at the end of an action, whether it ends with a value or with a fault. -/
def HostAction.end (a : HostAction α) (h : Host) : Host :=
  match a h with
  | .ok _ h => h
  | .error _ h => h

/-- An action that never touches memory or identities. -/
def HostAction.Quiet (a : HostAction α) : Prop := ∀ h : Host, h.Still (HostAction.end a h)

namespace HostAction

variable {α β : Type}

theorem end_of_ok {a : HostAction α} {h h' : Host} {x : α} (hr : a h = .ok x h') :
    HostAction.end a h = h' := by
  rw [HostAction.end, hr]

theorem end_of_error {a : HostAction α} {h h' : Host} {f : Fault} (hr : a h = .error f h') :
    HostAction.end a h = h' := by
  rw [HostAction.end, hr]

/-- What every step brings about between its start and its end, two steps do, if it can be put
    together. -/
theorem end_bind {R : Host → Host → Prop} (htrans : ∀ {h₁ h₂ h₃}, R h₁ h₂ → R h₂ h₃ → R h₁ h₃)
    {a : HostAction α} {f : α → HostAction β} (ha : ∀ h, R h (HostAction.end a h))
    (hf : ∀ x h, R h (HostAction.end (f x) h)) (h : Host) : R h (HostAction.end (a >>= f) h) := by
  have hfirst := ha h
  cases hr : a h with
  | ok x h₁ =>
    rw [end_of_ok hr] at hfirst
    rw [HostAction.end, Action.bind_of_ok hr]
    exact htrans hfirst (hf x h₁)
  | error e h₁ =>
    rw [end_of_error hr] at hfirst
    rw [end_of_error (Action.bind_of_error hr)]
    exact hfirst

theorem Quiet.pure (x : α) : Quiet (pure x : HostAction α) := fun h => Host.Still.refl h

theorem Quiet.throw (f : Fault) : Quiet (throw f : HostAction α) := fun h => Host.Still.refl h

theorem Quiet.bind {a : HostAction α} {f : α → HostAction β} (ha : Quiet a)
    (hf : ∀ x, Quiet (f x)) : Quiet (a >>= f) :=
  end_bind (R := Host.Still) (fun hfirst hrest => hfirst.trans hrest) ha hf

end HostAction

namespace Host

open HostAction

/-! ## Notes and reports are quiet -/

theorem note_quiet (n : Note) : Quiet (note n) := fun _ => ⟨rfl, rfl⟩

theorem install_quiet (next : Handler) : Quiet (install next) := fun _ => ⟨rfl, rfl⟩

theorem keep_quiet (memo : Memo) : Quiet (keep memo) := fun _ => ⟨rfl, rfl⟩

/-- A conduct is carried out quietly if reports are made quietly. -/
theorem carryOut_quiet {report : AllocatorInfo → Nat → HostAction Unit}
    (hreport : ∀ who amount, Quiet (report who amount)) (c : Conduct) :
    Quiet (carryOut report c) := by
  induction c with
  | done => exact Quiet.pure ()
  | write n rest ih => exact (note_quiet n).bind fun _ => ih
  | install next rest ih => exact (install_quiet next).bind fun previous => ih previous
  | report who amount rest ih => exact (hreport who amount).bind fun _ => ih
  | consult rest ih => exact fun h => ih h.hook.memo h
  | keep memo rest ih => exact (keep_quiet memo).bind fun _ => ih
  | refuse text => exact Quiet.throw _

theorem call_quiet (p : Platform) (depth : Nat) (handler : Handler) (who : AllocatorInfo)
    (amount : Nat) : Quiet (call p depth handler who amount) := by
  induction depth generalizing handler who amount with
  | zero => exact Quiet.throw _
  | succ depth ih =>
    -- What the handler reports in its turn is one level further down.
    refine (note_quiet _).bind fun _ => carryOut_quiet (fun who amount => ?_) _
    exact fun h => ih h.handler who amount h

/-- **Leak reports are quiet**, whatever the handlers do. -/
theorem reportLeak_quiet (p : Platform) (who : AllocatorInfo) (amount : Nat) :
    Quiet (reportLeak p who amount) :=
  fun h => call_quiet p p.reportDepth h.handler who amount h

/-! ## Overwriting and making -/

/-- The host after bytes of a region were overwritten. -/
def filled (h : Host) (number offset length : Nat) (byte : UInt8) : Host :=
  { h with memory := h.memory.fill number offset length byte }

@[simp] theorem extent?_filled (h : Host) (number offset length n : Nat) (byte : UInt8) :
    (h.filled number offset length byte).memory.extent? n = h.memory.extent? n :=
  h.memory.extent?_fill number offset length n byte

/-- The host after a region was made and noted. -/
def withRegion (h : Host) (p : Platform) (base : Nat) (l : Layout) : Host :=
  { h with
    memory := h.memory.addRegion base l (p.scrap h.memory.nextRegion)
    journal := h.journal ++ [.made h.memory.nextRegion l.size] }

theorem makeRegion_of_none {p : Platform} {l : Layout} {h : Host}
    (hb : p.placeRegion h.memory.outline l = none) :
    makeRegion p l h = .error (.heapExhausted l.size l.alignment) h := by
  have hget : (get : HostAction Host) h = .ok h h := rfl
  rw [makeRegion, Action.bind_of_ok hget, hb]
  rfl

theorem makeRegion_of_some {p : Platform} {l : Layout} {h : Host} {base : Nat}
    (hb : p.placeRegion h.memory.outline l = some base) :
    makeRegion p l h = .ok (h.memory.nextRegion, base) (h.withRegion p base l) := by
  have hget : (get : HostAction Host) h = .ok h h := rfl
  rw [makeRegion, Action.bind_of_ok hget, hb]
  rfl

end Host

namespace Block

/-- The layout of the region of a block. -/
def layoutOf (capacity : Nat) : Layout := ⟨capacity, Alignment.maxNatural⟩

/-- The heap accepts this layout up to the largest capacity of a block. -/
theorem layout?_eq (capacity : Nat) :
    (Request.mk capacity Alignment.maxNatural).layout?
      = if capacity ≤ Nat.pow 2 63 - Alignment.maxNatural then some (layoutOf capacity) else none := by
  have hvalid : Alignment.isValid Alignment.maxNatural = true := by decide
  unfold Request.layout?
  simp only [hvalid, Bool.true_and, decide_eq_true_eq]
  rfl

/-- The extent that the region of a block has as long as the block is there. -/
def extent (blk : Block) : Extent := ⟨blk.base, layoutOf blk.capacity, true⟩

/-- A range inside a block is overwritten; the checks of `fill` pass. -/
theorem fill_apply (blk : Block) {offset length : Nat} (byte : UInt8) (h : Host)
    (hin : offset + length ≤ blk.capacity) (hcap : blk.capacity < Word.count) :
    blk.fill offset length byte h = .ok () (h.filled blk.region offset length byte) := by
  have hword : Word.add? offset length = some (offset + length) := by
    rw [Word.add?, if_pos (by omega)]
  simp only [fill, hword, if_pos hin]
  rfl

/-- `Denied p capacity h f`: why no block of a capacity can be had, and the fault that says so. -/
inductive Denied (p : Platform) (capacity : Nat) (h : Host) : Fault → Prop
  | empty (hzero : capacity = 0) : Denied p capacity h .emptyBlock
  | tooLarge (hlarge : Nat.pow 2 63 - Alignment.maxNatural < capacity) :
      Denied p capacity h (.blockTooLarge capacity)
  | exhausted (hplace : p.placeRegion h.memory.outline (layoutOf capacity) = none) :
      Denied p capacity h (.heapExhausted capacity Alignment.maxNatural)

/-- A block is made in a new region, if its capacity is one that a layout may have, or it is denied
    and nothing happens to memory. -/
theorem make_cases (p : Platform) (capacity serial : Nat) (h : Host) :
    (∃ base, p.placeRegion h.memory.outline (layoutOf capacity) = some base ∧
      make p capacity serial h = .ok ⟨h.memory.nextRegion, base, capacity, 0, serial⟩
        (h.withRegion p base (layoutOf capacity)) ∧
      capacity ≤ Nat.pow 2 63 - Alignment.maxNatural) ∨
    (∃ f, make p capacity serial h = .error f h ∧ Denied p capacity h f) := by
  unfold make
  by_cases hzero : capacity = 0
  · rw [if_pos hzero]
    exact Or.inr ⟨_, rfl, .empty hzero⟩
  · rw [if_neg hzero]
    rw [layout?_eq]
    by_cases hsmall : capacity ≤ Nat.pow 2 63 - Alignment.maxNatural
    · rw [if_pos hsmall]
      cases hb : p.placeRegion h.memory.outline (layoutOf capacity) with
      | none =>
        exact Or.inr ⟨_, Action.bind_of_error (Host.makeRegion_of_none hb), .exhausted hb⟩
      | some base =>
        exact Or.inl ⟨base, rfl, Action.bind_of_ok (Host.makeRegion_of_some hb), hsmall⟩
    · rw [if_neg hsmall]
      exact Or.inr ⟨_, rfl, .tooLarge (Nat.not_le.1 hsmall)⟩

/-- Making a block stops for no other reason than that it is denied. -/
theorem denied_of_error {p : Platform} {capacity serial : Nat} {h h' : Host} {f : Fault}
    (hmake : make p capacity serial h = .error f h') : Denied p capacity h f := by
  rcases make_cases p capacity serial h with ⟨base, -, hdone, -⟩ | ⟨f', hstop, hdenied⟩
  · nomatch hdone.symm.trans hmake
  · cases hstop.symm.trans hmake
    exact hdenied

end Block

end StackArena
