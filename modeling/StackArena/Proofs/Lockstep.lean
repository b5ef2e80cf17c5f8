/-
  Runs in lockstep.

  Two actions are in **lockstep** if they come to the same value or the same fault wherever they
  start from states that are held to be the same, and lead to such states again.  This is more than
  `Action.Agree` says, which takes faults up to the serials that they show.

  Here the states that are held to be the same differ in the bytes of memory.

  1. **Steps** — lockstep goes through single steps, through steps in a row, and through catching
     and cleaning up; on one side bytes may be overwritten in passing.
  2. **Veiled hosts** — hosts are veiled to each other if they have the same outline of memory, the
     same journal and the same counters (`Host.Veiled`).  Regions are never short of bytes, since
     overwriting does not make them shorter; so what a client writes is what it reads back.
  3. No action of the host reads a byte, so each is in lockstep with itself, the leak hook and the
     heap included.
-/
import StackArena.Proofs.Agreement
import StackArena.Proofs.Hosting
import StackArena.Provider.Heap

namespace StackArena

namespace Action

variable {σ τ α β γ δ : Type}

/-! ## Steps -/

/-- `InStep R T end end'`: values that `T` relates, or one and the same fault, in states that `R`
    relates. -/
inductive InStep {ρ : Type} (R : ρ → ρ → Prop) (T : α → β → Prop) :
    EStateM.Result Fault ρ α → EStateM.Result Fault ρ β → Prop
  | ok {x : α} {y : β} {s t : ρ} (hvalue : T x y) (hstate : R s t) : InStep R T (.ok x s) (.ok y t)
  | error {f : Fault} {s t : ρ} (hstate : R s t) : InStep R T (.error f s) (.error f t)

/-- Two steps in a row, where the first has been taken from two states. -/
theorem InStep.bind {ρ : Type} {R : ρ → ρ → Prop} {T : α → β → Prop} {U : γ → δ → Prop}
    {a : EStateM Fault ρ α} {b : EStateM Fault ρ β} {f : α → EStateM Fault ρ γ}
    {g : β → EStateM Fault ρ δ} {s t : ρ} (hfirst : InStep R T (a s) (b t))
    (hfg : ∀ x y, T x y → ∀ s t, R s t → InStep R U (f x s) (g y t)) :
    InStep R U ((a >>= f) s) ((b >>= g) t) := by
  show InStep R U (EStateM.bind a f s) (EStateM.bind b g t)
  unfold EStateM.bind
  generalize a s = first at hfirst ⊢
  generalize b t = second at hfirst ⊢
  cases hfirst with
  | ok hxy hst => exact hfg _ _ hxy _ _ hst
  | error hst => exact .error hst

/-- A host action that has ended leaves the own state alone. -/
theorem InStep.onHost {R : σ → σ → Prop} {H : Host → Host → Prop} {T : α → β → Prop}
    {a : HostAction α} {b : HostAction β} {s t : σ} {h k : Host} (hends : InStep H T (a h) (b k))
    (hst : R s t) : InStep (Both R H) T (Action.onHost a (s, h)) (Action.onHost b (t, k)) := by
  unfold Action.onHost
  dsimp only
  generalize a h = first at hends ⊢
  generalize b k = second at hends ⊢
  cases hends with
  | ok hxy hhk => exact .ok hxy ⟨hst, hhk⟩
  | error hhk => exact .error ⟨hst, hhk⟩

/-- `Lockstep R T a b`: from states that `R` relates, the two actions end in step. -/
def Lockstep {ρ : Type} (R : ρ → ρ → Prop) (T : α → β → Prop) (a : EStateM Fault ρ α)
    (b : EStateM Fault ρ β) : Prop :=
  ∀ s t, R s t → InStep R T (a s) (b t)

/-- `Outcome T out out'`: values that `T` relates, or one and the same error. -/
inductive Outcome {ε : Type} (T : α → β → Prop) : Except ε α → Except ε β → Prop
  | ok {x : α} {y : β} (hvalue : T x y) : Outcome T (.ok x) (.ok y)
  | error (e : ε) : Outcome T (.error e) (.error e)

namespace Lockstep

section

variable {ρ : Type} {R : ρ → ρ → Prop} {T : α → β → Prop} {U : γ → δ → Prop}
  {a a' : EStateM Fault ρ α} {b b' : EStateM Fault ρ β}

/-- Less can be asked of the values. -/
theorem mono_value {V : α → β → Prop} (hab : Lockstep R T a b) (hvalue : ∀ x y, T x y → V x y) :
    Lockstep R V a b := by
  intro s t hst
  have hends := hab s t hst
  generalize a s = first at hends ⊢
  generalize b t = second at hends ⊢
  cases hends with
  | ok hxy hst' => exact .ok (hvalue _ _ hxy) hst'
  | error hst' => exact .error hst'

protected theorem pure {x : α} {y : β} (hxy : T x y) :
    Lockstep R T (pure x : EStateM Fault ρ α) (pure y) :=
  fun _ _ hst => .ok hxy hst

protected theorem throw (f : Fault) : Lockstep R T (throw f : EStateM Fault ρ α) (throw f) :=
  fun _ _ hst => .error hst

/-- **Two steps in a row.** -/
protected theorem bind {f : α → EStateM Fault ρ γ} {g : β → EStateM Fault ρ δ}
    (hab : Lockstep R T a b) (hfg : ∀ x y, T x y → Lockstep R U (f x) (g y)) :
    Lockstep R U (a >>= f) (b >>= g) :=
  fun s t hst => (hab s t hst).bind hfg

/-- Two steps in a row, where the first has the same value on both sides. -/
theorem bind_eq {b : EStateM Fault ρ α} {f : α → EStateM Fault ρ γ} {g : α → EStateM Fault ρ δ}
    (hab : Lockstep R Eq a b) (hfg : ∀ x, Lockstep R U (f x) (g x)) :
    Lockstep R U (a >>= f) (b >>= g) :=
  hab.bind fun x _ heq => heq ▸ hfg x

theorem ite {c : Prop} [Decidable c] (hpos : Lockstep R T a b) (hneg : Lockstep R T a' b') :
    Lockstep R T (if c then a else a') (if c then b else b') := by
  by_cases hc : c
  · rw [if_pos hc, if_pos hc]
    exact hpos
  · rw [if_neg hc, if_neg hc]
    exact hneg

/-- What only the left side does if a condition holds does not matter to the right side. -/
theorem ite_left {c : Bool} {d : EStateM Fault ρ β} (hpos : Lockstep R T a b)
    (hneg : Lockstep R T a' b) :
    Lockstep R T (if c = true then a else a') (if false = true then d else b) := by
  cases c with
  | true => exact hpos
  | false => exact hneg

protected theorem get : Lockstep R R (get : EStateM Fault ρ ρ) get := fun _ _ hst => .ok hst hst

protected theorem set {s t : ρ} (hst : R s t) :
    Lockstep R Eq (set s : EStateM Fault ρ PUnit) (set t) :=
  fun _ _ _ => .ok rfl hst

protected theorem modify {f g : ρ → ρ} (hfg : ∀ s t, R s t → R (f s) (g t)) :
    Lockstep R Eq (modify f : EStateM Fault ρ PUnit) (modify g) :=
  fun s t hst => .ok rfl (hfg s t hst)

/-- What comes out is caught on both sides, or on neither. -/
protected theorem attempt (hab : Lockstep R T a b) :
    Lockstep R (Outcome T) (attempt a) (attempt b) := by
  intro s t hst
  have hends := hab s t hst
  unfold Action.attempt
  generalize a s = first at hends ⊢
  generalize b t = second at hends ⊢
  cases hends with
  | ok hxy hst' => exact .ok (.ok hxy) hst'
  | @error f s' t' hst' =>
    dsimp only
    split
    · exact .error hst'
    · exact .ok (.error f) hst'

end

/-! ## Steps on an own state -/

section

variable {R : σ → σ → Prop} {Q : τ → τ → Prop} {H : Host → Host → Prop} {T : α → β → Prop}

protected theorem self : Lockstep (Both R H) R (self : Action σ σ) self :=
  fun _ _ hst => .ok hst.1 hst

protected theorem setSelf {s t : σ} (hst : R s t) :
    Lockstep (Both R H) Eq (setSelf s) (setSelf t) :=
  fun _ _ hboth => .ok rfl ⟨hst, hboth.2⟩

/-- What comes after the own state was replaced starts from the new one. -/
theorem setSelf_bind {s t : σ} {f : Unit → Action σ α} {g : Unit → Action σ β}
    (hrest : ∀ h k, H h k → InStep (Both R H) T (f () (s, h)) (g () (t, k))) :
    Lockstep (Both R H) T (setSelf s >>= f) (setSelf t >>= g) :=
  fun _ _ hst => hrest _ _ hst.2

/-- Host actions leave the own state alone. -/
protected theorem onHost {a : HostAction α} {b : HostAction β} (hab : Lockstep H T a b) :
    Lockstep (Both R H) T (onHost a) (onHost b) :=
  fun st st' hst => (hab st.2 st'.2 hst.2).onHost hst.1

/-- What is done with the host that is there. -/
theorem getHost {f : Host → Action σ α} {g : Host → Action σ β}
    (hfg : ∀ s t h k, R s t → H h k → InStep (Both R H) T (f h (s, h)) (g k (t, k))) :
    Lockstep (Both R H) T ((liftM (get : HostAction Host) : Action σ Host) >>= f)
      ((liftM (get : HostAction Host) : Action σ Host) >>= g) :=
  fun st st' hst => hfg st.1 st'.1 st.2 st'.2 hst.1 hst.2

/-- A part of the own state is worked on. -/
protected theorem zoom {get : τ → σ} {put : σ → τ → τ} {a : Action σ α} {b : Action σ β}
    (hget : ∀ t u, Q t u → R (get t) (get u))
    (hput : ∀ x y t u, R x y → Q t u → Q (put x t) (put y u))
    (hab : Lockstep (Both R H) T a b) :
    Lockstep (Both Q H) T (zoom get put a) (zoom get put b) := by
  rintro ⟨t, h⟩ ⟨u, k⟩ ⟨htu, hhk⟩
  have hends := hab (get t, h) (get u, k) ⟨hget t u htu, hhk⟩
  unfold Action.zoom
  dsimp only
  generalize a (get t, h) = first at hends ⊢
  generalize b (get u, k) = second at hends ⊢
  cases hends with
  | ok hxy hboth => exact .ok hxy ⟨hput _ _ _ _ hboth.1 htu, hboth.2⟩
  | error hboth => exact .error ⟨hput _ _ _ _ hboth.1 htu, hboth.2⟩

protected theorem onFirst {a : Action σ α} {b : Action σ β} (hab : Lockstep (Both R H) T a b) :
    Lockstep (Both (Sides R Q) H) T (onFirst a) (onFirst b) :=
  hab.zoom (fun _ _ hsides => hsides.1) fun _ _ _ _ hxy hsides => ⟨hxy, hsides.2⟩

protected theorem onSecond {a : Action τ α} {b : Action τ β} (hab : Lockstep (Both Q H) T a b) :
    Lockstep (Both (Sides R Q) H) T (onSecond a) (onSecond b) :=
  hab.zoom (fun _ _ hsides => hsides.2) fun _ _ _ _ hxy hsides => ⟨hsides.1, hxy⟩

/-- An own state that is dropped in the end. -/
protected theorem withState {a : Action σ α} {b : Action σ β} (hab : Lockstep (Both R H) T a b)
    {s t : σ} (hst : R s t) : Lockstep H T (withState s a) (withState t b) := by
  intro h k hhk
  have hends := hab (s, h) (t, k) ⟨hst, hhk⟩
  unfold Action.withState
  generalize a (s, h) = first at hends ⊢
  generalize b (t, k) = second at hends ⊢
  cases hends with
  | ok hxy hboth => exact .ok hxy hboth.2
  | error hboth => exact .error hboth.2

/-- The same check on both sides. -/
protected theorem check (x : Except Fault α) :
    Lockstep (Both R H) Eq (check x : Action σ α) (check x) := by
  intro s t hst
  cases x with
  | ok x => exact .ok rfl hst
  | error f => exact .error hst

/-- A body and what comes after it on every way out. -/
protected theorem ensuring {body : Action σ α} {body' : Action σ β} {cleanup cleanup' : Action σ Unit}
    (hbody : Lockstep (Both R H) T body body') (hcleanup : Lockstep (Both R H) Eq cleanup cleanup') :
    Lockstep (Both R H) T (ensuring body cleanup) (ensuring body' cleanup') := by
  intro s t hst
  have hends := hbody s t hst
  unfold Action.ensuring
  generalize body s = first at hends ⊢
  generalize body' t = second at hends ⊢
  cases hends with
  | @ok x y s t hxy hst' =>
    have hlast := hcleanup s t hst'
    dsimp only
    generalize cleanup s = first at hlast ⊢
    generalize cleanup' t = second at hlast ⊢
    cases hlast with
    | ok _ hst'' => exact .ok hxy hst''
    | error hst'' => exact .error hst''
  | @error f s t hst' =>
    have hlast := hcleanup s t hst'
    dsimp only
    split
    · exact .error hst'
    · generalize cleanup s = first at hlast ⊢
      generalize cleanup' t = second at hlast ⊢
      cases hlast with
      | ok _ hst'' => exact .error hst''
      | error hst'' => exact .error hst''

/-- Where both come to an end, they have come to the same, in states that are held to be the same. -/
protected theorem after {a b : Action σ α} (hab : Lockstep (Both R H) Eq a b)
    {st st' : σ × Host} (hst : Both R H st st') :
    (after a st).1 = (after b st').1 ∧ Both R H (after a st).2 (after b st').2 := by
  have hends := hab st st' hst
  unfold Action.after
  generalize a st = first at hends ⊢
  generalize b st' = second at hends ⊢
  cases hends with
  | ok hxy hst' => exact ⟨congrArg Except.ok hxy, hst'⟩
  | error hst' => exact ⟨rfl, hst'⟩

end

end Lockstep

end Action

open StackArena.Action

/-! ## Memory without its bytes -/

namespace Memory

variable {m m' : Memory}

/-- `m.Ample`: no region is short of bytes. -/
def Ample (m : Memory) : Prop := ∀ r ∈ m.regions, r.layout.size ≤ r.bytes.toList.length

theorem getElem?_outline (m : Memory) (n : Nat) : m.outline.regions[n]? = m.extent? n :=
  List.getElem?_map

/-- The outline is the extents of all regions, and the chunks. -/
theorem outline_ext (hregions : ∀ n, m.extent? n = m'.extent? n) (hchunks : m.chunks = m'.chunks) :
    m.outline = m'.outline := by
  have hall : m.outline.regions = m'.outline.regions := by
    refine List.ext_getElem? fun n => ?_
    rw [getElem?_outline, getElem?_outline, hregions]
  show Outline.mk m.outline.regions m.chunks = Outline.mk m'.outline.regions m'.chunks
  rw [hall, hchunks]

theorem extent?_of_outline (hm : m.outline = m'.outline) (n : Nat) : m.extent? n = m'.extent? n := by
  rw [← getElem?_outline, hm, getElem?_outline]

theorem chunks_of_outline (hm : m.outline = m'.outline) : m.chunks = m'.chunks :=
  congrArg Outline.chunks hm

theorem nextRegion_of_outline (hm : m.outline = m'.outline) : m.nextRegion = m'.nextRegion := by
  have hlength : ∀ m : Memory, m.nextRegion = m.outline.regions.length :=
    fun m => List.length_map _ |>.symm
  rw [hlength, hm, hlength]

/-- Where an address lies is seen from the outline. -/
theorem locate?_of_outline (hm : m.outline = m'.outline) (a : Nat) : m.locate? a = m'.locate? a := by
  have hview : ∀ m : Memory, m.locate? a
      = (m.outline.regions.findIdx? fun x => x.spans a).bind fun n =>
        (m.extent? n).map fun x => (n, a - x.base) := by
    intro m
    have hfind : (m.outline.regions.findIdx? fun x => x.spans a)
        = m.regions.findIdx? fun r => r.spans a := List.findIdx?_map
    rw [hfind, locate?]
    cases m.regions.findIdx? fun r => r.spans a with
    | none => rfl
    | some n =>
      show ((m.region? n).bind fun r => some (n, a - r.base)) = _
      rw [Option.bind_some, extent?]
      cases m.region? n <;> rfl
  rw [hview m, hview m', hm]
  congr 1
  funext n
  rw [extent?_of_outline hm]

/-! ### Operations -/

/-- Overwritten bytes do not show in the outline. -/
theorem outline_fill (m : Memory) (number offset length : Nat) (byte : UInt8) :
    (m.fill number offset length byte).outline = m.outline :=
  outline_ext (fun n => m.extent?_fill number offset length n byte) rfl

theorem outline_addRegion (hm : m.outline = m'.outline) (base : Nat) (l : Layout)
    (scrap : Bytes) :
    (m.addRegion base l scrap).outline = (m'.addRegion base l scrap).outline := by
  have hview : ∀ m : Memory, (m.addRegion base l scrap).outline
      = ⟨m.outline.regions ++ [⟨base, l, true⟩], m.outline.chunks⟩ := by
    intro m
    exact congrArg (Outline.mk · m.chunks) List.map_append
  rw [hview, hm, hview]

theorem outline_freeRegion (hm : m.outline = m'.outline) (number : Nat) :
    (m.freeRegion number).outline = (m'.freeRegion number).outline := by
  have hchunks : m.chunks = m'.chunks := chunks_of_outline hm
  refine outline_ext (fun n => ?_) hchunks
  by_cases hn : n = number
  · subst hn
    rw [extent?_freeRegion_self, extent?_freeRegion_self, extent?_of_outline hm]
  · rw [extent?_freeRegion_ne hn, extent?_freeRegion_ne hn, extent?_of_outline hm]

theorem outline_addChunk (hm : m.outline = m'.outline) (base : Nat) (l : Layout) :
    (m.addChunk base l).outline = (m'.addChunk base l).outline := by
  have hregions : ∀ n, m.extent? n = m'.extent? n := extent?_of_outline hm
  have hchunks := congrArg (· ++ [(⟨base, l, true⟩ : Extent)]) (chunks_of_outline hm)
  exact outline_ext hregions hchunks

theorem outline_freeChunk (hm : m.outline = m'.outline) (base : Nat) :
    (m.freeChunk base).outline = (m'.freeChunk base).outline := by
  have hregions : ∀ n, m.extent? n = m'.extent? n := extent?_of_outline hm
  exact outline_ext hregions (congrArg (List.map _) (chunks_of_outline hm))

/-- Whatever is done to a region, if it does not make it short of bytes, none is. -/
theorem Ample.modify (hm : m.Ample) {f : Region → Region} (number : Nat)
    (hf : ∀ r : Region, r.layout.size ≤ r.bytes.toList.length →
      (f r).layout.size ≤ (f r).bytes.toList.length) :
    Ample { m with regions := m.regions.modify number f } := by
  intro r hr
  obtain ⟨n, hn⟩ := List.mem_iff_getElem?.1 hr
  change (m.regions.modify number f)[n]? = some r at hn
  rw [List.getElem?_modify] at hn
  split at hn
  · obtain ⟨r, hold, rfl⟩ := Option.map_eq_some_iff.1 hn
    exact hf r (hm r (List.mem_iff_getElem?.2 ⟨n, hold⟩))
  · obtain ⟨r, hold, rfl⟩ := Option.map_eq_some_iff.1 hn
    exact hm r (List.mem_iff_getElem?.2 ⟨n, hold⟩)

/-- Overwriting does not make a region shorter, wherever it is done. -/
theorem Ample.fill (hm : m.Ample) (number offset length : Nat) (byte : UInt8) :
    (m.fill number offset length byte).Ample := by
  refine hm.modify number fun r hr => Nat.le_trans hr ?_
  show r.bytes.toList.length ≤ (r.bytes.fill offset length byte).toList.length
  rw [Bytes.toList_fill]
  simp only [List.length_append, List.length_take, List.length_replicate, List.length_drop]
  omega

theorem Ample.freeRegion (hm : m.Ample) (number : Nat) : (m.freeRegion number).Ample :=
  hm.modify number fun _ hr => hr

theorem Ample.addRegion (hm : m.Ample) (base : Nat) (l : Layout) (scrap : Bytes) :
    (m.addRegion base l scrap).Ample := by
  intro r hr
  rcases List.mem_append.1 hr with hold | hnew
  · exact hm r hold
  · rw [List.mem_singleton.1 hnew]
    exact Nat.le_of_eq (scrap.length_resize l.size).symm

/-! ### What is written is what is read -/

end Memory

namespace Bytes

/-- The sum over a range, through the plain view. -/
theorem sum_eq (s : Bytes) (offset length : Nat) :
    s.sum offset length = (((s.toList.drop offset).take length).map UInt8.toNat).sum := by
  have hfold : ∀ (runs : List (UInt8 × Nat)) (total : Nat),
      runs.foldl (fun total run => total + run.1.toNat * run.2) total
        = total + ((toList ⟨runs⟩).map UInt8.toNat).sum := by
    intro runs
    induction runs with
    | nil => exact fun total => rfl
    | cons run rest ih =>
      intro total
      have hsplit : toList ⟨run :: rest⟩ = List.replicate run.2 run.1 ++ toList ⟨rest⟩ := rfl
      rw [List.foldl_cons, ih, hsplit, List.map_append, List.sum_append_nat, List.map_replicate,
        List.sum_replicate_nat, Nat.mul_comm run.2, Nat.add_assoc]
  rw [sum, hfold, Nat.zero_add, toList_takeRuns, toList_dropRuns]

/-- A range that was overwritten sums up to what was written, whatever was there before. -/
theorem sum_fill {s : Bytes} {offset : Nat} (hin : offset ≤ s.toList.length) (length : Nat)
    (byte : UInt8) : (s.fill offset length byte).sum offset length = length * byte.toNat := by
  have htake : (s.toList.take offset).length = offset := by
    rw [List.length_take]
    omega
  rw [sum_eq, toList_fill, List.append_assoc, List.drop_left' htake,
    List.take_left' List.length_replicate, List.map_replicate, List.sum_replicate_nat]

end Bytes

namespace Memory

variable {m m' : Memory} {number offset : Nat}

/-- Bytes that are written to a region and read back, from an offset inside it. -/
theorem Ample.sum_fill (hm : m.Ample)
    (hin : ∀ x, m.extent? number = some x → offset ≤ x.layout.size) {length : Nat} {byte : UInt8} :
    (((m.fill number offset length byte).region? number).map fun r =>
        r.bytes.sum offset length).getD 0
      = if (m.extent? number).isSome then length * byte.toNat else 0 := by
  have hregion : (m.fill number offset length byte).region? number
      = (m.region? number).map (Region.fill offset length byte) := List.getElem?_modify_eq _ _ _
  rw [hregion]
  unfold extent? at hin ⊢
  cases hr : m.region? number with
  | none => rfl
  | some r =>
    rw [hr] at hin
    have hsize := hm r (List.mem_iff_getElem?.2 ⟨number, hr⟩)
    exact Bytes.sum_fill (Nat.le_trans (hin r.toExtent rfl) hsize) length byte

/-- Where an address is located, it is inside the region. -/
theorem offset_le_of_locate? {a : Nat} (ha : m.locate? a = some (number, offset)) {x : Extent}
    (hx : m.extent? number = some x) : offset ≤ x.layout.size := by
  obtain ⟨n, hfind, hrest⟩ := Option.bind_eq_some_iff.1 ha
  obtain ⟨r, hr, heq⟩ := Option.bind_eq_some_iff.1 hrest
  cases heq
  rw [extent?, hr] at hx
  cases hx
  obtain ⟨hlt, hspans, -⟩ := List.findIdx?_eq_some_iff_getElem.1 hfind
  have hget : m.regions[number] = r := by
    rw [region?, List.getElem?_eq_getElem hlt] at hr
    exact Option.some.inj hr
  rw [hget] at hspans
  have hlimit : a ≤ r.base + r.layout.size := of_decide_eq_true (Bool.and_eq_true_iff.1 hspans).2
  show a - r.base ≤ r.layout.size
  omega

theorem chunk?_of_outline (hm : m.outline = m'.outline) (a : Nat) : m.chunk? a = m'.chunk? a := by
  rw [chunk?, chunk?, chunks_of_outline hm]

/-- The size of a region is seen from the outline. -/
theorem capacity_of_outline (hm : m.outline = m'.outline) (n : Nat) :
    ((m.region? n).map fun r => r.layout.size).getD 0
      = ((m'.region? n).map fun r => r.layout.size).getD 0 := by
  have hview : ∀ m : Memory, (m.region? n).map (fun r => r.layout.size)
      = (m.extent? n).map fun x => x.layout.size := by
    intro m
    rw [extent?, Option.map_map]
    rfl
  rw [hview, hview, extent?_of_outline hm]

end Memory

/-! ## Veiled hosts -/

namespace Host

/-- `h.Veiled k`: two hosts that are the same but for the bytes of memory. -/
structure Veiled (h k : Host) : Prop where
  outline : h.memory.outline = k.memory.outline
  lastId : h.lastId = k.lastId
  hook : h.hook = k.hook
  journal : h.journal = k.journal
  ample : h.memory.Ample ∧ k.memory.Ample

theorem Veiled.handler {h k : Host} (hhk : Veiled h k) : h.handler = k.handler :=
  congrArg Hook.handler hhk.hook

theorem Veiled.initial : Veiled initial initial := by
  have hnone : Memory.empty.Ample := fun _ hr => nomatch hr
  exact ⟨rfl, rfl, rfl, rfl, hnone, hnone⟩

/-- Bytes that are overwritten on one side do not show. -/
theorem Veiled.filled {h k : Host} (hhk : Veiled h k) (number offset length : Nat) (byte : UInt8) :
    Veiled (h.filled number offset length byte) k :=
  ⟨(h.memory.outline_fill number offset length byte).trans hhk.outline, hhk.lastId, hhk.hook,
    hhk.journal, hhk.ample.1.fill number offset length byte, hhk.ample.2⟩

/-- Nor do bytes that are overwritten on both sides. -/
theorem Veiled.filled_both {h k : Host} (hhk : Veiled h k) (number offset length : Nat)
    (byte : UInt8) :
    Veiled (h.filled number offset length byte) (k.filled number offset length byte) := by
  have hleft := hhk.filled number offset length byte
  exact ⟨hleft.outline.trans (k.memory.outline_fill number offset length byte).symm, hhk.lastId,
    hhk.hook, hhk.journal, hleft.ample.1, hhk.ample.2.fill number offset length byte⟩

theorem note_lockstep (n : Note) : Lockstep Veiled Eq (note n) (note n) := by
  refine Lockstep.modify fun h k hhk => ?_
  exact ⟨hhk.outline, hhk.lastId, hhk.hook, congrArg (· ++ [n]) hhk.journal, hhk.ample⟩

theorem freshId_lockstep : Lockstep Veiled Eq freshId freshId := by
  refine Lockstep.bind .get fun h k hhk => ?_
  rw [hhk.lastId]
  refine Lockstep.bind (.set ?_) fun _ _ _ => .pure rfl
  exact ⟨hhk.outline, rfl, hhk.hook, hhk.journal, hhk.ample⟩

/-- Memory is changed on both sides, and the outlines are the same again. -/
theorem changeMemory_lockstep (f : Memory → Memory)
    (houtline : ∀ m m', m.outline = m'.outline → (f m).outline = (f m').outline)
    (hample : ∀ m, m.Ample → (f m).Ample) :
    Lockstep Veiled Eq (modify fun h => { h with memory := f h.memory })
      (modify fun h => { h with memory := f h.memory }) := by
  refine Lockstep.modify fun h k hhk => ?_
  exact ⟨houtline _ _ hhk.outline, hhk.lastId, hhk.hook, hhk.journal, hample _ hhk.ample.1,
    hample _ hhk.ample.2⟩

theorem makeRegion_lockstep (p : Platform) (l : Layout) :
    Lockstep Veiled Eq (makeRegion p l) (makeRegion p l) := by
  refine Lockstep.bind .get fun h k hhk => ?_
  rw [hhk.outline, Memory.nextRegion_of_outline hhk.outline]
  cases p.placeRegion k.memory.outline l with
  | none => exact .throw _
  | some base =>
    refine Lockstep.bind (.set ?_) fun _ _ _ => .bind (note_lockstep _) fun _ _ _ => .pure rfl
    exact ⟨Memory.outline_addRegion hhk.outline base l _, hhk.lastId, hhk.hook, hhk.journal,
      hhk.ample.1.addRegion base l _, hhk.ample.2.addRegion base l _⟩

theorem freeRegion_lockstep (number : Nat) :
    Lockstep Veiled Eq (freeRegion number) (freeRegion number) := by
  refine .bind (changeMemory_lockstep (fun m => m.freeRegion number) ?_ ?_)
    fun _ _ _ => note_lockstep _
  · exact fun m m' hm => Memory.outline_freeRegion hm number
  · exact fun m hm => hm.freeRegion number

theorem install_lockstep (next : Handler) : Lockstep Veiled Eq (install next) (install next) := by
  refine Lockstep.bind .get fun h k hhk => ?_
  rw [hhk.handler]
  refine Lockstep.bind (.set ?_) fun _ _ _ => .pure rfl
  refine ⟨hhk.outline, hhk.lastId, ?_, hhk.journal, hhk.ample⟩
  exact congrArg (fun hook : Hook => { hook with handler := next }) hhk.hook

theorem keep_lockstep (memo : Memo) : Lockstep Veiled Eq (keep memo) (keep memo) := by
  refine Lockstep.modify fun h k hhk => ⟨hhk.outline, hhk.lastId, ?_, hhk.journal, hhk.ample⟩
  exact congrArg (fun hook : Hook => { hook with memo := memo }) hhk.hook

/-! ### Reports -/

theorem carryOut_lockstep {report : AllocatorInfo → Nat → HostAction Unit}
    (hreport : ∀ who amount, Lockstep Veiled Eq (report who amount) (report who amount))
    (c : Conduct) : Lockstep Veiled Eq (carryOut report c) (carryOut report c) := by
  induction c with
  | done => exact .pure rfl
  | write n rest ih => exact .bind (note_lockstep n) fun _ _ _ => ih
  | install next rest ih => exact .bind_eq (install_lockstep next) ih
  | report who amount rest ih => exact .bind (hreport who amount) fun _ _ _ => ih
  | consult rest ih =>
    refine Lockstep.bind .get fun h k hhk => ?_
    rw [hhk.hook]
    exact ih k.hook.memo
  | keep memo rest ih => exact .bind (keep_lockstep memo) fun _ _ _ => ih
  | refuse text => exact .throw _

theorem call_lockstep (p : Platform) (depth : Nat) (handler : Handler) (who : AllocatorInfo)
    (amount : Nat) :
    Lockstep Veiled Eq (call p depth handler who amount) (call p depth handler who amount) := by
  induction depth generalizing handler who amount with
  | zero => exact .throw _
  | succ depth ih =>
    refine .bind (note_lockstep _) fun _ _ _ => carryOut_lockstep ?_ _
    intro who amount
    refine Lockstep.bind .get fun h k hhk => ?_
    rw [hhk.handler]
    exact ih k.handler who amount

theorem reportLeak_lockstep (p : Platform) (who : AllocatorInfo) (amount : Nat) :
    Lockstep Veiled Eq (reportLeak p who amount) (reportLeak p who amount) := by
  refine Lockstep.bind .get fun h k hhk => ?_
  rw [hhk.handler]
  exact call_lockstep p p.reportDepth k.handler who amount

end Host

open Host

/-! ### The heap -/

namespace Heap

variable {p : Platform}

theorem serve_lockstep (l : Layout) : Lockstep Veiled Eq (serve p l) (serve p l) := by
  refine .bind .get fun h k hhk => ?_
  rw [hhk.outline]
  cases p.placeChunk k.memory.outline l with
  | none => exact .pure rfl
  | some base =>
    refine .bind (.set ?_) fun _ _ _ => .bind (note_lockstep _) fun _ _ _ => .pure rfl
    exact ⟨Memory.outline_addChunk hhk.outline base l, hhk.lastId, hhk.hook, hhk.journal,
      hhk.ample⟩

theorem allocate_lockstep (r : Request) : Lockstep Veiled Eq (allocate p r) (allocate p r) := by
  unfold allocate
  cases layout r with
  | error cause => exact .throw _
  | ok l =>
    refine .bind_eq (serve_lockstep l) fun found => ?_
    cases found with
    | some address => exact .pure rfl
    | none => exact .throw _

theorem tryAllocate_lockstep (r : Request) :
    Lockstep Veiled Eq (tryAllocate p r) (tryAllocate p r) := by
  unfold tryAllocate
  cases layout r with
  | error cause => exact .pure rfl
  | ok l =>
    refine .bind_eq (serve_lockstep l) fun found => ?_
    cases found with
    | some address => exact .pure rfl
    | none => exact .pure rfl

theorem deallocate_lockstep (address : Nat) (r : Request) :
    Lockstep Veiled Eq (deallocate p address r) (deallocate p address r) := by
  unfold deallocate
  cases layout r with
  | error cause =>
    cases p.build with
    | debug => exact .throw _
    | release => exact .pure rfl
  | ok l =>
    refine .bind (changeMemory_lockstep (fun m => m.freeChunk address) ?_ ?_)
      fun _ _ _ => note_lockstep _
    · exact fun m m' hm => Memory.outline_freeChunk hm address
    · exact fun m hm => hm

end Heap

end StackArena
