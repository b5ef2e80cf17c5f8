/-
  Two runs side by side.

  To say that something makes no difference, the same action is run from two states and the ends are
  compared.  The comparison is built up the way the action is: actions **agree** if they lead from
  states that correspond to ends that correspond (`Action.Agree`), and whatever is put together of
  actions that agree agrees as well.

  1. **Ends** — two ends are alike if both are values or both are faults; faults are compared
     without the serials that they show (`Fault.unnamed`).
  2. **Steps** — how agreement goes through single steps and through two steps in a row.
  3. **Hosts** — two hosts stand beside each other if they differ in what the journal held at some
     time (`Host.Beside`).  No action ever reads the journal, so each one agrees with itself.
-/
import StackArena.Proofs.Outcome
import StackArena.Stack.Basic

namespace StackArena

/-! ## Ends -/

/-- A fault without the serials that it shows. -/
def Fault.unnamed : Fault → Fault
  | staleMarker _ _ => staleMarker 0 0
  | doubleFault first second => doubleFault first.unnamed second.unnamed
  | f => f

/-- Whether a fault can be caught does not depend on serials. -/
theorem Fault.isFatal_congr {f g : Fault} (h : f.unnamed = g.unnamed) :
    f.isFatal = g.isFatal := by
  have hsame : ∀ f : Fault, f.unnamed.isFatal = f.isFatal := by
    intro f
    cases f <;> rfl
  rw [← hsame f, h, hsame g]

namespace Action

variable {σ τ α β γ δ : Type}

/-- `Alike R T end end'`: values that `T` relates or faults that are the same up to serials, in
    states that `R` relates. -/
inductive Alike {ρ : Type} (R : ρ → ρ → Prop) (T : α → β → Prop) :
    EStateM.Result Fault ρ α → EStateM.Result Fault ρ β → Prop
  | ok {x : α} {y : β} {s t : ρ} (hvalue : T x y) (hstate : R s t) :
      Alike R T (.ok x s) (.ok y t)
  | error {f g : Fault} {s t : ρ} (hfault : f.unnamed = g.unnamed) (hstate : R s t) :
      Alike R T (.error f s) (.error g t)

/-- `Ends T out out'`: what comes out of two actions are values that `T` relates, or faults that are
    the same up to serials. -/
inductive Ends (T : α → β → Prop) : Except Fault α → Except Fault β → Prop
  | ok {x : α} {y : β} (hvalue : T x y) : Ends T (.ok x) (.ok y)
  | error {f g : Fault} (hfault : f.unnamed = g.unnamed) : Ends T (.error f) (.error g)

/-- `Agree R R' T a b`: from states that `R` relates, the two actions end alike. -/
def Agree {ρ : Type} (R R' : ρ → ρ → Prop) (T : α → β → Prop) (a : EStateM Fault ρ α)
    (b : EStateM Fault ρ β) : Prop :=
  ∀ s t, R s t → Alike R' T (a s) (b t)

/-- An own state and a host are related part by part. -/
def Both (R : σ → σ → Prop) (H : Host → Host → Prop) (s t : σ × Host) : Prop :=
  R s.1 t.1 ∧ H s.2 t.2

theorem Both.imp {R R' : σ → σ → Prop} {H : Host → Host → Prop} (hRR' : ∀ s t, R s t → R' s t) :
    ∀ s t : σ × Host, Both R H s t → Both R' H s t :=
  fun _ _ hst => ⟨hRR' _ _ hst.1, hst.2⟩

/-- Two own states are related one by one. -/
def Sides (R : σ → σ → Prop) (Q : τ → τ → Prop) (s t : σ × τ) : Prop := R s.1 t.1 ∧ Q s.2 t.2

theorem Alike.mono {ρ : Type} {R R' : ρ → ρ → Prop} {T U : α → β → Prop}
    {x : EStateM.Result Fault ρ α} {y : EStateM.Result Fault ρ β} (hxy : Alike R T x y)
    (hvalue : ∀ x y, T x y → U x y) (hend : ∀ s t, R s t → R' s t) : Alike R' U x y := by
  cases hxy with
  | ok hvalues hstates => exact .ok (hvalue _ _ hvalues) (hend _ _ hstates)
  | error hfault hstates => exact .error hfault (hend _ _ hstates)

/-! ## Steps -/

namespace Agree

section

variable {ρ : Type} {R R' R'' : ρ → ρ → Prop} {T : α → β → Prop} {U : γ → δ → Prop}
  {a a' : EStateM Fault ρ α} {b b' : EStateM Fault ρ β}

/-- Less can be asked of the ends, and more of the starts. -/
theorem mono {Q Q' : ρ → ρ → Prop} (hab : Agree R R' T a b) (hstart : ∀ s t, Q s t → R s t)
    (hend : ∀ s t, R' s t → Q' s t) : Agree Q Q' T a b :=
  fun s t hst => (hab s t (hstart s t hst)).mono (fun _ _ hxy => hxy) hend

/-- Of the values, too. -/
theorem mono_value {V : α → β → Prop} (hab : Agree R R' T a b) (hvalue : ∀ x y, T x y → V x y) :
    Agree R R' V a b :=
  fun s t hst => (hab s t hst).mono hvalue fun _ _ hst' => hst'

protected theorem pure {x : α} {y : β} (hxy : T x y) :
    Agree R R T (pure x : EStateM Fault ρ α) (pure y) :=
  fun _ _ hst => .ok hxy hst

protected theorem throw {f g : Fault} (hfg : f.unnamed = g.unnamed) :
    Agree R R T (throw f : EStateM Fault ρ α) (throw g) :=
  fun _ _ hst => .error hfg hst

/-- **Two steps in a row.**  What is related after the first step may be more than in the end. -/
theorem bind_mono {f : α → EStateM Fault ρ γ} {g : β → EStateM Fault ρ δ} (hab : Agree R R' T a b)
    (hend : ∀ s t, R' s t → R'' s t) (hfg : ∀ x y, T x y → Agree R' R'' U (f x) (g y)) :
    Agree R R'' U (a >>= f) (b >>= g) := by
  intro s t hst
  have hfirst := hab s t hst
  show Alike R'' U (EStateM.bind a f s) (EStateM.bind b g t)
  unfold EStateM.bind
  generalize a s = first at hfirst ⊢
  generalize b t = second at hfirst ⊢
  cases hfirst with
  | ok hxy hst' => exact hfg _ _ hxy _ _ hst'
  | error hfault hst' => exact .error hfault (hend _ _ hst')

protected theorem bind {f : α → EStateM Fault ρ γ} {g : β → EStateM Fault ρ δ}
    (hab : Agree R R' T a b) (hfg : ∀ x y, T x y → Agree R' R' U (f x) (g y)) :
    Agree R R' U (a >>= f) (b >>= g) :=
  hab.bind_mono (fun _ _ hst => hst) hfg

/-- Two steps in a row, where the first has the same value on both sides. -/
theorem bind_eq {b : EStateM Fault ρ α} {f : α → EStateM Fault ρ γ} {g : α → EStateM Fault ρ δ}
    (hab : Agree R R' Eq a b) (hfg : ∀ x, Agree R' R' U (f x) (g x)) :
    Agree R R' U (a >>= f) (b >>= g) :=
  hab.bind fun x _ heq => heq ▸ hfg x

/-- Values in another form. -/
protected theorem map {f : α → γ} {g : β → δ} (hab : Agree R R' T a b)
    (hfg : ∀ x y, T x y → U (f x) (g y)) : Agree R R' U (f <$> a) (g <$> b) := by
  intro s t hst
  have hends := hab s t hst
  show Alike R' U (EStateM.map f a s) (EStateM.map g b t)
  unfold EStateM.map
  generalize a s = first at hends ⊢
  generalize b t = second at hends ⊢
  cases hends with
  | ok hxy hst' => exact .ok (hfg _ _ hxy) hst'
  | error hfault hst' => exact .error hfault hst'

theorem ite {c : Prop} [Decidable c] (hpos : Agree R R' T a b) (hneg : Agree R R' T a' b') :
    Agree R R' T (if c then a else a') (if c then b else b') := by
  by_cases hc : c
  · rw [if_pos hc, if_pos hc]
    exact hpos
  · rw [if_neg hc, if_neg hc]
    exact hneg

protected theorem get : Agree R R R (get : EStateM Fault ρ ρ) get :=
  fun _ _ hst => .ok hst hst

protected theorem set {s t : ρ} (hst : R' s t) :
    Agree R R' (fun _ _ => True) (set s : EStateM Fault ρ PUnit) (set t) :=
  fun _ _ _ => .ok trivial hst

protected theorem modify {f g : ρ → ρ} (hfg : ∀ s t, R s t → R' (f s) (g t)) :
    Agree R R' (fun _ _ => True) (modify f : EStateM Fault ρ PUnit) (modify g) :=
  fun s t hst => .ok trivial (hfg s t hst)

end

/-! ## Steps on an own state -/

section

variable {R R' R'' : σ → σ → Prop} {Q Q' : τ → τ → Prop} {H : Host → Host → Prop}
  {T : α → β → Prop}

protected theorem self : Agree (Both R H) (Both R H) R (self : Action σ σ) self :=
  fun _ _ hst => .ok hst.1 hst

protected theorem setSelf {s t : σ} (hst : R' s t) :
    Agree (Both R H) (Both R' H) (fun _ _ => True) (setSelf s) (setSelf t) :=
  fun _ _ hboth => .ok trivial ⟨hst, hboth.2⟩

/-- Host actions that agree do so whatever own state they leave alone. -/
protected theorem onHost {a : HostAction α} {b : HostAction β} (hab : Agree H H T a b) :
    Agree (Both R H) (Both R H) T (onHost a) (onHost b) := by
  rintro ⟨s, h⟩ ⟨t, k⟩ ⟨hst, hhk⟩
  have hends := hab h k hhk
  unfold onHost
  dsimp only
  generalize a h = first at hends ⊢
  generalize b k = second at hends ⊢
  cases hends with
  | ok hxy hhk' => exact .ok hxy ⟨hst, hhk'⟩
  | error hfault hhk' => exact .error hfault ⟨hst, hhk'⟩

/-- A part of the own state is worked on. -/
protected theorem zoom {get : τ → σ} {put : σ → τ → τ} {a : Action σ α} {b : Action σ β}
    (hget : ∀ t u, Q t u → R (get t) (get u))
    (hput : ∀ x y t u, R' x y → Q t u → Q' (put x t) (put y u))
    (hab : Agree (Both R H) (Both R' H) T a b) :
    Agree (Both Q H) (Both Q' H) T (zoom get put a) (zoom get put b) := by
  rintro ⟨t, h⟩ ⟨u, k⟩ ⟨htu, hhk⟩
  have hends := hab (get t, h) (get u, k) ⟨hget t u htu, hhk⟩
  unfold zoom
  dsimp only
  generalize a (get t, h) = first at hends ⊢
  generalize b (get u, k) = second at hends ⊢
  cases hends with
  | ok hxy hboth => exact .ok hxy ⟨hput _ _ _ _ hboth.1 htu, hboth.2⟩
  | error hfault hboth => exact .error hfault ⟨hput _ _ _ _ hboth.1 htu, hboth.2⟩

protected theorem onFirst {a : Action σ α} {b : Action σ β}
    (hab : Agree (Both R H) (Both R' H) T a b) :
    Agree (Both (Sides R Q) H) (Both (Sides R' Q) H) T (onFirst a) (onFirst b) :=
  hab.zoom (fun _ _ hsides => hsides.1) fun _ _ _ _ hxy hsides => ⟨hxy, hsides.2⟩

protected theorem onSecond {a : Action τ α} {b : Action τ β}
    (hab : Agree (Both Q H) (Both Q' H) T a b) :
    Agree (Both (Sides R Q) H) (Both (Sides R Q') H) T (onSecond a) (onSecond b) :=
  hab.zoom (fun _ _ hsides => hsides.2) fun _ _ _ _ hxy hsides => ⟨hsides.1, hxy⟩

/-- The same check on both sides. -/
protected theorem check (x : Except Fault α) :
    Agree (Both R H) (Both R H) Eq (check x : Action σ α) (check x) := by
  intro s t hst
  cases x with
  | ok x => exact .ok rfl hst
  | error f => exact .error rfl hst

/-- A check whose value has another form on the other side. -/
theorem check_map (f : α → β) (x : Except Fault α) :
    Agree (Both R H) (Both R H) (fun x y => y = f x) (check x : Action σ α) (check (x.map f)) := by
  intro s t hst
  cases x with
  | ok x => exact .ok rfl hst
  | error f => exact .error rfl hst

/-- A body and what comes after it on every way out. -/
protected theorem ensuring {body body' : Action σ α} {cleanup cleanup' : Action σ Unit}
    {V : α → α → Prop} (hbody : Agree (Both R H) (Both R' H) V body body')
    (hcleanup : Agree (Both R' H) (Both R' H) Eq cleanup cleanup') :
    Agree (Both R H) (Both R' H) V (ensuring body cleanup) (ensuring body' cleanup') := by
  intro s t hst
  have hends := hbody s t hst
  unfold ensuring
  generalize body s = first at hends ⊢
  generalize body' t = second at hends ⊢
  cases hends with
  | @ok x y s t hxy hst' =>
    have hlast := hcleanup s t hst'
    dsimp only
    generalize cleanup s = first at hlast ⊢
    generalize cleanup' t = second at hlast ⊢
    cases hlast with
    | ok _ hst'' => exact .ok hxy hst''
    | error hfault hst'' => exact .error hfault hst''
  | @error f g s t hfault hst' =>
    have hlast := hcleanup s t hst'
    dsimp only
    rw [Fault.isFatal_congr hfault]
    split
    · exact .error hfault hst'
    · generalize cleanup s = first at hlast ⊢
      generalize cleanup' t = second at hlast ⊢
      cases hlast with
      | ok _ hst'' => exact .error hfault hst''
      | @error f' g' _ _ hfault' hst'' =>
        dsimp only
        rw [Fault.isFatal_congr hfault']
        refine .error ?_ hst''
        split
        · exact hfault'
        · show Fault.doubleFault _ _ = Fault.doubleFault _ _
          rw [hfault, hfault']

end

/-- Actions that agree, seen from the end. -/
protected theorem after {R R' : σ × Host → σ × Host → Prop} {T : α → β → Prop} {a : Action σ α}
    {b : Action σ β} (hab : Agree R R' T a b) {st st' : σ × Host} (hst : R st st') :
    Ends T (Action.after a st).1 (Action.after b st').1 ∧
      R' (Action.after a st).2 (Action.after b st').2 := by
  have hends := hab st st' hst
  unfold Action.after
  generalize a st = first at hends ⊢
  generalize b st' = second at hends ⊢
  cases hends with
  | ok hxy hst' => exact ⟨.ok hxy, hst'⟩
  | error hfault hst' => exact ⟨.error hfault, hst'⟩

end Agree

end Action

/-! ## Hosts beside each other -/

namespace Host

open StackArena.Action

/-- `Beside j j' h h'`: two hosts that differ in their journals only, which were `j` and `j'` at
    some time and have had the same notes added since. -/
structure Beside (j j' : List Note) (h h' : Host) : Prop where
  memory : h'.memory = h.memory
  lastId : h'.lastId = h.lastId
  hook : h'.hook = h.hook
  journal : ∃ news, h.journal = j ++ news ∧ h'.journal = j' ++ news

variable {j j' : List Note}

theorem Beside.handler {h h' : Host} (hh : Beside j j' h h') : h'.handler = h.handler :=
  congrArg Hook.handler hh.hook

theorem note_agree (n : Note) : Agree (Beside j j') (Beside j j') Eq (note n) (note n) := by
  refine Agree.mono_value (Agree.modify ?_) fun _ _ _ => rfl
  intro h h' hh
  obtain ⟨news, hj, hj'⟩ := hh.journal
  refine ⟨hh.memory, hh.lastId, hh.hook, news ++ [n], ?_, ?_⟩
  · show h.journal ++ [n] = _
    rw [hj, List.append_assoc]
  · show h'.journal ++ [n] = _
    rw [hj', List.append_assoc]

/-- Memory is changed in the same way on both sides. -/
theorem changeMemory_agree (f : Memory → Memory) :
    Agree (Beside j j') (Beside j j') Eq (modify fun h => { h with memory := f h.memory })
      (modify fun h => { h with memory := f h.memory }) := by
  refine Agree.mono_value (Agree.modify ?_) fun _ _ _ => rfl
  intro h h' hh
  exact ⟨congrArg f hh.memory, hh.lastId, hh.hook, hh.journal⟩

theorem makeRegion_agree (p : Platform) (layout : Layout) :
    Agree (Beside j j') (Beside j j') Eq (makeRegion p layout) (makeRegion p layout) := by
  refine Agree.bind .get fun h h' hh => ?_
  rw [hh.memory]
  cases p.placeRegion h.memory.outline layout with
  | none => exact .throw rfl
  | some base =>
    refine Agree.bind (.set ?_) fun _ _ _ => .bind (note_agree _) fun _ _ _ => .pure rfl
    exact ⟨rfl, hh.lastId, hh.hook, hh.journal⟩

theorem freeRegion_agree (number : Nat) :
    Agree (Beside j j') (Beside j j') Eq (freeRegion number) (freeRegion number) :=
  .bind (changeMemory_agree fun m => m.freeRegion number) fun _ _ _ => note_agree _

theorem install_agree (next : Handler) :
    Agree (Beside j j') (Beside j j') Eq (install next) (install next) := by
  refine Agree.bind .get fun h h' hh => ?_
  rw [hh.handler]
  refine Agree.bind (.set ?_) fun _ _ _ => .pure rfl
  refine ⟨hh.memory, hh.lastId, ?_, hh.journal⟩
  exact congrArg (fun hook : Hook => { hook with handler := next }) hh.hook

theorem keep_agree (memo : Memo) :
    Agree (Beside j j') (Beside j j') Eq (keep memo) (keep memo) := by
  refine Agree.mono_value (Agree.modify ?_) fun _ _ _ => rfl
  intro h h' hh
  refine ⟨hh.memory, hh.lastId, ?_, hh.journal⟩
  exact congrArg (fun hook : Hook => { hook with memo := memo }) hh.hook

/-! ## Reports -/

theorem carryOut_agree {report : AllocatorInfo → Nat → HostAction Unit}
    (hreport : ∀ who amount,
      Agree (Beside j j') (Beside j j') Eq (report who amount) (report who amount))
    (c : Conduct) :
    Agree (Beside j j') (Beside j j') Eq (carryOut report c) (carryOut report c) := by
  induction c with
  | done => exact .pure rfl
  | write n rest ih => exact .bind (note_agree n) fun _ _ _ => ih
  | install next rest ih =>
    refine .bind_eq (install_agree next) fun previous => ?_
    exact ih previous
  | report who amount rest ih => exact .bind (hreport who amount) fun _ _ _ => ih
  | consult rest ih =>
    refine Agree.bind .get fun h h' hh => ?_
    rw [hh.hook]
    exact ih h.hook.memo
  | keep memo rest ih => exact .bind (keep_agree memo) fun _ _ _ => ih
  | refuse text => exact .throw rfl

theorem call_agree (p : Platform) (depth : Nat) (handler : Handler) (who : AllocatorInfo)
    (amount : Nat) :
    Agree (Beside j j') (Beside j j') Eq (call p depth handler who amount)
      (call p depth handler who amount) := by
  induction depth generalizing handler who amount with
  | zero => exact .throw rfl
  | succ depth ih =>
    refine .bind (note_agree _) fun _ _ _ => carryOut_agree ?_ _
    intro who amount
    refine Agree.bind .get fun h h' hh => ?_
    rw [hh.handler]
    exact ih h.handler who amount

theorem reportLeak_agree (p : Platform) (who : AllocatorInfo) (amount : Nat) :
    Agree (Beside j j') (Beside j j') Eq (reportLeak p who amount) (reportLeak p who amount) := by
  refine Agree.bind .get fun h h' hh => ?_
  rw [hh.handler]
  exact call_agree p p.reportDepth h.handler who amount

end Host

end StackArena
