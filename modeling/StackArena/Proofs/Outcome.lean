/-
  How actions end.

  An action ends with a value or with a fault, and in both cases with a state.  To follow one
  through its steps, `bind_of_ok` and `bind_of_error` carry the end of the first step into the
  rest; the other equations say how the single steps end.  `after` reads the value or the fault off
  the end of an action, and the states there.
-/
import StackArena.Host

namespace StackArena

/-! ## Checks -/

@[simp] theorem Except.ok_bind {ε α β : Type} (x : α) (f : α → Except ε β) :
    (Except.ok x >>= f) = f x := rfl

/-- There are no other builds than the two. -/
theorem Build.eq_debug_iff {b : Build} : b = .debug ↔ b ≠ .release := by
  cases b <;> decide

/-- A checked contract that is kept lets the rest go on, in either build. -/
theorem Build.require_of_holds {b : Build} {holds : Bool} (fault : Fault)
    (h : b = .release ∨ holds = true) : b.require holds fault = .ok () := by
  rcases h with h | h
  · rw [h]; rfl
  · rw [h]; exact b.require_true fault

/-- A sum that a build lets through is the plain one, or a release build has wrapped it. -/
theorem Build.add_eq_ok {b : Build} {x y z : Nat} (h : b.add x y = .ok z) :
    (x + y < Word.count ∧ z = x + y) ∨ (b = .release ∧ Word.count ≤ x + y) := by
  unfold Build.add at h
  split at h
  · rename_i hlt
    cases h
    exact Or.inl ⟨hlt, rfl⟩
  · rename_i hge
    cases b with
    | debug => nomatch h
    | release => exact Or.inr ⟨rfl, Nat.le_of_not_lt hge⟩

/-- Either way the sum is the plain one, cut down to a word. -/
theorem Build.eq_mod_of_add {b : Build} {x y z : Nat} (h : b.add x y = .ok z) :
    z = (x + y) % Word.count := by
  unfold Build.add at h
  split at h
  · rename_i hlt
    cases h
    exact (Nat.mod_eq_of_lt hlt).symm
  · cases b with
    | debug => nomatch h
    | release =>
      cases h
      rfl

theorem Build.lt_of_add {b : Build} {x y z : Nat} (h : b.add x y = .ok z) : z < Word.count := by
  rw [eq_mod_of_add h]
  exact Nat.mod_lt _ (by decide)

/-- No build makes a sum larger than it is. -/
theorem Build.add_le {b : Build} {x y z : Nat} (h : b.add x y = .ok z) : z ≤ x + y := by
  unfold Build.add at h
  split at h
  · cases h
    exact Nat.le_refl _
  · cases b with
    | debug => nomatch h
    | release =>
      cases h
      exact Nat.mod_le _ _

/-- A release build never stops at a sum. -/
theorem Build.add_release (x y : Nat) : ∃ z, release.add x y = .ok z := by
  unfold Build.add
  split
  · exact ⟨_, rfl⟩
  · exact ⟨_, rfl⟩

/-- A debug build stops at a sum that is no word. -/
theorem Build.add_debug_of_le {x y : Nat} (h : Word.count ≤ x + y) :
    debug.add x y = .error (.overflow .add) := by
  rw [Build.add, if_neg (Nat.not_lt.2 h)]

/-- Only a debug build stops at a sum, and only at one that is no word. -/
theorem Build.add_eq_error {b : Build} {x y : Nat} {f : Fault} (h : b.add x y = .error f) :
    b = .debug ∧ Word.count ≤ x + y := by
  unfold Build.add at h
  split at h
  · nomatch h
  · rename_i hge
    cases b with
    | debug => exact ⟨rfl, Nat.le_of_not_lt hge⟩
    | release => nomatch h

namespace Action

variable {σ α β : Type}

/-! ## One step after the other -/

theorem bind_of_ok {ε ρ : Type} {x : EStateM ε ρ α} {f : α → EStateM ε ρ β} {s s' : ρ} {a : α}
    (h : x s = .ok a s') : (x >>= f) s = f a s' := by
  show EStateM.bind x f s = f a s'
  rw [EStateM.bind, h]

theorem bind_of_error {ε ρ : Type} {x : EStateM ε ρ α} {f : α → EStateM ε ρ β} {s s' : ρ} {e : ε}
    (h : x s = .error e s') : (x >>= f) s = .error e s' := by
  show EStateM.bind x f s = .error e s'
  rw [EStateM.bind, h]

/-- Two steps that end with a value have both ended with one. -/
theorem bind_eq_ok {ε ρ : Type} {x : EStateM ε ρ α} {f : α → EStateM ε ρ β} {s s' : ρ} {b : β}
    (h : (x >>= f) s = .ok b s') : ∃ a s₁, x s = .ok a s₁ ∧ f a s₁ = .ok b s' := by
  cases hx : x s with
  | ok a s₁ =>
    rw [bind_of_ok hx] at h
    exact ⟨a, s₁, rfl, h⟩
  | error e s₁ =>
    rw [bind_of_error hx] at h
    nomatch h

/-! ## Single steps -/

@[simp] theorem self_bind (f : σ → Action σ β) (s : σ) (h : Host) :
    (self >>= f) (s, h) = f s (s, h) := rfl

@[simp] theorem setSelf_bind (t s : σ) (f : Unit → Action σ β) (h : Host) :
    (setSelf t >>= f) (s, h) = f () (t, h) := rfl

@[simp] theorem check_apply (x : Except Fault α) (s : σ × Host) :
    (liftM x : Action σ α) s = check x s := rfl

@[simp] theorem check_error (f : Fault) (s : σ × Host) :
    (check (.error f) : Action σ α) s = .error f s := rfl

/-- A check that is kept is no step at all. -/
theorem check_bind (x : α) (f : α → Action σ β) :
    ((liftM (.ok x : Except Fault α) : Action σ α) >>= f) = f x := rfl

theorem onHost_of_ok {a : HostAction α} {s : σ} {h h' : Host} {x : α} (ha : a h = .ok x h') :
    onHost a (s, h) = .ok x (s, h') := by
  simp only [onHost, ha]

theorem onHost_of_error {a : HostAction α} {s : σ} {h h' : Host} {f : Fault}
    (ha : a h = .error f h') : onHost a (s, h) = .error f (s, h') := by
  simp only [onHost, ha]

/-! ## Where an action leaves off -/

/-- What an action ends with, and the states at its end. -/
def after (a : Action σ α) (st : σ × Host) : Except Fault α × σ × Host :=
  match a st with
  | .ok x st => (.ok x, st)
  | .error f st => (.error f, st)

theorem after_of_ok {a : Action σ α} {st st' : σ × Host} {x : α} (h : a st = .ok x st') :
    after a st = (.ok x, st') := by
  simp only [after, h]

theorem after_of_error {a : Action σ α} {st st' : σ × Host} {f : Fault}
    (h : a st = .error f st') : after a st = (.error f, st') := by
  simp only [after, h]

/-- An action ended in a value or in a fault. -/
theorem of_after {a : Action σ α} {st st' : σ × Host} {out : Except Fault α}
    (h : after a st = (out, st')) :
    (∃ x, out = .ok x ∧ a st = .ok x st') ∨ (∃ f, out = .error f ∧ a st = .error f st') := by
  unfold after at h
  split at h
  · rename_i x st₁ hr
    cases h
    exact Or.inl ⟨x, rfl, hr⟩
  · rename_i f st₁ hr
    cases h
    exact Or.inr ⟨f, rfl, hr⟩

theorem ok_of_after {a : Action σ α} {st st' : σ × Host} {x : α}
    (h : after a st = (.ok x, st')) : a st = .ok x st' := by
  rcases of_after h with ⟨y, hy, hrun⟩ | ⟨f, hf, -⟩
  · cases hy
    exact hrun
  · nomatch hf

/-- The first step of two in a row, seen from the end. -/
theorem after_bind (a : Action σ α) (f : α → Action σ β) (st : σ × Host) :
    after (a >>= f) st = match after a st with
      | (.ok x, st) => after (f x) st
      | (.error e, st) => (.error e, st) := by
  unfold after
  cases hr : a st with
  | ok x st' => rw [bind_of_ok hr]
  | error e st' => rw [bind_of_error hr]

/-- An action whose value is put in another form. -/
theorem after_map (f : α → β) (a : Action σ α) (st : σ × Host) :
    after (f <$> a) st = Prod.map (Except.map f) id (after a st) := by
  show after (EStateM.map f a) st = _
  unfold after EStateM.map
  cases a st with
  | ok x st' => rfl
  | error e st' => rfl

/-- An action that may not decline does not. -/
theorem after_some_ne (a : Action σ α) (st st' : σ × Host) :
    after (some <$> a) st ≠ (.ok none, st') := by
  rw [after_map]
  generalize after a st = last
  obtain ⟨f | x, st₁⟩ := last
  · nofun
  · nofun

/-- An action whose outcome was caught as a value has ended with that value. -/
theorem ok_of_attempt {ρ : Type} {a : EStateM Fault ρ α} {s s' : ρ} {x : α}
    (hrun : attempt a s = .ok (.ok x) s') : a s = .ok x s' := by
  unfold attempt at hrun
  cases ha : a s with
  | ok y s₁ =>
    rw [ha] at hrun
    cases hrun
    rfl
  | error f s₁ =>
    rw [ha] at hrun
    dsimp only at hrun
    split at hrun
    · nomatch hrun
    · nomatch hrun

/-! ## One of two states -/

variable {τ : Type}

theorem onFirst_of_ok {a : Action σ α} {s s' : σ} {t : τ} {h h' : Host} {x : α}
    (ha : a (s, h) = .ok x (s', h')) : onFirst a ((s, t), h) = .ok x ((s', t), h') := by
  simp only [onFirst, zoom, ha]

theorem onSecond_of_ok {a : Action τ α} {s : σ} {t t' : τ} {h h' : Host} {x : α}
    (ha : a (t, h) = .ok x (t', h')) : onSecond a ((s, t), h) = .ok x ((s, t'), h') := by
  simp only [onSecond, zoom, ha]

theorem onSecond_of_error {a : Action τ α} {s : σ} {t t' : τ} {h h' : Host} {f : Fault}
    (ha : a (t, h) = .error f (t', h')) : onSecond a ((s, t), h) = .error f ((s, t'), h') := by
  simp only [onSecond, zoom, ha]

/-- An action on a part of the state, seen from the end. -/
theorem after_zoom (get : τ → σ) (put : σ → τ → τ) (a : Action σ α) (t : τ) (h : Host) :
    after (zoom get put a) (t, h)
      = ((after a (get t, h)).1, put (after a (get t, h)).2.1 t, (after a (get t, h)).2.2) := by
  simp only [after, zoom]
  cases a (get t, h) <;> rfl

/-- An action on the first of two states leaves the second alone. -/
theorem after_onFirst (a : Action σ α) (s : σ) (t : τ) (h : Host) :
    after (onFirst a) ((s, t), h)
      = ((after a (s, h)).1, ((after a (s, h)).2.1, t), (after a (s, h)).2.2) :=
  after_zoom _ _ a (s, t) h

theorem after_onSecond (a : Action τ α) (s : σ) (t : τ) (h : Host) :
    after (onSecond a) ((s, t), h)
      = ((after a (t, h)).1, (s, (after a (t, h)).2.1), (after a (t, h)).2.2) :=
  after_zoom _ _ a (s, t) h

end Action

end StackArena
