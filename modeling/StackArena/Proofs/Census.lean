/-
  All stacks of a world together.

  `Step` lists what a call comes to.  From it, by induction on the run, every stack that can be
  reached is settled, no two stacks share a region or an identity, and no identity is ahead of the
  counter (`Sound`).
-/
import StackArena.Proofs.Turns

namespace StackArena.World

open Stack

/-! ## Slots -/

theorem at?_eq_some {w : World} {i : Nat} {t : Tenancy} :
    w.at? i = some t ↔ w.slots[i]? = some (some t) := by
  rw [at?]
  cases w.slots[i]? with
  | none => exact ⟨nofun, nofun⟩
  | some slot => simp

/-- A slot that is written holds what was written; the others hold what they held. -/
theorem at?_set {w : World} {h : Host} {ms : List Marker} {i j : Nat} {slot : Option Tenancy}
    {t : Tenancy} (hlt : i < w.slots.length) :
    (⟨h, w.slots.set i slot, ms⟩ : World).at? j = some t ↔
      (j = i ∧ slot = some t) ∨ (j ≠ i ∧ w.at? j = some t) := by
  rw [at?_eq_some, at?_eq_some]
  by_cases hji : j = i
  · subst hji
    rw [List.getElem?_set_self hlt]
    simp
  · rw [List.getElem?_set_ne (Ne.symm hji)]
    simp [hji]

/-- What holds of the tenancy that is written to a slot, and of those in the other slots, holds of
    all. -/
theorem forall_at?_set {w : World} {h : Host} {ms : List Marker} {i : Nat} {t : Tenancy}
    {P : Nat → Tenancy → Prop} (hlt : i < w.slots.length) (hnew : P i t)
    (hold : ∀ j u, j ≠ i → w.at? j = some u → P j u) :
    ∀ j u, (⟨h, w.slots.set i (some t), ms⟩ : World).at? j = some u → P j u := by
  intro j u hu
  rcases (at?_set hlt).1 hu with ⟨rfl, heq⟩ | ⟨hji, hu⟩
  · cases heq
    exact hnew
  · exact hold j u hji hu

/-- What holds both ways between the tenancy that is written to a slot and those in the other slots,
    and between any two of these, holds between any two. -/
theorem pairs_at?_set {w : World} {h : Host} {ms : List Marker} {i : Nat} {t : Tenancy}
    {R : Tenancy → Tenancy → Prop} (hlt : i < w.slots.length)
    (hnew : ∀ j u, j ≠ i → w.at? j = some u → R t u ∧ R u t)
    (hold : ∀ j k u v, w.at? j = some u → w.at? k = some v → j ≠ k → R u v) :
    ∀ j k u v, (⟨h, w.slots.set i (some t), ms⟩ : World).at? j = some u →
      (⟨h, w.slots.set i (some t), ms⟩ : World).at? k = some v → j ≠ k → R u v := by
  intro j k u v hu hv hne
  rcases (at?_set hlt).1 hu with ⟨rfl, heq⟩ | ⟨hji, hold_u⟩ <;>
    rcases (at?_set hlt).1 hv with ⟨rfl, heq'⟩ | ⟨hki, hold_v⟩
  · exact absurd rfl hne
  · cases heq
    exact (hnew k v hki hold_v).1
  · cases heq'
    exact (hnew j u hji hold_u).2
  · exact hold j k u v hold_u hold_v hne

/-- What is left after a slot was emptied was there before, in another slot. -/
theorem at?_of_emptied {w : World} {h : Host} {ms : List Marker} {i j : Nat} {t : Tenancy}
    (hlt : i < w.slots.length) (hat : (⟨h, w.slots.set i none, ms⟩ : World).at? j = some t) :
    j ≠ i ∧ w.at? j = some t := by
  rcases (at?_set hlt).1 hat with ⟨-, hnone⟩ | hold
  · nomatch hnone
  · exact hold

theorem lt_of_at? {w : World} {i : Nat} {t : Tenancy} (h : w.at? i = some t) :
    i < w.slots.length := (List.getElem?_eq_some_iff.1 (at?_eq_some.1 h)).1

/-- A slot of a world with a new stack is an old one or the new one. -/
theorem at?_enroll {w : World} {s : Stack} {h : Host} {j : Nat} {t : Tenancy} :
    (w.enroll s h).at? j = some t ↔
      w.at? j = some t ∨ (j = w.slots.length ∧ t = .new s) := by
  rw [at?_eq_some, at?_eq_some, enroll]
  rcases Nat.lt_trichotomy j w.slots.length with hlt | heq | hgt
  · rw [List.getElem?_append_left hlt]
    have hne : j ≠ w.slots.length := Nat.ne_of_lt hlt
    simp [hne]
  · subst heq
    simp [eq_comm]
  · have hne : j ≠ w.slots.length := Nat.ne_of_gt hgt
    rw [List.getElem?_eq_none (by simp; omega), List.getElem?_eq_none (by omega)]
    simp [hne]

theorem forall_at?_enroll {w : World} {s : Stack} {h : Host} {P : Nat → Tenancy → Prop}
    (hold : ∀ j u, w.at? j = some u → P j u) (hnew : P w.slots.length (.new s)) :
    ∀ j u, (w.enroll s h).at? j = some u → P j u := by
  intro j u hu
  rcases at?_enroll.1 hu with hu | ⟨rfl, rfl⟩
  · exact hold j u hu
  · exact hnew

theorem pairs_at?_enroll {w : World} {s : Stack} {h : Host} {R : Tenancy → Tenancy → Prop}
    (hnew : ∀ j u, w.at? j = some u → R (.new s) u ∧ R u (.new s))
    (hold : ∀ j k u v, w.at? j = some u → w.at? k = some v → j ≠ k → R u v) :
    ∀ j k u v, (w.enroll s h).at? j = some u → (w.enroll s h).at? k = some v → j ≠ k → R u v := by
  intro j k u v hu hv hne
  rcases at?_enroll.1 hu with hu | ⟨hj, rfl⟩ <;> rcases at?_enroll.1 hv with hv | ⟨hk, rfl⟩
  · exact hold j k u v hu hv hne
  · exact (hnew j u hu).2
  · exact (hnew k v hv).1
  · exact absurd (hj.trans hk.symm) hne

theorem not_at?_initial (i : Nat) (t : Tenancy) : initial.at? i ≠ some t := by
  intro h
  nomatch at?_eq_some.1 h

/-! ## What a call comes to -/

/-- `Step p w c w'`: what a call comes to. -/
inductive Step (p : Platform) (w : World) : Call → World → Prop
  | idle {c : Call} : Step p w c w
  | hosted {c : Call} {h : Host} (hmemory : h.memory = w.host.memory)
      (hlast : w.host.lastId ≤ h.lastId) : Step p w c { w with host := h }
  | made {c : Config} {base : Nat}
      (hplace : p.placeRegion w.host.memory.outline (Block.layoutOf c.initialBlock) = some base)
      (hvalid : c.validate = .ok ()) :
      Step p w (.make c) (w.enroll (newborn c w.host base)
        ((identified w.host).withRegion p base (Block.layoutOf c.initialBlock)))
  | operated {i : Nat} {op : Op} {t : Tenancy} (hat : w.at? i = some t) :
      Step p w (.on i op) ⟨(t.act p w.markers w.host op).2,
        w.slots.set i (some (t.act p w.markers w.host op).1), w.markers ++ t.captures op⟩
  | discarded {i : Nat} {t : Tenancy} (hat : w.at? i = some t) :
      Step p w (.discard i) ⟨(Action.after (Stack.discard p) (t.stack, w.host)).2.2,
        w.slots.set i none, w.markers⟩

/-- **Every call** comes to one of the cases of `Step`. -/
theorem step_spec (p : Platform) (w : World) (c : Call) : Step p w c (w.step p c) := by
  cases c with
  | make c =>
    rw [step, make]
    rcases ofConfig_cases p c w.host with ⟨base, hplace, hrun, hvalid⟩ | ⟨e, hrun⟩ | ⟨f, hrun⟩
    · rw [hrun]
      exact .made hplace hvalid
    · rw [hrun]
      exact .hosted rfl (Nat.le_refl _)
    · rw [hrun]
      exact .hosted rfl (Nat.le_succ _)
  | on i op =>
    rw [step, operate]
    cases hat : w.at? i with
    | none => exact .idle
    | some t => exact .operated hat
  | discard i =>
    rw [step, discard]
    cases hat : w.at? i with
    | none => exact .idle
    | some t =>
      show Step p w _ (if t.guards.isEmpty then _ else _)
      split
      · exact .discarded hat
      · exact .idle
  | install next => exact .hosted rfl (Nat.le_refl _)

/-- A slot that was there before a call has its tenancy from before, as it was or after an
    operation on it. -/
theorem step_at? {p : Platform} {w : World} {c : Call} {i : Nat} {t' : Tenancy}
    (hlt : i < w.slots.length) (hat : (w.step p c).at? i = some t') :
    ∃ t, w.at? i = some t ∧
      (t' = t ∨ ∃ op, c = .on i op ∧ t' = (t.act p w.markers w.host op).1) := by
  have hstep := step_spec p w c
  generalize w.step p c = w' at hstep hat
  cases hstep with
  | idle => exact ⟨t', hat, Or.inl rfl⟩
  | hosted => exact ⟨t', hat, Or.inl rfl⟩
  | made =>
    rcases at?_enroll.1 hat with hold | ⟨hnew, -⟩
    · exact ⟨t', hold, Or.inl rfl⟩
    · omega
  | @operated j op t hj =>
    rcases (at?_set (lt_of_at? hj)).1 hat with ⟨rfl, heq⟩ | ⟨-, hold⟩
    · cases heq
      exact ⟨t, hj, Or.inr ⟨op, rfl, rfl⟩⟩
    · exact ⟨t', hold, Or.inl rfl⟩
  | discarded hj => exact ⟨t', (at?_of_emptied (lt_of_at? hj) hat).2, Or.inl rfl⟩

/-- Slots are never given back. -/
theorem length_slots_step (p : Platform) (w : World) (c : Call) :
    w.slots.length ≤ (w.step p c).slots.length := by
  have hstep := step_spec p w c
  generalize w.step p c = w' at hstep
  cases hstep with
  | idle => exact Nat.le_refl _
  | hosted => exact Nat.le_refl _
  | made =>
    rw [enroll, List.length_append]
    exact Nat.le_add_right _ _
  | operated => exact Nat.le_of_eq List.length_set.symm
  | discarded => exact Nat.le_of_eq List.length_set.symm

/-! ## Sound worlds -/

/-- `Sound gap w`: spaced memory, in which every stack is settled, under an identity of its own and
    with regions of its own. -/
structure Sound (gap : Nat) (w : World) : Prop where
  spaced : w.host.memory.Spaced gap
  settled : ∀ i t, w.at? i = some t → Settled gap t.stack w.host
  apart : ∀ i j t u, w.at? i = some t → w.at? j = some u → i ≠ j →
    ∀ n ∈ t.stack.regions, n ∉ u.stack.regions
  counted : ∀ i t, w.at? i = some t → t.stack.id.value ≤ w.host.lastId
  distinct : ∀ i j t u, w.at? i = some t → w.at? j = some u → i ≠ j → t.stack.id ≠ u.stack.id

theorem Sound.initial (gap : Nat) : Sound gap initial :=
  ⟨Memory.Spaced.empty gap, fun i t h => absurd h (not_at?_initial i t),
   fun i _ t _ h => absurd h (not_at?_initial i t), fun i t h => absurd h (not_at?_initial i t),
   fun i _ t _ h => absurd h (not_at?_initial i t)⟩

variable {p : Platform} {gap : Nat} {w : World}

/-- Every operation moves the stack that it is made on. -/
theorem act_moves (hp : p.Sound gap) (hw : w.Sound gap) {i : Nat} {t : Tenancy}
    (hat : w.at? i = some t) (op : Op) :
    Moves gap t.stack w.host (t.act p w.markers w.host op).1.stack
      (t.act p w.markers w.host op).2 :=
  (Tenancy.act_change hp (hw.settled i t hat) w.markers op).moves hp (hw.settled i t hat)

theorem Sound.operated (hp : p.Sound gap) (hw : w.Sound gap) {i : Nat} {t : Tenancy}
    (hat : w.at? i = some t) (op : Op) (ms : List Marker) :
    Sound gap ⟨(t.act p w.markers w.host op).2,
      w.slots.set i (some (t.act p w.markers w.host op).1), ms⟩ := by
  have hmoves := act_moves hp hw hat op
  generalize t.act p w.markers w.host op = done at hmoves ⊢
  obtain ⟨t', h'⟩ := done
  have hlt := lt_of_at? hat
  -- What the stack has now it had before, or it was nobody's.
  have hold : ∀ j u, j ≠ i → w.at? j = some u → ∀ n ∈ t'.stack.regions, n ∉ u.stack.regions := by
    intro j u hne hu n hn
    rcases hmoves.owned n hn with hmine | hnew
    · exact hw.apart i j t u hat hu (Ne.symm hne) n hmine
    · exact (hw.settled j u hu).lodged.notMem_of_extent?_none hnew
  refine ⟨hmoves.settled.spaced, ?_, ?_, ?_, ?_⟩
  · refine forall_at?_set hlt hmoves.settled ?_
    intro j u hji hu
    refine (hw.settled j u hu).of_frame hmoves.settled.spaced fun n x hn hx => ?_
    exact hmoves.frame n x (hw.apart j i u t hu hat hji n hn) hx
  · refine pairs_at?_set hlt ?_ hw.apart
    intro j u hji hu
    exact ⟨hold j u hji hu, fun n hn hn' => hold j u hji hu n hn' hn⟩
  · show ∀ j (u : Tenancy), _ → u.stack.id.value ≤ h'.lastId
    rw [hmoves.lastId_eq]
    refine forall_at?_set hlt ?_ fun j u _ hu => hw.counted j u hu
    rw [hmoves.id_eq]
    exact hw.counted i t hat
  · refine pairs_at?_set hlt ?_ hw.distinct
    intro j u hji hu
    rw [hmoves.id_eq]
    exact ⟨hw.distinct i j t u hat hu (Ne.symm hji), hw.distinct j i u t hu hat hji⟩

theorem Sound.made (hp : p.Sound gap) (hw : w.Sound gap) {c : Config} {base : Nat}
    (hplace : p.placeRegion w.host.memory.outline (Block.layoutOf c.initialBlock) = some base) :
    Sound gap (w.enroll (newborn c w.host base)
      ((identified w.host).withRegion p base (Block.layoutOf c.initialBlock))) := by
  have hnew := newborn_settled hp hw.spaced hplace
  have hfresh : ∀ j u, w.at? j = some u → w.host.memory.nextRegion ∉ u.stack.regions :=
    fun j u hu => (hw.settled j u hu).lodged.notMem_of_extent?_none w.host.memory.extent?_nextRegion
  have hid : ∀ j u, w.at? j = some u → u.stack.id ≠ (newborn c w.host base).id := by
    intro j u hu heq
    have hle := hw.counted j u hu
    rw [heq] at hle
    exact Nat.not_succ_le_self _ hle
  refine ⟨hnew.spaced, ?_, ?_, ?_, ?_⟩
  · refine forall_at?_enroll ?_ hnew
    intro j u hu
    exact (hw.settled j u hu).of_frame hnew.spaced fun n x _ hx =>
      Memory.extent?_addRegion_of_some _ _ _ hx
  · refine pairs_at?_enroll ?_ hw.apart
    intro j u hu
    constructor
    · intro n hn
      rw [List.mem_singleton.1 hn]
      exact hfresh j u hu
    · intro n hn hn'
      rw [List.mem_singleton.1 hn'] at hn
      exact hfresh j u hu hn
  · exact forall_at?_enroll (fun j u hu => Nat.le_succ_of_le (hw.counted j u hu)) (Nat.le_refl _)
  · exact pairs_at?_enroll (fun j u hu => ⟨(hid j u hu).symm, hid j u hu⟩) hw.distinct

theorem Sound.discarded (hw : w.Sound gap) {i : Nat} {t : Tenancy} (hat : w.at? i = some t) :
    Sound gap ⟨(Action.after (Stack.discard p) (t.stack, w.host)).2.2,
      w.slots.set i none, w.markers⟩ := by
  obtain ⟨out, s', h', hrun, hm, hlast, hframe⟩ := discard_ends p (s := t.stack) hw.spaced
  rw [hrun]
  have hold : ∀ {j u}, (⟨h', w.slots.set i none, w.markers⟩ : World).at? j = some u →
      j ≠ i ∧ w.at? j = some u := at?_of_emptied (lt_of_at? hat)
  refine ⟨hm, ?_, ?_, ?_, ?_⟩
  · intro j u hu
    obtain ⟨hji, hu⟩ := hold hu
    refine (hw.settled j u hu).of_frame hm fun n x hn hx => ?_
    rw [hframe n (hw.apart j i u t hu hat hji n hn)]
    exact hx
  · intro j k u v hu hv hne
    exact hw.apart j k u v (hold hu).2 (hold hv).2 hne
  · intro j u hu
    show u.stack.id.value ≤ h'.lastId
    rw [hlast]
    exact hw.counted j u (hold hu).2
  · intro j k u v hu hv hne
    exact hw.distinct j k u v (hold hu).2 (hold hv).2 hne

/-- **A call keeps a world sound.** -/
theorem Sound.step (hp : p.Sound gap) (hw : w.Sound gap) (c : Call) : (w.step p c).Sound gap := by
  have hstep := step_spec p w c
  generalize w.step p c = w' at hstep ⊢
  cases hstep with
  | idle => exact hw
  | @hosted _ h hmemory hlast =>
    have hm : h.memory.Spaced gap := by
      rw [hmemory]
      exact hw.spaced
    refine ⟨hm, ?_, hw.apart, ?_, hw.distinct⟩
    · intro j u hu
      refine (hw.settled j u hu).of_frame hm fun n x _ hx => ?_
      rw [hmemory]
      exact hx
    · intro j u hu
      exact Nat.le_trans (hw.counted j u hu) hlast
  | made hplace => exact hw.made hp hplace
  | operated hat => exact hw.operated hp hat _ _
  | discarded hat => exact hw.discarded hat

/-- A slot that was not there before a call has a stack under a new identity. -/
theorem step_new {c : Call} {i : Nat} {t : Tenancy} (hge : w.slots.length ≤ i)
    (hat : (w.step p c).at? i = some t) : w.host.lastId < t.stack.id.value := by
  have hnone : ∀ u, w.at? i ≠ some u := by
    intro u hu
    have hlt := lt_of_at? hu
    omega
  have hstep := step_spec p w c
  generalize w.step p c = w' at hstep hat
  cases hstep with
  | idle => exact absurd hat (hnone t)
  | hosted => exact absurd hat (hnone t)
  | made =>
    rcases at?_enroll.1 hat with hold | ⟨-, rfl⟩
    · exact absurd hold (hnone t)
    · exact Nat.lt_succ_self _
  | operated hj =>
    -- Writing a slot makes none.
    have hlt := lt_of_at? hat
    rw [List.length_set] at hlt
    omega
  | discarded hj =>
    have hlt := lt_of_at? hat
    rw [List.length_set] at hlt
    omega

/-- Identities are never given back. -/
theorem lastId_step (hp : p.Sound gap) (hw : w.Sound gap) (c : Call) :
    w.host.lastId ≤ (w.step p c).host.lastId := by
  have hstep := step_spec p w c
  generalize w.step p c = w' at hstep
  cases hstep with
  | idle => exact Nat.le_refl _
  | hosted hmemory hlast => exact hlast
  | made => exact Nat.le_succ _
  | @operated i op t hat => exact Nat.le_of_eq (act_moves hp hw hat op).lastId_eq.symm
  | @discarded i t hat =>
    obtain ⟨out, s', h', hrun, -, hlast, -⟩ := discard_ends p (s := t.stack) hw.spaced
    rw [hrun]
    exact Nat.le_of_eq hlast.symm

/-! ## Runs -/

theorem run_concat (p : Platform) (w : World) (cs : List Call) (c : Call) :
    run p w (cs ++ [c]) = (run p w cs).step p c := by
  rw [run, List.foldl_append]
  rfl

theorem run_append (p : Platform) (w : World) (cs ds : List Call) :
    run p w (cs ++ ds) = run p (run p w cs) ds := List.foldl_append

/-- A run keeps a world sound. -/
theorem Sound.run (hp : p.Sound gap) (hw : w.Sound gap) (cs : List Call) :
    (run p w cs).Sound gap := by
  induction cs generalizing w with
  | nil => exact hw
  | cons c cs ih => exact ih (hw.step hp c)

/-- **Every reachable world is sound.** -/
theorem Reachable.sound (hp : p.Sound gap) (hw : Reachable p w) : w.Sound gap := by
  obtain ⟨cs, rfl⟩ := hw
  exact (Sound.initial gap).run hp cs

theorem Reachable.run (hw : Reachable p w) (ds : List Call) : Reachable p (w.run p ds) := by
  obtain ⟨cs, rfl⟩ := hw
  exact ⟨cs ++ ds, (run_append p initial cs ds).symm⟩

/-- **What holds of every tenancy.**  A property that new tenancies have, and that operations keep,
    is had by every tenancy of every reachable world. -/
theorem Reachable.induct {P : Tenancy → Prop} (hp : p.Sound gap)
    (hnew : ∀ c h base, c.validate = .ok () →
      p.placeRegion h.memory.outline (Block.layoutOf c.initialBlock) = some base →
        P (.new (newborn c h base)))
    (hact : ∀ w i t op, Sound gap w → w.at? i = some t → P t →
      P (t.act p w.markers w.host op).1) (hw : Reachable p w) :
    ∀ i t, w.at? i = some t → P t := by
  obtain ⟨cs, rfl⟩ := hw
  induction cs using List.reverseRecOn with
  | nil => exact fun i t hat => absurd hat (not_at?_initial i t)
  | append_singleton cs c ih =>
    rw [run_concat]
    have hsound := (Sound.initial gap).run hp cs
    have hstep := step_spec p (World.run p initial cs) c
    generalize (World.run p initial cs).step p c = w' at hstep ⊢
    cases hstep with
    | idle => exact ih
    | hosted => exact ih
    | made hplace hvalid => exact forall_at?_enroll ih (hnew _ _ _ hvalid hplace)
    | @operated i op t hat =>
      exact forall_at?_set (lt_of_at? hat) (hact _ i t op hsound hat (ih i t hat))
        fun j u _ hu => ih j u hu
    | discarded hat => exact fun j u hu => ih j u (at?_of_emptied (lt_of_at? hat) hu).2

/-- **Where markers come from.**  Every marker that a run has captured, by `top`, by a guard or with
    a new stack, was the position of a stack at some point of the run. -/
theorem markers_are_tops {cs : List Call} {m : Marker} (hm : m ∈ (World.run p initial cs).markers) :
    ∃ es i t, es <+: cs ∧ (World.run p initial es).at? i = some t ∧ t.stack.top = m := by
  induction cs using List.reverseRecOn with
  | nil => exact (List.not_mem_nil hm).elim
  | append_singleton cs c ih =>
    have hearlier : m ∈ (World.run p initial cs).markers →
        ∃ es i t, es <+: cs ++ [c] ∧ (World.run p initial es).at? i = some t ∧
          t.stack.top = m := by
      intro hold
      obtain ⟨es, i, t, hprefix, hat, htop⟩ := ih hold
      exact ⟨es, i, t, hprefix.trans (List.prefix_append _ _), hat, htop⟩
    have hrun := run_concat p initial cs c
    rw [hrun] at hm
    have hstep := step_spec p (World.run p initial cs) c
    generalize (World.run p initial cs).step p c = w' at hrun hm hstep
    cases hstep with
    | idle => exact hearlier hm
    | hosted => exact hearlier hm
    | @made d base hplace =>
      rcases List.mem_append.1 hm with hold | hnew
      · exact hearlier hold
      · refine ⟨_, (World.run p initial cs).slots.length,
          .new (newborn d (World.run p initial cs).host base), List.prefix_rfl, ?_,
          (List.mem_singleton.1 hnew).symm⟩
        rw [hrun]
        exact at?_enroll.2 (Or.inr ⟨rfl, rfl⟩)
    | @operated i op t hat =>
      rcases List.mem_append.1 hm with hold | hnew
      · exact hearlier hold
      · exact ⟨cs, i, t, List.prefix_append _ _, hat, (Tenancy.eq_top_of_captures hnew).symm⟩
    | discarded => exact hearlier hm

end StackArena.World
