/-
  What an accepted unwind does to live grants.

  The checks of a marker know its block, but not what lies in the block.  When the block was taken
  back to before the offset of the marker, and then served requests up to beyond it, the marker is
  accepted; a grant that lies across the offset is then cut in the middle, and grants made after
  the marker was captured survive below it (`accepted_unwind_cuts`).

  `unwind_whole_iff` gives the exact condition: an accepted unwind leaves every live grant whole,
  and releases the ones made since the capture, just when none of these lies in the block of the
  marker and starts before its offset.  That holds whenever the marker fitted all the time since it
  was captured (`starts_after_of_fits`).

  The proof follows the grants since the capture (`Since`): those from before are live from before,
  and the others are not in the blocks below the block of the marker, which is frozen.
-/
import StackArena.Proofs.Acceptance
import StackArena.Proofs.Occupancy

namespace StackArena

open Stack

/-- The stack has taken a grant back in full: its block is not active, or the cursor of the block
    is not beyond the start of the grant. -/
def Stack.Frees (s : Stack) (g : Grant) : Prop :=
  ∀ blk ∈ s.active, blk.region = g.region → blk.base + blk.cursor ≤ g.address

instance (s : Stack) (g : Grant) : Decidable (s.Frees g) :=
  inferInstanceAs (Decidable (∀ blk ∈ s.active, blk.region = g.region →
    blk.base + blk.cursor ≤ g.address))

theorem Stack.holds_iff {s : Stack} {g : Grant} : s.holds g = true ↔
    ∃ blk ∈ s.active, blk.region = g.region ∧ g.limit ≤ blk.base + blk.cursor := by
  rw [Stack.holds, List.any_eq_true]
  constructor
  · rintro ⟨blk, hblk, hboth⟩
    obtain ⟨hregion, hlimit⟩ := Bool.and_eq_true_iff.1 hboth
    exact ⟨blk, hblk, beq_iff_eq.1 hregion, of_decide_eq_true hlimit⟩
  · rintro ⟨blk, hblk, hregion, hlimit⟩
    exact ⟨blk, hblk, Bool.and_eq_true_iff.2 ⟨beq_iff_eq.2 hregion, decide_eq_true hlimit⟩⟩

namespace Tenancy

variable {p : Platform} {gap : Nat} {markers : List Marker} {t₀ t : Tenancy} {h : Host}

/-! ## Grants by their numbers -/

/-- A live grant after an operation was live before; or it has the next number, and was served by
    the current block from bytes that were not taken before. -/
theorem live_act (hp : p.Sound gap) (hset : Settled gap t.stack h) {op : Op} {g : Grant}
    (hg : g ∈ (t.act p markers h op).1.live) :
    g ∈ t.live ∨ (g.number = t.served ∧ (t.act p markers h op).1.served = t.served + 1 ∧
      g.region = (t.act p markers h op).1.stack.current.region ∧
      ∀ blk ∈ t.stack.active, blk.region = g.region → blk.base + blk.cursor ≤ g.address) := by
  have hturn := act_turn hp hset markers op
  generalize t.act p markers h op = after at hturn hg ⊢
  obtain ⟨t', h'⟩ := after
  cases hturn with
  | still => exact Or.inl hg
  | missed => exact Or.inl hg
  | granted hserves =>
    rcases List.mem_cons.1 hg with rfl | hold
    · exact Or.inr ⟨rfl, rfl, rfl, (hserves.fresh hp hset).above⟩
    · exact Or.inl hold
  | unwound => exact Or.inl (List.mem_filter.1 hg).1
  | stopped => exact Or.inl (List.mem_filter.1 hg).1
  | shrunk => exact Or.inl hg

/-- Numbers are never given back. -/
theorem served_act (hp : p.Sound gap) (hset : Settled gap t.stack h) (markers : List Marker)
    (op : Op) : t.served ≤ (t.act p markers h op).1.served := by
  have hturn := act_turn hp hset markers op
  generalize t.act p markers h op = after at hturn ⊢
  obtain ⟨t', h'⟩ := after
  cases hturn with
  | granted => exact Nat.le_succ _
  | _ => exact Nat.le_refl _

/-- `Numbered t`: live grants have numbers that were given out. -/
def Numbered (t : Tenancy) : Prop := ∀ g ∈ t.live, g.number < t.served

theorem Numbered.act (hn : t.Numbered) (hp : p.Sound gap) (hset : Settled gap t.stack h)
    (op : Op) : (t.act p markers h op).1.Numbered := by
  intro g hg
  rcases live_act hp hset hg with hold | ⟨hnumber, hserved, -⟩
  · exact Nat.lt_of_lt_of_le (hn g hold) (served_act hp hset markers op)
  · omega

/-! ## Grants since a capture -/

/-- `Since t₀ t`: the grants of `t` that are numbered before the ones of `t₀` come from `t₀`, and
    the other ones are not in the blocks below the block that was current in `t₀`. -/
structure Since (t₀ t : Tenancy) : Prop where
  earlier : ∀ g ∈ t.live, g.number < t₀.served → g ∈ t₀.live
  later : ∀ g ∈ t.live, t₀.served ≤ g.number → ∀ blk ∈ t₀.stack.below, blk.region ≠ g.region
  served_le : t₀.served ≤ t.served

theorem Since.start (hn : t.Numbered) : Since t t := by
  refine ⟨fun g hg _ => hg, ?_, Nat.le_refl _⟩
  intro g hg hlate
  have hearly := hn g hg
  omega

end Tenancy

/-- Above `s₀` the current block is none of those below the block that was current. -/
theorem Stack.Above.current_ne {s₀ s : Stack} {h : Host} (ha : Above s₀ s)
    (hl : Lodged h.memory s) : ∀ blk ∈ s₀.below, blk.region ≠ s.current.region := by
  obtain ⟨newer, cursor, hactive⟩ := ha
  have hdistinct : (s.active.map Block.region).Nodup := by
    have hall := hl.distinct
    rw [regions, blocks, List.map_append] at hall
    exact (List.nodup_append.1 hall).1
  have hcurrent : s.active = s.current :: s.below := rfl
  intro blk hblk heq
  have hbelow : blk ∈ s.below := by
    cases newer with
    | nil =>
      rw [hcurrent] at hactive
      rw [(List.cons.inj hactive).2]
      exact hblk
    | cons top newer =>
      rw [hcurrent] at hactive
      rw [(List.cons.inj hactive).2]
      exact List.mem_append_right _ (List.mem_cons_of_mem _ hblk)
  rw [hcurrent, List.map_cons] at hdistinct
  exact (List.nodup_cons.1 hdistinct).1 (heq ▸ List.mem_map_of_mem hbelow)

namespace World

variable {p : Platform} {gap n k : Nat} {w : World}

/-- An operation after which the stack stands above `t₀` keeps what is known since then. -/
theorem since_act (hp : p.Sound gap) (hw : w.Sound gap) {t₀ t : Tenancy} (hat : w.at? k = some t)
    (hsince : t₀.Since t) {op : Op}
    (habove : Above t₀.stack (t.act p w.markers w.host op).1.stack) :
    t₀.Since (t.act p w.markers w.host op).1 := by
  have hset := hw.settled k t hat
  have hl := (act_moves hp hw hat op).settled.lodged
  refine ⟨?_, ?_, Nat.le_trans hsince.served_le (Tenancy.served_act hp hset w.markers op)⟩
  · intro g hg hearly
    rcases Tenancy.live_act hp hset hg with hold | ⟨hnumber, -⟩
    · exact hsince.earlier g hold hearly
    · have hle := hsince.served_le
      omega
  · intro g hg hlate
    rcases Tenancy.live_act hp hset hg with hold | ⟨-, -, hregion, -⟩
    · exact hsince.later g hold hlate
    · rw [hregion]
      exact habove.current_ne hl

section

variable (hp : p.Sound gap) (hdebug : p.build = .debug) (hw : Reachable p w)

include hp

/-- Every stack of a reachable world has its live grants numbered. -/
theorem Reachable.numbered (hw : Reachable p w) {i : Nat} {t : Tenancy} (hat : w.at? i = some t) :
    t.Numbered :=
  hw.induct hp (fun _ _ _ _ _ _ hg => (List.not_mem_nil hg).elim)
    (fun _ i _ op hsound hat hn => hn.act hp (hsound.settled i _ hat) op) i t hat

include hdebug hw

/-- While the block of a marker is active, the grants since its capture are known. -/
theorem since_run {t₀ : Tenancy} (hat₀ : w.at? k = some t₀) {cs : List Call} {t : Tenancy}
    (hat : (w.run p cs).at? k = some t) (habove : Above t₀.stack t.stack) : t₀.Since t := by
  have hf := Follows.start (hw.sound hp) hat₀
  induction cs using List.reverseRecOn generalizing t with
  | nil =>
    obtain rfl := Option.some.inj (hat₀.symm.trans hat)
    exact Tenancy.Since.start (hw.numbered hp hat₀)
  | append_singleton cs c ih =>
    have hsound := (hw.run cs).sound hp
    have hfollows := hf.run hp hdebug hw cs
    rw [run_concat] at hat
    obtain ⟨u, hu, rfl | ⟨op, -, rfl⟩⟩ := step_at? hfollows.slot_lt hat
    · exact ih hu habove
    · -- A stack that stands above now has done so before.
      rcases hfollows.fate u hu with hbefore | hexpired
      · exact since_act hp hsound hu (ih hu hbefore) habove
      · exact absurd ((act_shift hp hdebug hsound hu op).expired hexpired) habove.not_expired

/-- A stack that a captured marker fits stands above the stack that it was captured on. -/
theorem above_of_fits {t₀ : Tenancy} (hat₀ : w.at? k = some t₀) {cs : List Call} {t : Tenancy}
    (hat : (w.run p cs).at? k = some t) (hfits : t.stack.Fits t₀.stack.top) :
    Above t₀.stack t.stack := by
  have hf := (Follows.start (hw.sound hp) hat₀).run hp hdebug hw cs
  rcases hf.fate t hat with habove | hexpired
  · exact habove
  · exact absurd hfits hexpired.not_fits

/-- **Which accepted unwinds leave grants whole.**  In a debug build, let an unwind to a marker that
    was captured earlier on the same stack be accepted.  Every grant that was live is then wholly
    kept or wholly released, and every grant since the capture is released, just when no live grant
    since the capture lies in the block of the marker and starts before its offset. -/
theorem unwind_whole_iff {t₀ : Tenancy} (hat₀ : w.at? k = some t₀) {cs : List Call} {t : Tenancy}
    (hat : (w.run p cs).at? k = some t) {s' : Stack} {h' : Host}
    (hrun : Stack.unwind p t₀.stack.top (t.stack, (w.run p cs).host) = .ok () (s', h')) :
    (∀ g ∈ t.live, (s'.holds g = true ∨ s'.Frees g) ∧ (t₀.served ≤ g.number → s'.Frees g)) ↔
      ∀ g ∈ t.live, t₀.served ≤ g.number → g.region = t₀.stack.current.region →
        t₀.stack.current.base + t₀.stack.top.offset ≤ g.address := by
  have hs := (((hw.run cs).sound hp).settled k t hat).wellFormed
  rcases verdict hp hdebug hw hat₀ hat with ⟨hfits, hcount, -, hactive, -⟩ | ⟨hfits, -⟩
  · rw [unwind_of_accepted _ hs (Or.inr (objection?_eq_none_iff.2 ⟨hfits, hcount⟩))] at hrun
    cases hrun
    -- The active blocks are those of `t₀` again.  A grant from before lies in one of them, and one
    -- since then lies in none, or in the block of the marker.
    have hsince := since_run hp hdebug hw hat₀ hat (above_of_fits hp hdebug hw hat₀ hat hfits)
    constructor
    · intro hwhole g hg hlate hregion
      refine (hwhole g hg).2 hlate t₀.stack.current ?_ hregion.symm
      rw [hactive]
      exact t₀.stack.current_mem_active
    · intro hstart g hg
      by_cases hlate : t₀.served ≤ g.number
      · have hfrees : (t.stack.unwound t₀.stack.top).Frees g := by
          intro blk hblk hregion
          rw [hactive] at hblk
          rcases List.mem_cons.1 hblk with rfl | hbelow
          · exact hstart g hg hlate hregion.symm
          · exact absurd hregion (hsince.later g hg hlate blk hbelow)
        exact ⟨Or.inr hfrees, fun _ => hfrees⟩
      · have hlive := hsince.earlier g hg (Nat.lt_of_not_le hlate)
        obtain ⟨blk, hblk, hregion, -, hhi⟩ := (hw.tidy hp hat₀).placed g hlive
        refine ⟨Or.inl (holds_iff.2 ⟨blk, ?_, hregion, hhi⟩), fun hge => absurd hge hlate⟩
        rw [hactive]
        exact hblk
  · obtain ⟨f, hobjection, -⟩ := objection?_of_not_fits hfits
    rw [unwind_of_objection _ hdebug hobjection] at hrun
    nomatch hrun

/-- **Grants lie after a marker that fits all the time.**  If the marker fitted at every point since
    its capture, no live grant since then lies in its block and starts before its offset. -/
theorem starts_after_of_fits {t₀ : Tenancy} (hat₀ : w.at? k = some t₀) {cs : List Call}
    {t : Tenancy} (hat : (w.run p cs).at? k = some t)
    (hfits : ∀ es, es <+: cs → ∀ u, (w.run p es).at? k = some u → u.stack.Fits t₀.stack.top) :
    ∀ g ∈ t.live, t₀.served ≤ g.number → g.region = t₀.stack.current.region →
      t₀.stack.current.base + t₀.stack.top.offset ≤ g.address := by
  intro g hg hlate hregion
  induction cs using List.reverseRecOn generalizing t with
  | nil =>
    obtain rfl := Option.some.inj (hat₀.symm.trans hat)
    have hearly := hw.numbered hp hat₀ g hg
    omega
  | append_singleton cs c ih =>
    have hsound := (hw.run cs).sound hp
    have hlt := ((Follows.start (hw.sound hp) hat₀).run hp hdebug hw cs).slot_lt
    have hbefore : ∀ es, es <+: cs → ∀ u, (w.run p es).at? k = some u →
        u.stack.Fits t₀.stack.top := fun es hes =>
      hfits es (hes.trans (List.prefix_append _ _))
    rw [run_concat] at hat
    obtain ⟨u, hu, rfl | ⟨op, -, rfl⟩⟩ := step_at? hlt hat
    · exact ih hu hbefore hg
    · rcases Tenancy.live_act hp (hsound.settled k u hu) hg with hold | ⟨-, -, -, hnew⟩
      · exact ih hu hbefore hold
      · -- The new grant starts after the cursor, and that was not before the offset.
        have hfit := hbefore cs List.prefix_rfl u hu
        obtain ⟨newer, cursor, hactive⟩ := above_of_fits hp hdebug hw hat₀ hu hfit
        obtain ⟨n, haccount⟩ := (hw.run cs).account hp hdebug
        have hcursor := hfit.cursor_le (haccount.ordered k u hu) hactive
        have hstart := hnew { t₀.stack.current with cursor }
          (by rw [hactive]; exact List.mem_append_cons_self) hregion.symm
        have hend : t₀.stack.current.base + cursor ≤ g.address := hstart
        show t₀.stack.current.base + t₀.stack.current.cursor ≤ g.address
        omega

end

/-! ## Runs with and without a cut -/

/-- A stack with a grant of ten bytes, where a marker is captured. -/
def tenBytes : World := run (Session.platform .debug []) initial
  [.make (.sized .debug 64), .on 0 (.allocate .plain ⟨10, 1⟩)]

/-- Twenty bytes more leave the marker good: the unwind to it releases them and keeps the ten. -/
theorem unwind_whole_more :
    ∃ t₀ t s' h', tenBytes.at? 0 = some t₀ ∧
      (tenBytes.run (Session.platform .debug []) [.on 0 (.allocate .plain ⟨20, 1⟩)]).at? 0 = some t ∧
      Stack.unwind (Session.platform .debug []) t₀.stack.top (t.stack,
        (tenBytes.run (Session.platform .debug []) [.on 0 (.allocate .plain ⟨20, 1⟩)]).host)
        = .ok () (s', h') ∧
      t.live.length = 2 ∧
      ∀ g ∈ t.live, (s'.holds g = true ∨ s'.Frees g) ∧ (t₀.served ≤ g.number → s'.Frees g) := by
  have hp : (Session.platform .debug []).Sound 1 :=
    Session.platform_sound .debug (by nofun) (by decide)
  have hall : (tenBytes.at? 0).any (fun t₀ =>
      ((tenBytes.run (Session.platform .debug []) [.on 0 (.allocate .plain ⟨20, 1⟩)]).at? 0).any
        fun t => (t.stack.objection? t₀.stack.top).isNone && t.live.length == 2 &&
          t.live.all fun g => decide (t₀.served ≤ g.number →
            g.region = t₀.stack.current.region →
              t₀.stack.current.base + t₀.stack.top.offset ≤ g.address)) = true := by
    decide +kernel
  obtain ⟨t₀, hat₀, hsome⟩ := (Option.any_eq_true _ _).1 hall
  obtain ⟨t, hat, hboth⟩ := (Option.any_eq_true _ _).1 hsome
  obtain ⟨hfirst, hstarts⟩ := Bool.and_eq_true_iff.1 hboth
  obtain ⟨hnone, htwo⟩ := Bool.and_eq_true_iff.1 hfirst
  have hreach : Reachable (Session.platform .debug []) tenBytes := ⟨_, rfl⟩
  have hs := (((hreach.run _).sound hp).settled 0 t hat).wellFormed
  have hrun := unwind_of_accepted (p := Session.platform .debug [])
    (tenBytes.run (Session.platform .debug []) [.on 0 (.allocate .plain ⟨20, 1⟩)]).host hs
    (Or.inr (Option.isNone_iff_eq_none.1 hnone))
  refine ⟨t₀, t, _, _, hat₀, hat, hrun, beq_iff_eq.1 htwo, ?_⟩
  exact (unwind_whole_iff hp rfl hreach hat₀ hat hrun).2 fun g hg =>
    of_decide_eq_true (List.all_eq_true.1 hstarts g hg)

/-- **An accepted unwind can cut a grant.**  All is released, twenty bytes are served where the ten
    were, and the marker is accepted: its block is the same, and the cursor is past its offset.  Of
    the twenty bytes, made after the capture, the first ten stay taken and the others do not. -/
theorem accepted_unwind_cuts :
    ∃ t₀ t s' h', tenBytes.at? 0 = some t₀ ∧
      (tenBytes.run (Session.platform .debug [])
        [.on 0 .unwindAll, .on 0 (.allocate .plain ⟨20, 1⟩)]).at? 0 = some t ∧
      Stack.unwind (Session.platform .debug []) t₀.stack.top (t.stack,
        (tenBytes.run (Session.platform .debug [])
          [.on 0 .unwindAll, .on 0 (.allocate .plain ⟨20, 1⟩)]).host) = .ok () (s', h') ∧
      ∃ g ∈ t.live, t₀.served ≤ g.number ∧ s'.holds g = false ∧ ¬s'.Frees g := by
  have hp : (Session.platform .debug []).Sound 1 :=
    Session.platform_sound .debug (by nofun) (by decide)
  have hall : (tenBytes.at? 0).any (fun t₀ =>
      ((tenBytes.run (Session.platform .debug [])
        [.on 0 .unwindAll, .on 0 (.allocate .plain ⟨20, 1⟩)]).at? 0).any
        fun t => (t.stack.objection? t₀.stack.top).isNone &&
          decide (∃ g ∈ t.live, t₀.served ≤ g.number ∧
            (t.stack.unwound t₀.stack.top).holds g = false ∧
            ¬(t.stack.unwound t₀.stack.top).Frees g)) = true := by
    decide +kernel
  obtain ⟨t₀, hat₀, hsome⟩ := (Option.any_eq_true _ _).1 hall
  obtain ⟨t, hat, hboth⟩ := (Option.any_eq_true _ _).1 hsome
  obtain ⟨hnone, hcut⟩ := Bool.and_eq_true_iff.1 hboth
  have hreach : Reachable (Session.platform .debug []) tenBytes := ⟨_, rfl⟩
  have hs := (((hreach.run _).sound hp).settled 0 t hat).wellFormed
  have hrun := unwind_of_accepted (p := Session.platform .debug [])
    (tenBytes.run (Session.platform .debug [])
      [.on 0 .unwindAll, .on 0 (.allocate .plain ⟨20, 1⟩)]).host hs
    (Or.inr (Option.isNone_iff_eq_none.1 hnone))
  exact ⟨t₀, t, _, _, hat₀, hat, hrun, of_decide_eq_true hcut⟩

end World

end StackArena
