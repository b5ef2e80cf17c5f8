/-
  How the books of a release build drift.

  The offset of a marker is cut down to the cursor of the block where the unwind ends, and its count
  to what is outstanding.  For a marker that does not fit the two are cut down without regard to
  each other, and then the outstanding bytes need not be what the cursors say.

  1. `leftBy m s` is what an unwind leaves reserved.  Books that balance balance after it just when
     the marker **tallies** with the stack: it counts what is left, or nothing is released and it
     counts no less.
  2. A call keeps the books of all stacks balanced just when its marker tallies.
  3. By induction on the run, the books are right in every state just when every marker tallies
     that an unwind is given (`books_hold_iff`).  `books_drift` is a run in which one does not.
-/
import StackArena.Proofs.Clamping

namespace StackArena

namespace Stack

variable {s : Stack} {m : Marker}

/-! ## What an unwind leaves reserved -/

/-- The bytes that an unwind leaves reserved: in the newest block that it keeps those before the
    offset of the marker, and all in the blocks below. -/
def leftBy (m : Marker) (s : Stack) : Nat :=
  match s.active.drop (s.surplus m.depth) with
  | blk :: older => min m.offset blk.cursor + (older.map Block.cursor).sum
  | [] => 0

theorem reserved_unwound (m : Marker) (s : Stack) : (s.unwound m).reserved = s.leftBy m := by
  obtain ⟨blk, older, hdrop, hcurrent, hbelow⟩ := s.active_unwound m
  rw [reserved, active, hcurrent, hbelow, leftBy, hdrop, List.map_cons, List.sum_cons]

/-- An unwind leaves no more than there was. -/
theorem leftBy_le (m : Marker) (s : Stack) : s.leftBy m ≤ s.reserved := by
  obtain ⟨newer, blk, older, cursor, hactive, hactive', hcursor⟩ := unwound_falls m s
  rw [← reserved_unwound]
  simp only [reserved, hactive, hactive', List.map_append, List.map_cons, List.sum_append,
    List.sum_cons]
  omega

/-- `s.Tallies m`: the count of the marker is what an unwind to it leaves reserved; or nothing is
    released, and the marker counts no less than there is. -/
def Tallies (s : Stack) (m : Marker) : Prop :=
  m.outstanding = s.leftBy m ∨ (s.leftBy m = s.outstanding ∧ s.outstanding ≤ m.outstanding)

instance (s : Stack) (m : Marker) : Decidable (s.Tallies m) :=
  inferInstanceAs (Decidable (_ ∨ (_ ∧ _)))

/-- **Books that balance balance after an unwind just when its marker tallies.** -/
theorem unwound_balanced_iff (hb : s.Balanced) : (s.unwound m).Balanced ↔ s.Tallies m := by
  have hle := s.leftBy_le m
  rw [← hb] at hle
  unfold Balanced Tallies
  rw [reserved_unwound]
  show min m.outstanding s.outstanding = s.leftBy m ↔ _
  omega

/-- An unwind to the bottom balances any books: nothing is left, and nothing is counted. -/
theorem bottom_balanced (hs : s.WellFormed) : (s.unwound s.bottom).Balanced := by
  obtain ⟨newer, oldest, -, hactive, hzero⟩ := unwound_bottom hs
  rw [Balanced, reserved, hactive, hzero]
  rfl

/-- A report that comes back has told the outstanding bytes. -/
theorem value_of_reportLeaks {p : Platform} {h : Host} {n : Nat} {st : Stack × Host}
    (hrun : reportLeaks p (s, h) = .ok n st) : n = s.outstanding := by
  rcases reportLeaks_cases p s h with ⟨-, hquiet⟩ | ⟨-, ⟨h', -, hdone⟩ | ⟨f, h', -, hstop⟩⟩
  · cases hquiet.symm.trans hrun
    rfl
  · cases hdone.symm.trans hrun
    rfl
  · cases hstop.symm.trans hrun

end Stack

namespace Tenancy

open Stack

variable {p : Platform} {markers : List Marker} {t : Tenancy} {h : Host} {m : Marker}

/-- In a release build an operation that unwinds to a marker does so, whatever the marker. -/
theorem act_stack_of_target (hrelease : p.build = .release) (hs : t.stack.WellFormed) {op : Op}
    (htarget : t.target? markers op = some m) :
    (t.act p markers h op).1.stack = t.stack.unwound m := by
  have hrun : Action.after (Stack.unwind p m) (t.stack, h)
      = (.ok (), t.stack.unwound m, t.stack.swept m h) :=
    Action.after_of_ok (unwind_of_accepted h hs (Or.inl hrelease))
  cases op with
  | unwind k =>
    have hk : markers[k]? = some m := htarget
    simp only [act, hk, release, hrun]
  | retreat =>
    cases hg : t.guards with
    | nil => simp [target?, hg] at htarget
    | cons g outer =>
      simp only [target?, hg] at htarget
      cases htarget
      simp only [act, hg, Guard.unwind, release, hrun]
  | leave =>
    cases hg : t.guards with
    | nil => simp [target?, hg] at htarget
    | cons g outer =>
      obtain ⟨g', hhead, rfl⟩ := Option.map_eq_some_iff.1 htarget
      obtain ⟨hfirst, harmed⟩ := Option.filter_eq_some_iff.1 hhead
      rw [hg] at hfirst
      cases hfirst
      simp only [act, hg, Guard.leave, if_pos harmed, Guard.unwind, release, hrun]
  | _ => cases htarget

end Tenancy

namespace World

open Stack

variable {p : Platform} {gap i : Nat} {w : World} {t : Tenancy}

/-! ## One call -/

/-- A call keeps the books of all stacks balanced if its marker tallies. -/
theorem step_balanced (hp : p.Sound gap) (hw : w.Sound gap)
    (hb : ∀ i t, w.at? i = some t → t.stack.Balanced) {c : Call}
    (htally : ∀ s m, w.target? c = some (s, m) → s.Tallies m) :
    ∀ i t, (w.step p c).at? i = some t → t.stack.Balanced := by
  have hstep := step_spec p w c
  generalize w.step p c = w' at hstep ⊢
  cases hstep with
  | idle => exact hb
  | hosted => exact hb
  | made => exact forall_at?_enroll hb rfl
  | @operated j op t hat =>
    refine forall_at?_set (lt_of_at? hat) ?_ fun k u _ hu => hb k u hu
    have hset := hw.settled j t hat
    refine (Tenancy.act_change hp hset w.markers op).balanced_of hp hset (hb j t hat) ?_
    rintro m (htarget | rfl) -
    · refine (unwound_balanced_iff (hb j t hat)).2 (htally t.stack m ?_)
      simp only [target?, hat, Option.bind_some, htarget, Option.map_some]
    · exact bottom_balanced hset.wellFormed
  | discarded hat => exact fun k u hu => hb k u (at?_of_emptied (lt_of_at? hat) hu).2

/-- In a release build the marker of a call that keeps the books balanced tallies. -/
theorem tallies_of_step (hrelease : p.build = .release) (hw : w.Sound gap)
    (hb : ∀ i t, w.at? i = some t → t.stack.Balanced) {c : Call}
    (hb' : ∀ i t, (w.step p c).at? i = some t → t.stack.Balanced) {s : Stack} {m : Marker}
    (htarget : w.target? c = some (s, m)) : s.Tallies m := by
  cases c with
  | on j op =>
    obtain ⟨t, hat, hmap⟩ := Option.bind_eq_some_iff.1 htarget
    obtain ⟨m', hm, heq⟩ := Option.map_eq_some_iff.1 hmap
    cases heq
    have hstack := Tenancy.act_stack_of_target (h := w.host) hrelease
      (hw.settled j t hat).wellFormed hm
    have hat' : (w.step p (.on j op)).at? j = some (t.act p w.markers w.host op).1 := by
      rw [step, operate, hat]
      exact (at?_set (lt_of_at? hat)).2 (Or.inl ⟨rfl, rfl⟩)
    have hafter := hb' j _ hat'
    rw [hstack] at hafter
    exact (unwound_balanced_iff (hb j t hat)).1 hafter
  | make => cases htarget
  | discard => cases htarget
  | install => cases htarget

/-! ## A run -/

/-- `Tallied p w cs`: every marker tallies that an unwind of the run is given. -/
def Tallied (p : Platform) (w : World) : List Call → Prop
  | [] => True
  | c :: cs => (∀ s m, w.target? c = some (s, m) → s.Tallies m) ∧ Tallied p (w.step p c) cs

instance decidableTallied (p : Platform) : (w : World) → (cs : List Call) →
    Decidable (Tallied p w cs)
  | _, [] => inferInstanceAs (Decidable True)
  | w, c :: cs =>
    have := decidableTallied p (w.step p c) cs
    have := decidable_of_iff _ (w.all_target?_iff Tallies c)
    inferInstanceAs (Decidable (_ ∧ _))

/-- From a world with balanced books on, the books balance in every state of a run of a release
    build just when every marker tallies. -/
theorem balanced_iff_tallied (hp : p.Sound gap) (hrelease : p.build = .release)
    (hw : w.Sound gap) (hb : ∀ i t, w.at? i = some t → t.stack.Balanced) (cs : List Call) :
    (∀ es, es <+: cs → ∀ i t, (run p w es).at? i = some t → t.stack.Balanced) ↔
      Tallied p w cs := by
  induction cs generalizing w with
  | nil =>
    constructor
    · intro _
      trivial
    · intro _ es hes
      rw [List.prefix_nil.1 hes]
      exact hb
  | cons c cs ih =>
    constructor
    · intro hall
      have hfirst : ∀ i t, (w.step p c).at? i = some t → t.stack.Balanced :=
        hall [c] (List.prefix_append [c] cs)
      refine ⟨fun s m => tallies_of_step hrelease hw hb hfirst, ?_⟩
      refine (ih (hw.step hp c) hfirst).1 ?_
      intro es hes
      exact hall (c :: es) (List.cons_prefix_cons.2 ⟨rfl, hes⟩)
    · rintro ⟨htally, hrest⟩ es hes
      have hfirst := step_balanced hp hw hb htally
      cases es with
      | nil => exact hb
      | cons d es =>
        obtain ⟨rfl, htail⟩ := List.cons_prefix_cons.1 hes
        exact (ih (hw.step hp d) hfirst).2 hrest es htail

/-- **When the books of a release build hold.**  In every state of a run the outstanding bytes of a
    stack are the cursors of its active blocks together, and a leak report comes to exactly these
    bytes, just when every marker tallies that an unwind of the run is given. -/
theorem books_hold_iff (hp : p.Sound gap) (hrelease : p.build = .release) (cs : List Call) :
    (∀ es, es <+: cs → ∀ i t, (run p initial es).at? i = some t →
      t.stack.outstanding = (t.stack.active.map Block.cursor).sum ∧
      ∀ n st, Stack.reportLeaks p (t.stack, (run p initial es).host) = .ok n st →
        n = (t.stack.active.map Block.cursor).sum) ↔
    Tallied p initial cs := by
  rw [← balanced_iff_tallied hp hrelease (Sound.initial gap)
    (fun i t hat => absurd hat (not_at?_initial i t)) cs]
  constructor
  · intro hall es hes i t hat
    exact (hall es hes i t hat).1
  · intro hall es hes i t hat
    have hbooks : t.stack.outstanding = (t.stack.active.map Block.cursor).sum :=
      hall es hes i t hat
    refine ⟨hbooks, ?_⟩
    intro n st hrun
    rw [value_of_reportLeaks hrun, hbooks]

/-- Calls of a release build that unwind to a marker of a block that is gone, when less is taken
    than it counts. -/
def lessThanCounted : List Call :=
  [.make (.sized .release 64), .on 0 (.allocate .plain ⟨100, 1⟩), .on 0 .top, .on 0 .unwindAll,
    .on 0 (.allocate .plain ⟨40, 1⟩), .on 0 (.unwind 1)]

/-- A marker that the checks would refuse can tally: nothing is released, and the forty bytes are
    what a report comes to. -/
theorem books_hold_refused :
    ¬Careful (Session.platform .release []) initial lessThanCounted ∧
      ∃ t, (run (Session.platform .release []) initial lessThanCounted).at? 0 = some t ∧
        t.stack.outstanding = 40 ∧
        ∀ n st, Stack.reportLeaks (Session.platform .release []) (t.stack,
          (run (Session.platform .release []) initial lessThanCounted).host) = .ok n st →
          n = 40 := by
  have hp : (Session.platform .release []).Sound 1 :=
    Session.platform_sound .release (by nofun) (by decide)
  have hrefused : ¬Careful (Session.platform .release []) initial lessThanCounted := by
    decide +kernel
  have htallied : Tallied (Session.platform .release []) initial lessThanCounted := by
    decide +kernel
  have hend : ((run (Session.platform .release []) initial lessThanCounted).at? 0).map
      (fun t => t.stack.outstanding) = some 40 := by decide +kernel
  obtain ⟨t, hat, hforty⟩ := Option.map_eq_some_iff.1 hend
  obtain ⟨hbooks, hreport⟩ :=
    (books_hold_iff hp rfl lessThanCounted).2 htallied _ List.prefix_rfl 0 t hat
  refine ⟨hrefused, t, hat, hforty, ?_⟩
  intro n st hrun
  rw [hreport n st hrun, ← hbooks, hforty]

/-- **The books can drift.**  After the calls of `outOfStep` a hundred and sixty-four bytes are
    reserved, and the books have a hundred: the depth and the offset of the marker lead to where the
    stack stands, its count does not.  A leak report comes to a hundred. -/
theorem books_drift :
    ∃ t, (run (Session.platform .release []) initial outOfStep).at? 0 = some t ∧
      t.stack.outstanding = 100 ∧ (t.stack.active.map Block.cursor).sum = 164 ∧
      ∃ st, Stack.reportLeaks (Session.platform .release []) (t.stack,
        (run (Session.platform .release []) initial outOfStep).host) = .ok 100 st := by
  have hend : ((run (Session.platform .release []) initial outOfStep).at? 0).map (fun t =>
      (t.stack.outstanding, (t.stack.active.map Block.cursor).sum,
        (Action.after (Stack.reportLeaks (Session.platform .release [])) (t.stack,
          (run (Session.platform .release []) initial outOfStep).host)).1.toOption))
      = some (100, 164, some 100) := by decide +kernel
  obtain ⟨t, hat, hall⟩ := Option.map_eq_some_iff.1 hend
  obtain ⟨hout, hrest⟩ := Prod.mk.inj hall
  obtain ⟨hreserved, hreport⟩ := Prod.mk.inj hrest
  refine ⟨t, hat, hout, hreserved, ?_⟩
  generalize hafter : Action.after (Stack.reportLeaks (Session.platform .release [])) (t.stack,
    (run (Session.platform .release []) initial outOfStep).host) = done at hreport
  rcases Action.of_after hafter with ⟨n, hn, hrun⟩ | ⟨f, hf, -⟩
  · rw [hn] at hreport
    cases hreport
    exact ⟨_, hrun⟩
  · rw [hf] at hreport
    cases hreport

end World

end StackArena
