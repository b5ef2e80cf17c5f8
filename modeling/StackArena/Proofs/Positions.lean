/-
  The order of positions.

  Two markers of one stack compare by depth, at one depth by offset, and not at all if they speak of
  different blocks there.  The count of outstanding bytes takes no part in it, but it takes part in
  equality; so that the two agree is a matter of the run.

  1. **The order** — what each outcome of a comparison says, and what turning it round and chaining
     it does.  All of this holds of any two markers.
  2. **Standing on a position** — as long as a stack is not unwound it stands on each of its
     earlier positions (`RestsOn`), so it has reserved no fewer bytes and has no fewer blocks; it is
     at the same position when both are the same.
  3. **Along a run** — a position belongs to one slot (`Passed`).  What a marker knows settles its
     count, hence equality; what happens between two captures settles which of them is first.
-/
import StackArena.Proofs.Keeping
import StackArena.Proofs.Standing

namespace StackArena

namespace Marker

variable {m n o : Marker}

/-! ## The order -/

theorem compare?_of_foreign (hstack : m.stack ≠ n.stack) : m.compare? n = none := by
  rw [compare?, if_pos hstack]

theorem compare?_of_lower (hstack : m.stack = n.stack) (hdepth : m.depth < n.depth) :
    m.compare? n = some .lt := by
  rw [compare?, if_neg (not_not.2 hstack), Nat.compare_eq_lt.2 hdepth]

theorem compare?_of_level (hstack : m.stack = n.stack) (hdepth : m.depth = n.depth) :
    m.compare? n = if m.serial = n.serial then some (compare m.offset n.offset) else none := by
  rw [compare?, if_neg (not_not.2 hstack), Nat.compare_eq_eq.2 hdepth]
  exact ite_not ..

/-- Turning a comparison round turns its outcome round. -/
theorem compare?_swap (m n : Marker) : n.compare? m = (m.compare? n).map Ordering.swap := by
  unfold compare?
  by_cases hstack : m.stack = n.stack
  · rw [if_neg (not_not.2 hstack), if_neg (not_not.2 hstack.symm), ← Nat.compare_swap m.depth]
    by_cases hserial : m.serial = n.serial
    · rw [if_neg (not_not.2 hserial), if_neg (not_not.2 hserial.symm), ← Nat.compare_swap m.offset]
      cases compare m.depth n.depth <;> rfl
    · rw [if_pos hserial, if_pos (Ne.symm hserial)]
      cases compare m.depth n.depth <;> rfl
  · rw [if_pos hstack, if_pos (Ne.symm hstack)]
    rfl

theorem compare?_of_higher (hstack : m.stack = n.stack) (hdepth : n.depth < m.depth) :
    m.compare? n = some .gt := by
  rw [compare?_swap, compare?_of_lower hstack.symm hdepth]
  rfl

/-- Markers that cannot be compared are of different stacks, or of different blocks at one depth. -/
theorem compare?_eq_none_iff :
    m.compare? n = none ↔ m.stack ≠ n.stack ∨ (m.depth = n.depth ∧ m.serial ≠ n.serial) := by
  by_cases hstack : m.stack = n.stack
  · rcases Nat.lt_trichotomy m.depth n.depth with hlt | heq | hgt
    · simp [compare?_of_lower hstack hlt, hstack, Nat.ne_of_lt hlt]
    · simp [compare?_of_level hstack heq, hstack, heq]
    · simp [compare?_of_higher hstack hgt, hstack, Nat.ne_of_gt hgt]
  · simp [compare?_of_foreign hstack, hstack]

/-- A marker lies before another at a smaller depth, or in the same block at a smaller offset. -/
theorem compare?_eq_lt_iff : m.compare? n = some .lt ↔ m.stack = n.stack ∧
    (m.depth < n.depth ∨ (m.depth = n.depth ∧ m.serial = n.serial ∧ m.offset < n.offset)) := by
  by_cases hstack : m.stack = n.stack
  · rcases Nat.lt_trichotomy m.depth n.depth with hlt | heq | hgt
    · simp [compare?_of_lower hstack hlt, hstack, hlt]
    · simp [compare?_of_level hstack heq, hstack, heq, Nat.compare_eq_lt]
    · simp [compare?_of_higher hstack hgt, Nat.not_lt_of_gt hgt, Nat.ne_of_gt hgt]
  · simp [compare?_of_foreign hstack, hstack]

/-- Markers compare as equal if they agree in all but the count. -/
theorem compare?_eq_eq_iff : m.compare? n = some .eq ↔
    m.stack = n.stack ∧ m.depth = n.depth ∧ m.serial = n.serial ∧ m.offset = n.offset := by
  by_cases hstack : m.stack = n.stack
  · rcases Nat.lt_trichotomy m.depth n.depth with hlt | heq | hgt
    · simp [compare?_of_lower hstack hlt, Nat.ne_of_lt hlt]
    · simp [compare?_of_level hstack heq, hstack, heq]
    · simp [compare?_of_higher hstack hgt, Nat.ne_of_gt hgt]
  · simp [compare?_of_foreign hstack, hstack]

/-- One marker lies before another just when the other lies behind it. -/
theorem compare?_lt_iff_gt : m.compare? n = some .lt ↔ n.compare? m = some .gt := by
  rw [compare?_swap m n]
  cases m.compare? n with
  | none => decide
  | some order => cases order <;> decide

/-- Equality asks for the count as well. -/
theorem eq_of_compare?_eq (hsame : m.compare? n = some .eq)
    (hcount : m.outstanding = n.outstanding) : m = n := by
  obtain ⟨hstack, hdepth, hserial, hoffset⟩ := compare?_eq_eq_iff.1 hsame
  exact (Marker.mk.injEq ..).mpr ⟨hstack, hdepth, hserial, hoffset, hcount⟩

theorem compare?_self (m : Marker) : m.compare? m = some .eq :=
  compare?_eq_eq_iff.2 ⟨rfl, rfl, rfl, rfl⟩

/-- What lies before what lies before a marker lies before it. -/
theorem compare?_trans (hfirst : m.compare? n = some .lt) (hsecond : n.compare? o = some .lt) :
    m.compare? o = some .lt := by
  obtain ⟨hstack, hlt⟩ := compare?_eq_lt_iff.1 hfirst
  obtain ⟨hstack', hlt'⟩ := compare?_eq_lt_iff.1 hsecond
  refine compare?_eq_lt_iff.2 ⟨hstack.trans hstack', ?_⟩
  rcases hlt with hdepth | ⟨hdepth, hserial, hoffset⟩
  · exact Or.inl (by omega)
  · rcases hlt' with hdepth' | ⟨hdepth', hserial', hoffset'⟩
    · exact Or.inl (by omega)
    · exact Or.inr ⟨hdepth.trans hdepth', hserial.trans hserial', hoffset.trans hoffset'⟩

end Marker

namespace Stack

variable {p : Platform} {gap : Nat} {s₀ s₁ s s' : Stack} {h h' : Host}

/-! ## Standing on a position -/

theorem RestsOn.trans (hfirst : RestsOn s₀ s₁) (hsecond : RestsOn s₁ s) : RestsOn s₀ s := by
  obtain ⟨newer, cursor, hactive, hcursor⟩ := hfirst
  obtain ⟨newer', cursor', hactive', hcursor'⟩ := hsecond
  cases newer with
  | nil =>
    obtain ⟨hcurrent, hbelow⟩ := List.cons.inj hactive
    rw [hcurrent] at hactive' hcursor'
    refine ⟨newer', cursor', ?_, Nat.le_trans hcursor hcursor'⟩
    rw [hactive', hbelow]
  | cons top newer =>
    obtain ⟨-, hbelow⟩ := List.cons.inj hactive
    refine ⟨newer' ++ { s₁.current with cursor := cursor' } :: newer, cursor, ?_, hcursor⟩
    rw [hactive', hbelow, List.append_assoc]
    rfl

/-- A stack that stands on another has reserved no fewer bytes and has no fewer blocks. -/
theorem RestsOn.taken_le (hrests : RestsOn s₀ s) :
    s₀.reserved ≤ s.reserved ∧ s₀.blockCount ≤ s.blockCount := by
  obtain ⟨newer, cursor, hactive, hcursor⟩ := hrests
  rw [reserved_of_above hactive hcursor, blockCount_of_above hactive]
  exact ⟨Nat.le_add_right _ _, Nat.le_add_right _ _⟩

/-- **The position of a stack is not before the one that it stands on.**  With further blocks it is
    deeper, and in the same block the cursor has not moved back. -/
theorem RestsOn.compare_top (hrests : RestsOn s₀ s) (hid : s.id = s₀.id) :
    s₀.top.compare? s.top = some .lt ∨ s₀.top.compare? s.top = some .eq := by
  obtain ⟨newer, cursor, hactive, hcursor⟩ := hrests
  have hcount := blockCount_of_above hactive
  have hstack : s₀.top.stack = s.top.stack := hid.symm
  cases newer with
  | nil =>
    have hcurrent := (List.cons.inj hactive).1
    have hserial : s₀.top.serial = s.top.serial := by
      show s₀.current.serial = s.current.serial
      rw [hcurrent]
    have hoffset : s.top.offset = cursor := by
      show s.current.cursor = cursor
      rw [hcurrent]
    rcases Nat.lt_or_eq_of_le hcursor with hlt | heq
    · refine Or.inl (Marker.compare?_eq_lt_iff.2 ⟨hstack, Or.inr ⟨hcount.symm, hserial, ?_⟩⟩)
      rw [hoffset]
      exact hlt
    · refine Or.inr (Marker.compare?_eq_eq_iff.2 ⟨hstack, hcount.symm, hserial, ?_⟩)
      rw [hoffset]
      exact heq
  | cons first newer =>
    rw [List.length_cons] at hcount
    exact Or.inl (Marker.compare?_of_lower hstack (show s₀.blockCount < s.blockCount by omega))

/-- **A stack is at the position that it stands on** when it has reserved no more bytes and has no
    more blocks. -/
theorem RestsOn.top_eq_iff (hrests : RestsOn s₀ s) (hid : s.id = s₀.id) (hb₀ : s₀.Balanced)
    (hb : s.Balanced) :
    s₀.top = s.top ↔ s.reserved = s₀.reserved ∧ s.blockCount = s₀.blockCount := by
  obtain ⟨newer, cursor, hactive, hcursor⟩ := hrests
  constructor
  · intro htop
    have hcount : s₀.blockCount = s.blockCount := congrArg Marker.depth htop
    have hout : s₀.outstanding = s.outstanding := congrArg Marker.outstanding htop
    exact ⟨by rw [← hb, ← hb₀, hout], hcount.symm⟩
  · rintro ⟨hreserved, hcount⟩
    have hmore := reserved_of_above hactive hcursor
    have hdeeper := blockCount_of_above hactive
    obtain rfl : newer = [] := List.length_eq_zero_iff.1 (by omega)
    obtain ⟨hcurrent, hbelow⟩ := List.cons.inj hactive
    have hsame : cursor = s₀.current.cursor := by omega
    refine (top_eq hid ?_ hbelow ?_).symm
    · rw [hcurrent, hsame]
    · rw [hb, hb₀, hreserved]

/-- A change that makes no unwind leaves the stack standing on what it was. -/
theorem Change.restsOn (hp : p.Sound gap) (hset : Settled gap s h) {known : Marker → Prop}
    (hnone : ∀ m, known m → ¬(p.build = .release ∨ s.objection? m = none))
    (hchange : Change p known s h s' h') : RestsOn s s' := by
  cases hchange with
  | still => exact .refl s
  | served hserves => exact hserves.restsOn hp hset (.refl s)
  | unwound hknown hok => exact absurd hok (hnone _ hknown)
  | shrunk => exact .refl s

end Stack

/-- An operation that makes no request, and no unwind that goes through, leaves the active blocks as
    they are. -/
theorem Tenancy.act_active {p : Platform} {markers : List Marker} {t : Tenancy} {h : Host} {op : Op}
    (hdebug : p.build = .debug) (hs : t.stack.WellFormed)
    (hother : ∀ form r, op ≠ .allocate form r)
    (hnone : ∀ m, t.aim? markers op = some m → t.stack.objection? m ≠ none) :
    (t.act p markers h op).1.stack.active = t.stack.active := by
  rcases t.act_leaves (p := p) (h := h) hs markers op with hstack | ⟨form, r, rfl, -⟩ |
    ⟨m, haim, hok, -⟩ | hstack
  · rw [hstack]
  · exact absurd rfl (hother form r)
  · exact absurd (hok.resolve_left (Build.eq_debug_iff.1 hdebug)) (hnone m haim)
  · rw [hstack]
    rfl

namespace World

open Stack

variable {p : Platform} {gap i k : Nat} {w : World} {t t' : Tenancy}

/-! ## Along a run -/

/-- `Unwinds w k c`: the call unwinds the stack in slot `k`, to a marker that the checks accept. -/
def Unwinds (w : World) (k : Nat) (c : Call) : Prop :=
  ∃ t op m, w.at? k = some t ∧ c = .on k op ∧ t.aim? w.markers op = some m ∧
    t.stack.objection? m = none

/-- `Unbroken p w k cs`: no call of the run unwinds the stack in slot `k`. -/
def Unbroken (p : Platform) (w : World) (k : Nat) : List Call → Prop
  | [] => True
  | c :: cs => ¬w.Unwinds k c ∧ Unbroken p (w.step p c) k cs

/-- `Spares p w k c`: the call reserves no bytes in the stack in slot `k` and does not grow it. -/
def Spares (p : Platform) (w : World) (k : Nat) (c : Call) : Prop :=
  ∀ t t', w.at? k = some t → (w.step p c).at? k = some t' →
    t'.stack.reserved = t.stack.reserved ∧ t'.stack.blockCount = t.stack.blockCount

/-- `Passed p cs i m`: at some point of the run the stack in slot `i` was at `m`. -/
def Passed (p : Platform) (cs : List Call) (i : Nat) (m : Marker) : Prop :=
  ∃ es t, es <+: cs ∧ (run p initial es).at? i = some t ∧ t.stack.top = m

theorem unbroken_append {es fs : List Call} :
    Unbroken p w k (es ++ fs) ↔ Unbroken p w k es ∧ Unbroken p (w.run p es) k fs := by
  induction es generalizing w with
  | nil => exact (and_iff_right trivial).symm
  | cons c es ih =>
    show _ ∧ Unbroken p (w.step p c) k (es ++ fs) ↔ _
    rw [ih, ← and_assoc]
    rfl

/-- Requests do not unwind, so a run of nothing else is unbroken. -/
theorem not_unwinds_allocate (w : World) (j : Nat) (form : Form) (r : Request) :
    ¬w.Unwinds k (.on j (.allocate form r)) := by
  rintro ⟨t, op, m, -, hcall, haim, -⟩
  cases hcall
  nomatch haim

/-- A call that does not unwind a stack, and makes no request of it, takes nothing of it. -/
theorem spares_of_other (hdebug : p.build = .debug) (hw : w.Sound gap) {c : Call}
    (hkeep : ¬w.Unwinds k c) (hother : ∀ form r, c ≠ .on k (.allocate form r)) :
    Spares p w k c := by
  intro t t' hat hat'
  obtain ⟨u, hu, rfl | ⟨op, rfl, rfl⟩⟩ := step_at? (lt_of_at? hat) hat'
  · cases hat.symm.trans hu
    exact ⟨rfl, rfl⟩
  · cases hat.symm.trans hu
    have hactive := Tenancy.act_active (h := w.host) hdebug (hw.settled k t hat).wellFormed
      (fun form r hop => hother form r (by rw [hop]))
      (fun m haim hok => hkeep ⟨t, op, m, hat, rfl, haim, hok⟩)
    constructor
    · rw [reserved, reserved, hactive]
    · exact congrArg List.length hactive

/-- Of two positions of a run one comes first. -/
theorem passed_pair {P : Nat → Nat → Marker → Marker → Prop}
    (hturn : ∀ i j m n, P i j m n → P j i n m)
    (hfirst : ∀ w i j t t' ds, Reachable p w → w.at? i = some t → (w.run p ds).at? j = some t' →
      P i j t.stack.top t'.stack.top) {cs : List Call} {j : Nat} {m n : Marker}
    (hm : Passed p cs i m) (hn : Passed p cs j n) : P i j m n := by
  obtain ⟨es, t, hes, hat, rfl⟩ := hm
  obtain ⟨fs, u, hfs, hu, rfl⟩ := hn
  rcases List.prefix_or_prefix_of_prefix hes hfs with ⟨ds, rfl⟩ | ⟨ds, rfl⟩
  · rw [run_append] at hu
    exact hfirst _ i j t u ds ⟨es, rfl⟩ hat hu
  · rw [run_append] at hat
    exact hturn j i _ _ (hfirst _ j i u t ds ⟨fs, rfl⟩ hu hat)

section

variable (hp : p.Sound gap) (hdebug : p.build = .debug)

include hp hdebug

/-- A call that does not unwind a stack leaves it standing on what it was. -/
theorem restsOn_step (hw : w.Sound gap) {c : Call} (hkeep : ¬w.Unwinds k c)
    (hat : w.at? k = some t) (hat' : (w.step p c).at? k = some t') : RestsOn t.stack t'.stack := by
  obtain ⟨u, hu, rfl | ⟨op, rfl, rfl⟩⟩ := step_at? (lt_of_at? hat) hat'
  · cases hat.symm.trans hu
    exact .refl _
  · cases hat.symm.trans hu
    have hset := hw.settled k t hat
    refine (Tenancy.act_turn hp hset w.markers op).change.restsOn hp hset ?_
    intro m haim hok
    exact hkeep ⟨t, op, m, hat, rfl, haim, hok.resolve_left (Build.eq_debug_iff.1 hdebug)⟩

/-- **As long as it is not unwound a stack stands on each of its earlier positions.** -/
theorem restsOn_run (hw : w.Sound gap) {ds : List Call} (hkeep : Unbroken p w k ds)
    (hat : w.at? k = some t) (hat' : (w.run p ds).at? k = some t') :
    RestsOn t.stack t'.stack := by
  induction ds generalizing w t with
  | nil =>
    cases hat.symm.trans hat'
    exact .refl _
  | cons c ds ih =>
    have hlt := Nat.lt_of_lt_of_le (lt_of_at? hat) (length_slots_step p w c)
    obtain ⟨u, hu⟩ := at?_of_run hlt hat'
    exact (restsOn_step hp hdebug hw hkeep.1 hat hu).trans (ih (hw.step hp c) hkeep.2 hu hat')

/-- What is taken of a stack during a run without unwinds is taken by the requests. -/
theorem taken_eq_of_spares (hw : w.Sound gap) {ds : List Call} (hkeep : Unbroken p w k ds)
    (hat : w.at? k = some t) (hat' : (w.run p ds).at? k = some t')
    (hspares : ∀ es form r, es ++ [.on k (.allocate form r)] <+: ds →
      Spares p (w.run p es) k (.on k (.allocate form r))) :
    t'.stack.reserved = t.stack.reserved ∧ t'.stack.blockCount = t.stack.blockCount := by
  induction ds generalizing w t with
  | nil =>
    cases hat.symm.trans hat'
    exact ⟨rfl, rfl⟩
  | cons c ds ih =>
    have hlt := Nat.lt_of_lt_of_le (lt_of_at? hat) (length_slots_step p w c)
    obtain ⟨u, hu⟩ := at?_of_run hlt hat'
    have hfirst : Spares p w k c := by
      by_cases hask : ∃ form r, c = .on k (.allocate form r)
      · obtain ⟨form, r, rfl⟩ := hask
        exact hspares [] form r (List.prefix_append [_] ds)
      · exact spares_of_other hdebug hw hkeep.1 fun form r hc => hask ⟨form, r, hc⟩
    obtain ⟨hreserved, hcount⟩ := hfirst t u hat hu
    obtain ⟨hreserved', hcount'⟩ := ih (hw.step hp c) hkeep.2 hu hat' fun es form r hes =>
      hspares (c :: es) form r ((List.prefix_cons_inj c).2 hes)
    exact ⟨hreserved'.trans hreserved, hcount'.trans hcount⟩

/-- **Positions in the order of time.**  A position that is captured before another of the same
    stack, with no unwind between, is not behind it; they are the same just when every request
    between reserved no bytes and did not grow the stack. -/
theorem tops_in_time (hw : Reachable p w) {ds : List Call} (hkeep : Unbroken p w k ds)
    (hat : w.at? k = some t) (hat' : (w.run p ds).at? k = some t') :
    (t.stack.top.compare? t'.stack.top = some .lt ∨ t.stack.top.compare? t'.stack.top = some .eq) ∧
    (t.stack.top = t'.stack.top ↔ ∀ es form r, es ++ [.on k (.allocate form r)] <+: ds →
      Spares p (w.run p es) k (.on k (.allocate form r))) := by
  have hsound := hw.sound hp
  obtain ⟨n, haccount⟩ := hw.account hp hdebug
  obtain ⟨n', haccount'⟩ := (hw.run ds).account hp hdebug
  have hid : t'.stack.id = t.stack.id :=
    ((Follows.start hsound hat).run hp hdebug hw ds).own t' hat'
  have hrests := restsOn_run hp hdebug hsound hkeep hat hat'
  refine ⟨hrests.compare_top hid, ?_⟩
  rw [hrests.top_eq_iff hid (haccount.balanced k t hat) (haccount'.balanced k t' hat')]
  constructor
  · rintro ⟨hreserved, hcount⟩ es form r ⟨rest, rfl⟩ u v hu hv
    -- What was taken by the request is between what was taken at the two ends.
    rw [unbroken_append, unbroken_append] at hkeep
    obtain ⟨⟨hbefore, hbetween, -⟩, hafter⟩ := hkeep
    rw [run_append, run_concat] at hat'
    rw [run_concat] at hafter
    have hsound' := (hw.run es).sound hp
    have hfirst := (restsOn_run hp hdebug hsound hbefore hat hu).taken_le
    have hstep := (restsOn_step hp hdebug hsound' hbetween hu hv).taken_le
    have hlast := (restsOn_run hp hdebug (hsound'.step hp _) hafter hv hat').taken_le
    omega
  · exact taken_eq_of_spares hp hdebug hsound hkeep hat hat'

/-- Stacks in different slots have different identities, at whatever points of a run. -/
theorem stack_ne_of_slot_ne (hw : Reachable p w) (hat : w.at? i = some t) {ds : List Call}
    (hat' : (w.run p ds).at? k = some t') (hne : i ≠ k) : t.stack.top.stack ≠ t'.stack.top.stack :=
  fun heq => ((Follows.start (hw.sound hp) hat).run hp hdebug hw ds).foreign k t' hat'
    (Ne.symm hne) heq.symm

/-- **A comparison tells what equality does.**  The earlier marker knows its stack, so at the later
    one, in the same block and at the same offset, it counts what is outstanding there. -/
theorem tops_eq_of_compare (hw : Reachable p w) (hat : w.at? i = some t) {ds : List Call}
    (hat' : (w.run p ds).at? k = some t')
    (hsame : t.stack.top.compare? t'.stack.top = some .eq) : t.stack.top = t'.stack.top := by
  obtain ⟨hstack, -, hserial, hoffset⟩ := Marker.compare?_eq_eq_iff.1 hsame
  have hslot : i = k := by
    by_contra hne
    exact stack_ne_of_slot_ne hp hdebug hw hat hat' hne hstack
  subst hslot
  obtain ⟨n, haccount⟩ := hw.account hp hdebug
  obtain ⟨n', haccount'⟩ := (hw.run ds).account hp hdebug
  obtain ⟨es, rfl⟩ := hw
  have hat'' := hat'
  rw [← run_append] at hat''
  have hshift := shift_run hp (Or.inl hdebug) hat hat''
  have hknows := hshift.knows (knows_top (haccount.ordered i t hat) (haccount.balanced i t hat))
  have hcount := (hknows hstack).2 [] t'.stack.current t'.stack.below rfl hserial.symm
  refine Marker.eq_of_compare?_eq hsame ?_
  show t.stack.top.outstanding = t'.stack.outstanding
  rw [hcount, hoffset, haccount'.balanced i t' hat', reserved, active, List.map_cons, List.sum_cons]
  rfl

/-- **Markers are partially ordered, in accord with equality and with time.**  In a debug build,
    over any number of stacks:
    1. every marker that was captured was a position of the stack in one of the slots;
    2. two positions compare as equal just when they are equal, the count of outstanding bytes
       included, and positions of different stacks are neither comparable nor equal;
    3. one marker lies before another just when that lies behind it, and what lies before a marker
       lies before all that the marker lies before;
    4. a position that is captured before another of the same stack, with no unwind between, is not
       behind it, and they are equal just when every request between reserved no bytes and did not
       grow the stack. -/
theorem positions_ordered (cs : List Call) :
    (∀ m ∈ (run p initial cs).markers, ∃ i, Passed p cs i m) ∧
    (∀ i j m n, Passed p cs i m → Passed p cs j n →
      (m.compare? n = some .eq ↔ m = n) ∧ (i ≠ j → m.compare? n = none ∧ m ≠ n)) ∧
    ((∀ m n : Marker, m.compare? n = some .lt ↔ n.compare? m = some .gt) ∧
      ∀ m n o : Marker, m.compare? n = some .lt → n.compare? o = some .lt →
        m.compare? o = some .lt) ∧
    ∀ es ds k t t', (run p initial es).at? k = some t →
      (run p initial (es ++ ds)).at? k = some t' → Unbroken p (run p initial es) k ds →
      (t.stack.top.compare? t'.stack.top = some .lt ∨
        t.stack.top.compare? t'.stack.top = some .eq) ∧
      (t.stack.top = t'.stack.top ↔ ∀ fs form r, fs ++ [.on k (.allocate form r)] <+: ds →
        Spares p (run p initial (es ++ fs)) k (.on k (.allocate form r))) := by
  refine ⟨?_, ?_, ⟨fun _ _ => Marker.compare?_lt_iff_gt, fun _ _ _ => Marker.compare?_trans⟩, ?_⟩
  · intro m hm
    obtain ⟨es, i, t, hes, hat, htop⟩ := markers_are_tops hm
    exact ⟨i, es, t, hes, hat, htop⟩
  · intro i j m n hm hn
    constructor
    · constructor
      · refine passed_pair (P := fun _ _ m n => m.compare? n = some .eq → m = n) ?_ ?_ hm hn
        · intro i j m n hmn hnm
          refine (hmn ?_).symm
          rw [Marker.compare?_swap, hnm]
          rfl
        · intro w i j t t' ds hw hat hat'
          exact tops_eq_of_compare hp hdebug hw hat hat'
      · rintro rfl
        exact m.compare?_self
    · intro hne
      have hstack : m.stack ≠ n.stack := by
        refine passed_pair (P := fun i j m n => i ≠ j → m.stack ≠ n.stack) ?_ ?_ hm hn hne
        · exact fun i j m n hmn hne => (hmn (Ne.symm hne)).symm
        · intro w i j t t' ds hw hat hat'
          exact stack_ne_of_slot_ne hp hdebug hw hat hat'
      exact ⟨Marker.compare?_of_foreign hstack, fun heq => hstack (congrArg Marker.stack heq)⟩
  · intro es ds k t t' hat hat' hkeep
    rw [run_append] at hat'
    simp only [run_append]
    exact tops_in_time hp hdebug ⟨es, rfl⟩ hkeep hat hat'

end

/-- A stack whose first block is half full. -/
def halfFull : List Call := [.make (.sized .debug 64), .on 0 (.allocate .plain ⟨32, 8⟩)]

/-- A request of no bytes at an address that is aligned leaves the stack where it is, and has
    reserved nothing; a request of one byte moves it on. -/
theorem positions_ordered_idle :
    ∃ t t' u, (run (Session.platform .debug []) initial halfFull).at? 0 = some t ∧
      (run (Session.platform .debug []) initial
        (halfFull ++ [.on 0 (.allocate .plain ⟨0, 8⟩)])).at? 0 = some t' ∧
      (run (Session.platform .debug []) initial
        (halfFull ++ [.on 0 (.allocate .plain ⟨1, 8⟩)])).at? 0 = some u ∧
      Spares (Session.platform .debug []) (run (Session.platform .debug []) initial halfFull) 0
        (.on 0 (.allocate .plain ⟨0, 8⟩)) ∧
      t.stack.top.compare? t'.stack.top = some .eq ∧
      t.stack.top.compare? u.stack.top = some .lt := by
  have hp : (Session.platform .debug []).Sound 1 :=
    Session.platform_sound .debug (by nofun) (by decide)
  have hstart : ((run (Session.platform .debug []) initial halfFull).at? 0).map
      (fun t => t.stack.top) = some ⟨⟨1⟩, 1, 0, 32, 32⟩ := by decide +kernel
  have hnothing : ((run (Session.platform .debug []) initial
      (halfFull ++ [.on 0 (.allocate .plain ⟨0, 8⟩)])).at? 0).map
      (fun t => t.stack.top) = some ⟨⟨1⟩, 1, 0, 32, 32⟩ := by decide +kernel
  have hmore : ((run (Session.platform .debug []) initial
      (halfFull ++ [.on 0 (.allocate .plain ⟨1, 8⟩)])).at? 0).map
      (fun t => t.stack.top) = some ⟨⟨1⟩, 1, 0, 33, 33⟩ := by decide +kernel
  obtain ⟨t, hat, htop⟩ := Option.map_eq_some_iff.1 hstart
  obtain ⟨t', hat', htop'⟩ := Option.map_eq_some_iff.1 hnothing
  obtain ⟨u, hu, hutop⟩ := Option.map_eq_some_iff.1 hmore
  have hplain : ∀ r, Unbroken (Session.platform .debug [])
      (run (Session.platform .debug []) initial halfFull) 0 [.on 0 (.allocate .plain r)] :=
    fun r => ⟨not_unwinds_allocate _ _ _ _, trivial⟩
  obtain ⟨-, hequal, -, htime⟩ :=
    positions_ordered hp rfl (halfFull ++ [.on 0 (.allocate .plain ⟨0, 8⟩)])
  have hspares := (htime halfFull _ 0 t t' hat hat' (hplain _)).2.1 (htop.trans htop'.symm)
  have hlater := (htime halfFull _ 0 t u hat hu (hplain _)).1
  refine ⟨t, t', u, hat, hat', hu, ?_, ?_, ?_⟩
  · exact hspares [] .plain ⟨0, 8⟩ List.prefix_rfl
  · exact (hequal 0 0 _ _ ⟨halfFull, t, List.prefix_append _ _, hat, rfl⟩
      ⟨_, t', List.prefix_rfl, hat', rfl⟩).1.2 (htop.trans htop'.symm)
  · refine hlater.resolve_right ?_
    rw [htop, hutop]
    decide

end World

end StackArena
