/-
  No block is lost, made twice or taken for another.

  1. **Serials** — a serial is given to one block and to no other: as long as the block is active it
     stays where it is, and after that its serial is out of use (`Shift.keeps`).
  2. **Histories** — the history of a slot is what the calls that concern it have written into the
     journal.  By induction on the run, the regions that were ever made for a stack are, each once,
     the regions that it has and the ones that were freed (`Kept`).
  3. **Together** — `blocks_kept`.
-/
import StackArena.Proofs.Ledger
import StackArena.Proofs.Contents

namespace StackArena

namespace Stack

variable {p : Platform} {gap : Nat} {s s' : Stack} {h h' : Host}

/-! ## Serials -/

/-- **A block is known by its serial**: it stays active in its region, or its serial is out of
    use. -/
theorem Shift.keeps (hshift : Shift s s') (hs : s.Ordered) {blk : Block} (hblk : blk ∈ s.active) :
    (∃ blk' ∈ s'.active, blk'.serial = blk.serial ∧ blk'.region = blk.region) ∨
      Expired blk.serial s' := by
  induction hshift generalizing blk with
  | @turn s s' cursor hid hnext hactive =>
    refine Or.inl ?_
    rw [hactive]
    rcases List.mem_cons.1 hblk with rfl | hold
    · exact ⟨_, List.mem_cons_self, rfl, rfl⟩
    · exact ⟨blk, List.mem_cons_of_mem _ hold, rfl, rfl⟩
  | push hid hnext hserial hactive =>
    refine Or.inl ⟨blk, ?_, rfl, rfl⟩
    rw [hactive]
    exact List.mem_cons_of_mem _ hblk
  | shed front hid hnext hactive =>
    have hdecreasing := hs.decreasing
    rw [hactive] at hblk hdecreasing
    rcases List.mem_append.1 hblk with hfront | hkept
    · refine Or.inr ⟨?_, ?_⟩
      · have hlt := hs.below_next blk (by rw [hactive]; exact hblk)
        omega
      · intro old hold
        have hlt := (List.pairwise_append.1 hdecreasing).2.2 blk hfront old hold
        omega
    · exact Or.inl ⟨blk, hkept, rfl, rfl⟩
  | trans hfirst hsecond ihfirst ihsecond =>
    rcases ihfirst hs hblk with ⟨blk', hblk', hserial, hregion⟩ | hexpired
    · rcases ihsecond (hfirst.ordered hs) hblk' with ⟨last, hlast, hserial', hregion'⟩ | hexpired
      · exact Or.inl ⟨last, hlast, hserial'.trans hserial, hregion'.trans hregion⟩
      · rw [hserial] at hexpired
        exact Or.inr hexpired
    · exact Or.inr (hsecond.expired hexpired)

/-- No two active blocks have one serial. -/
theorem Ordered.eq_of_serial (hs : s.Ordered) {blk other : Block} (hblk : blk ∈ s.active)
    (hother : other ∈ s.active) (hserial : blk.serial = other.serial) : blk = other := by
  obtain ⟨newer, older, hsplit⟩ := List.append_of_mem hblk
  obtain ⟨newer', older', hsplit'⟩ := List.append_of_mem hother
  exact (hs.split_unique hsplit hsplit' hserial).2.1

/-- A stack that frees what it releases has no cache. -/
theorem Change.cache_nil {known : Marker → Prop} (hchange : Change p known s h s' h')
    (hret : s.retention = .release) (hnil : s.cache = []) : s'.cache = [] := by
  cases hchange with
  | still => exact hnil
  | served hserves =>
    refine hserves.keeps (P := fun s' _ => s'.cache = []) hnil ?_ ?_
    · intro required out s₁ h₁ hgrow
      cases hgrow with
      | reused hserial hcache =>
        rw [hnil] at hcache
        nomatch hcache
      | made => exact hnil
      | serialsOut => exact hnil
      | noBlock => exact hnil
    · intro s₁ h₁ out s₂ h₂ hsame hbump
      cases hbump <;> exact hsame
  | @unwound m =>
    have hdropped : ∀ (n : Nat) (s : Stack), s.retention = .release →
        (dropped n s).cache = s.cache := by
      intro n
      induction n with
      | zero => exact fun _ _ => rfl
      | succ n ih =>
        intro s hret
        cases hbelow : s.below with
        | nil =>
          have hsame := dropCurrent_of_nil hbelow
          rw [dropped, hsame]
          exact ih s hret
        | cons next below =>
          have hdrop := dropCurrent_of_below hbelow
          rw [dropped, ih s.dropCurrent (by rw [hdrop]; exact hret), hdrop, hret]
    exact (hdropped _ s hret).trans hnil
  | shrunk => rfl

end Stack

namespace Tenancy

open Stack

variable {p : Platform} {gap : Nat} {t : Tenancy} {h : Host}

/-! ## What an operation records -/

/-- **What an operation runs** on its stack, if anything. -/
theorem act_runs (p : Platform) (markers : List Marker) (t : Tenancy) (h : Host) (op : Op) :
    ((t.act p markers h op).1.stack = t.stack ∧ (t.act p markers h op).2 = h) ∨
    (∃ form r out, op = .allocate form r ∧ Action.after (Form.ask p r form) (t.stack, h)
      = (out, (t.act p markers h op).1.stack, (t.act p markers h op).2)) ∨
    (∃ m out, t.aim? markers op = some m ∧ Action.after (Stack.unwind p m) (t.stack, h)
      = (out, (t.act p markers h op).1.stack, (t.act p markers h op).2)) ∨
    (∃ out, Action.after Stack.shrink (t.stack, h)
      = (out, (t.act p markers h op).1.stack, (t.act p markers h op).2)) ∨
    (∃ out, op = .reportLeaks ∧ Action.after (Stack.reportLeaks p) (t.stack, h)
      = (out, (t.act p markers h op).1.stack, (t.act p markers h op).2)) := by
  cases op with
  | allocate form r =>
    refine Or.inr (Or.inl ⟨form, r, (Action.after (form.ask p r) (t.stack, h)).1, rfl, ?_⟩)
    rw [act, request]
    generalize Action.after (form.ask p r) (t.stack, h) = out
    obtain ⟨out, s', h'⟩ := out
    dsimp only
    split
    · rename_i heq
      cases heq
      rfl
    · rename_i heq
      cases heq
      rfl
  | top => exact Or.inl ⟨rfl, rfl⟩
  | unwind k =>
    cases hm : markers[k]? with
    | none =>
      refine Or.inl ?_
      simp [act, hm]
    | some m =>
      simp only [act, hm]
      exact Or.inr (Or.inr (Or.inl ⟨m, _, hm, rfl⟩))
  | unwindAll => exact Or.inr (Or.inr (Or.inl ⟨t.stack.bottom, _, rfl, rfl⟩))
  | shrink => exact Or.inr (Or.inr (Or.inr (Or.inl ⟨_, rfl⟩)))
  | reportLeaks => exact Or.inr (Or.inr (Or.inr (Or.inr ⟨_, rfl, rfl⟩)))
  | enter => exact Or.inl ⟨rfl, rfl⟩
  | disarm =>
    cases hg : t.guards with
    | nil =>
      refine Or.inl ?_
      simp [act, hg]
    | cons g outer =>
      refine Or.inl ?_
      simp [act, hg]
  | retreat =>
    cases hg : t.guards with
    | nil =>
      refine Or.inl ?_
      simp [act, hg]
    | cons g outer =>
      simp only [act, aim?, target?, hg]
      exact Or.inr (Or.inr (Or.inl ⟨g.marker, _, rfl, rfl⟩))
  | leave =>
    cases hg : t.guards with
    | nil =>
      refine Or.inl ?_
      simp [act, hg]
    | cons g outer =>
      simp only [act, aim?, target?, hg, Guard.leave, List.head?_cons, Option.filter_some]
      by_cases harmed : g.armed = true
      · rw [if_pos harmed, if_pos harmed]
        exact Or.inr (Or.inr (Or.inl ⟨g.marker, _, rfl, rfl⟩))
      · rw [if_neg harmed]
        exact Or.inl ⟨rfl, rfl⟩

/-- **What an operation leaves of its stack**: the stack as it was or as a request leaves it, the
    stack unwound to a marker that is accepted, or the stack without its cache. -/
theorem act_leaves (hs : t.stack.WellFormed) (markers : List Marker) (op : Op) :
    (t.act p markers h op).1.stack = t.stack ∨
    (∃ form r, op = .allocate form r ∧ (t.act p markers h op).1.stack
      = (Action.after (Form.ask p r form) (t.stack, h)).2.1) ∨
    (∃ m, t.aim? markers op = some m ∧ (p.build = .release ∨ t.stack.objection? m = none) ∧
      (t.act p markers h op).1.stack = t.stack.unwound m) ∨
    (t.act p markers h op).1.stack = { t.stack with cache := [] } := by
  rcases t.act_runs p markers h op with ⟨hstack, -⟩ | ⟨form, r, out, hop, hrun⟩ |
    ⟨m, out, haim, hrun⟩ | ⟨out, hrun⟩ | ⟨out, -, hrun⟩
  · exact Or.inl hstack
  · refine Or.inr (Or.inl ⟨form, r, hop, ?_⟩)
    rw [hrun]
  · rcases unwind_ends p m h hs with ⟨hdone, hok⟩ | ⟨f, hstop, -, -⟩
    · exact Or.inr (Or.inr (Or.inl ⟨m, haim, hok, congrArg (·.2.1) (hrun.symm.trans hdone)⟩))
    · exact Or.inl (congrArg (·.2.1) (hrun.symm.trans hstop))
  · have hdone := Action.after_of_ok (shrink_apply t.stack h)
    exact Or.inr (Or.inr (Or.inr (congrArg (·.2.1) (hrun.symm.trans hdone))))
  · obtain ⟨out', h', hreport, -⟩ := reportLeaks_ends p t.stack h
    exact Or.inl (congrArg (·.2.1) (hrun.symm.trans hreport))

/-- **What an operation records**: with the regions made, the stack has what it had, the freed ones
    apart. -/
theorem act_records (hp : p.Sound gap) (hd : p.Discreet) (hset : Settled gap t.stack h)
    (markers : List Marker) (op : Op) :
    ∃ made freed, h.Records made freed (t.act p markers h op).2 ∧ made.length ≤ 1 ∧
      (made = [] ∨ freed = []) ∧
      (made ++ t.stack.regions).Perm ((t.act p markers h op).1.stack.regions ++ freed) := by
  rcases t.act_runs p markers h op with ⟨hstack, hhost⟩ | ⟨form, r, out, -, hrun⟩ |
    ⟨m, out, -, hrun⟩ | ⟨out, hrun⟩ | ⟨out, -, hrun⟩
  · rw [hstack, hhost]
    refine ⟨[], [], .refl h, Nat.zero_le _, Or.inl rfl, ?_⟩
    rw [List.append_nil]
    exact .refl _
  · obtain ⟨made, hrecords, hone, hperm⟩ := ask_records hp hset hrun
    refine ⟨made, [], hrecords, hone, Or.inr rfl, ?_⟩
    rw [List.append_nil]
    exact hperm.symm
  · obtain ⟨freed, hrecords, hperm, -⟩ := unwind_records hset.wellFormed hrun
    exact ⟨[], freed, hrecords, Nat.zero_le _, Or.inl rfl, hperm⟩
  · rw [Action.after_of_ok (shrink_apply t.stack h)] at hrun
    obtain ⟨-, hends⟩ := Prod.mk.inj hrun
    obtain ⟨hstack, hhost⟩ := Prod.mk.inj hends
    rw [← hstack, ← hhost]
    refine ⟨[], _, shrink_records t.stack h, Nat.zero_le _, Or.inl rfl, ?_⟩
    show t.stack.regions.Perm (({ t.stack with cache := [] } : Stack).blocks.map Block.region ++ _)
    rw [blocks, List.append_nil, ← List.map_append]
    exact ((List.reverse_perm t.stack.cache).symm.append_left t.stack.active).map Block.region
  · obtain ⟨hstack, hrecords⟩ := reportLeaks_records hd hrun
    rw [hstack]
    refine ⟨[], [], hrecords, Nat.zero_le _, Or.inl rfl, ?_⟩
    rw [List.append_nil]
    exact .refl _

end Tenancy

namespace World

open Stack

variable {p : Platform} {gap i : Nat} {w : World} {t : Tenancy}

/-! ## Serials in a run -/

theorem length_slots_run (p : Platform) (w : World) (cs : List Call) :
    w.slots.length ≤ (w.run p cs).slots.length := by
  induction cs generalizing w with
  | nil => exact Nat.le_refl _
  | cons c cs ih => exact Nat.le_trans (length_slots_step p w c) (ih (w := w.step p c))

/-- A stack that is there later has been there since its slot was taken. -/
theorem at?_of_run {ds : List Call} (hlt : i < w.slots.length)
    (hat : (w.run p ds).at? i = some t) : ∃ u, w.at? i = some u := by
  induction ds generalizing w with
  | nil => exact ⟨t, hat⟩
  | cons c ds ih =>
    obtain ⟨u, hu⟩ := ih (Nat.lt_of_lt_of_le hlt (length_slots_step p w c)) hat
    obtain ⟨v, hv, -⟩ := step_at? hlt hu
    exact ⟨v, hv⟩

/-- Serials are in order, and no more than one is taken in each call, until a release build has made
    as many calls as there are words. -/
theorem ordered_run (hp : p.Sound gap) {cs : List Call}
    (hroom : p.build = .debug ∨ cs.length < Word.max) :
    ∀ i t, (run p initial cs).at? i = some t →
      t.stack.Ordered ∧ t.stack.nextSerial ≤ cs.length + 1 := by
  induction cs using List.reverseRecOn with
  | nil => exact fun i t hat => absurd hat (not_at?_initial i t)
  | append_singleton cs c ih =>
    rw [List.length_append, List.length_singleton] at hroom ⊢
    have hearlier : ∀ i t, (run p initial cs).at? i = some t →
        t.stack.Ordered ∧ t.stack.nextSerial ≤ cs.length + 1 + 1 := by
      intro i t hat
      obtain ⟨hordered, hle⟩ := ih (hroom.imp_right (by omega)) i t hat
      exact ⟨hordered, by omega⟩
    have hsound := (Sound.initial gap).run hp cs
    have hstep := step_spec p (run p initial cs) c
    rw [run_concat]
    generalize (run p initial cs).step p c = w' at hstep ⊢
    cases hstep with
    | idle => exact hearlier
    | hosted => exact hearlier
    | made =>
      refine forall_at?_enroll hearlier ⟨⟨List.pairwise_singleton _ _, ?_⟩, ?_⟩
      · intro blk hblk
        rw [List.mem_singleton.1 hblk]
        exact Nat.zero_lt_one
      · show 1 ≤ cs.length + 1 + 1
        omega
    | @operated j op u hu =>
      refine forall_at?_set (lt_of_at? hu) ?_ fun k v _ hv => hearlier k v hv
      obtain ⟨hordered, hle⟩ := ih (hroom.imp_right (by omega)) j u hu
      have hchange := Tenancy.act_change hp (hsound.settled j u hu)
        (run p initial cs).markers op
      have hroom' : p.build = .debug ∨ u.stack.nextSerial + 1 < Word.count := by
        refine hroom.imp_right fun hlt => ?_
        have hcount : Word.count = Word.max + 1 := by decide
        omega
      have hmore := hchange.nextSerial_le
      exact ⟨(hchange.shift hroom').ordered hordered, by omega⟩
    | discarded hu => exact fun k v hv => hearlier k v (at?_of_emptied (lt_of_at? hu) hv).2

/-- What a run does to a stack is a shift. -/
theorem shift_run (hp : p.Sound gap) {es ds : List Call}
    (hroom : p.build = .debug ∨ (es ++ ds).length < Word.max)
    (hat : (run p initial es).at? i = some t) {t' : Tenancy}
    (hat' : (run p initial (es ++ ds)).at? i = some t') : Shift t.stack t'.stack := by
  induction ds using List.reverseRecOn generalizing t' with
  | nil =>
    rw [List.append_nil, hat] at hat'
    cases hat'
    exact Shift.refl t.stack
  | append_singleton ds c ih =>
    rw [← List.append_assoc, List.length_append, List.length_singleton] at hroom
    rw [← List.append_assoc, run_concat] at hat'
    have hlt : i < (run p initial (es ++ ds)).slots.length := by
      rw [run_append]
      exact Nat.lt_of_lt_of_le (lt_of_at? hat) (length_slots_run p _ ds)
    have hroom' : p.build = .debug ∨ (es ++ ds).length < Word.max :=
      hroom.imp_right (by omega)
    obtain ⟨u, hu, rfl | ⟨op, -, rfl⟩⟩ := step_at? hlt hat'
    · exact ih hroom' hu
    · have hle := (ordered_run hp hroom' i u hu).2
      have hserials : p.build = .debug ∨ u.stack.nextSerial + 1 < Word.count := by
        refine hroom.imp_right fun hlt => ?_
        have hcount : Word.count = Word.max + 1 := by decide
        omega
      have hset := ((Sound.initial gap).run hp (es ++ ds)).settled i u hu
      exact (ih hroom' hu).trans ((Tenancy.act_change hp hset _ op).shift hserials)

/-- **A serial is given once**: if a block that was active has the serial of one that is, it has
    been active in the same region all the time between. -/
theorem serial_given_once (hp : p.Sound gap) {cs es fs : List Call}
    (hroom : p.build = .debug ∨ cs.length < Word.max) (hes : es <+: fs) (hfs : fs <+: cs)
    (hat : (run p initial cs).at? i = some t) {u : Tenancy}
    (hu : (run p initial es).at? i = some u) {blk old : Block} (hblk : blk ∈ t.stack.active)
    (hold : old ∈ u.stack.active) (hserial : old.serial = blk.serial) :
    ∃ v, (run p initial fs).at? i = some v ∧
      ∃ mid ∈ v.stack.active, mid.serial = blk.serial ∧ mid.region = blk.region := by
  obtain ⟨ds, rfl⟩ := hes
  obtain ⟨rest, rfl⟩ := hfs
  have hearlier : ∀ {gs}, gs <+: es ++ ds ++ rest → p.build = .debug ∨ gs.length < Word.max :=
    fun hgs => hroom.imp_right (Nat.lt_of_le_of_lt hgs.length_le)
  have hmiddle := hearlier (List.prefix_append (es ++ ds) rest)
  have hstart := hearlier ((List.prefix_append es ds).trans (List.prefix_append (es ++ ds) rest))
  have hlt : i < (run p initial (es ++ ds)).slots.length := by
    rw [run_append]
    exact Nat.lt_of_lt_of_le (lt_of_at? hu) (length_slots_run p _ ds)
  obtain ⟨v, hv⟩ := at?_of_run hlt (by rw [← run_append]; exact hat)
  have hbefore := shift_run hp hmiddle hu hv
  have hafter := shift_run hp hroom hv hat
  -- The serial is in use at the end, so it has not been out of use before.
  have huse : ¬Expired blk.serial t.stack := fun hexpired => hexpired.2 blk hblk rfl
  rcases hbefore.keeps (ordered_run hp hstart i u hu).1 hold with
    ⟨mid, hmid, hsame, -⟩ | hexpired
  · rw [hserial] at hsame
    refine ⟨v, hv, mid, hmid, hsame, ?_⟩
    rcases hafter.keeps (ordered_run hp hmiddle i v hv).1 hmid with
      ⟨last, hlast, hsame', hregion⟩ | hexpired
    · rw [← (ordered_run hp hroom i t hat).1.eq_of_serial hlast hblk (hsame'.trans hsame)]
      exact hregion.symm
    · rw [hsame] at hexpired
      exact absurd hexpired huse
  · rw [hserial] at hexpired
    exact absurd (hafter.expired hexpired) huse

/-! ## Histories -/

/-- The call is about the stack in slot `i`, or would make it. -/
def Concerns (w : World) (i : Nat) : Call → Prop
  | .make _ => i = w.slots.length
  | .on slot _ | .discard slot => i = slot
  | .install _ => False

instance (w : World) (i : Nat) : (c : Call) → Decidable (w.Concerns i c)
  | .make _ => inferInstanceAs (Decidable (i = w.slots.length))
  | .on slot _ | .discard slot => inferInstanceAs (Decidable (i = slot))
  | .install _ => inferInstanceAs (Decidable False)

/-- What a call writes into the journal, if it concerns slot `i`. -/
def noted (p : Platform) (i : Nat) (w : World) (c : Call) : List Note :=
  if w.Concerns i c then (w.step p c).host.journal.drop w.host.journal.length else []

/-- What the calls of a run that concern slot `i` have written into the journal. -/
def history (p : Platform) (i : Nat) : World → List Call → List Note
  | _, [] => []
  | w, c :: cs => noted p i w c ++ history p i (w.step p c) cs

theorem history_append (cs ds : List Call) :
    history p i w (cs ++ ds) = history p i w cs ++ history p i (w.run p cs) ds := by
  induction cs generalizing w with
  | nil => rfl
  | cons c cs ih =>
    rw [List.cons_append, history, history, ih, List.append_assoc]
    rfl

theorem history_concat (cs : List Call) (c : Call) :
    history p i w (cs ++ [c]) = history p i w cs ++ noted p i (w.run p cs) c := by
  rw [history_append, history, history, List.append_nil]

theorem noted_of_not {c : Call} (hnot : ¬w.Concerns i c) : noted p i w c = [] := if_neg hnot

/-- What is recorded of a call that concerns a slot is what it notes for the slot. -/
theorem noted_spec {c : Call} {made freed : List Nat} (hc : w.Concerns i c)
    (hr : w.host.Records made freed (w.step p c).host) :
    regionsMade (noted p i w c) = made ∧ regionsFreed (noted p i w c) = freed := by
  obtain ⟨notes, hjournal, hmade, hfreed⟩ := hr.journal
  have hdrop : (w.step p c).host.journal.drop w.host.journal.length = notes := by
    rw [hjournal, List.drop_left]
  rw [noted, if_pos hc, hdrop]
  exact ⟨hmade, hfreed⟩

/-- `Kept notes s h`: every region that the notes say was made is, once, one of the stack or one
    that they say was freed; and memory agrees. -/
structure Kept (notes : List Note) (s : Stack) (h : Host) : Prop where
  distinct : (regionsMade notes).Nodup
  placed : (regionsMade notes).Perm (s.regions ++ regionsFreed notes)
  known : ∀ n ∈ regionsMade notes, h.memory.extent? n ≠ none
  gone : ∀ n ∈ regionsFreed notes, h.memory.Gone n

variable {notes more : List Note} {s s' : Stack} {h h' : Host} {made freed : List Nat}

/-- What happens to other stacks does not matter. -/
theorem Kept.elsewhere (hk : Kept notes s h) (hr : h.Records made freed h') : Kept notes s h' :=
  ⟨hk.distinct, hk.placed, fun n hn => hr.ages.ne_none (hk.known n hn),
    fun n hn => hr.still_gone (hk.gone n hn)⟩

/-- What happens to the stack itself goes into its history. -/
theorem Kept.here (hk : Kept notes s h) (hr : h.Records made freed h') (hone : made.length ≤ 1)
    (heither : made = [] ∨ freed = []) (hperm : (made ++ s.regions).Perm (s'.regions ++ freed))
    (hmade : regionsMade more = made) (hfreed : regionsFreed more = freed) :
    Kept (notes ++ more) s' h' := by
  have hnew : ∀ n ∈ made, n ∉ regionsMade notes := by
    intro n hn hold
    exact hk.known n hold ((hr.made_iff n).1 hn).1
  refine ⟨?_, ?_, ?_, ?_⟩
  · rw [regionsMade_append, hmade, List.nodup_append]
    refine ⟨hk.distinct, ?_, ?_⟩
    · match made, hone with
      | [], _ => exact List.nodup_nil
      | [n], _ => exact List.nodup_singleton n
    · rintro n hold _ hn rfl
      exact hnew n hn hold
  · rw [regionsMade_append, regionsFreed_append, hmade, hfreed]
    calc (regionsMade notes ++ made).Perm (made ++ (s.regions ++ regionsFreed notes)) :=
          List.perm_append_comm.trans (hk.placed.append_left made)
      _ = (made ++ s.regions) ++ regionsFreed notes := (List.append_assoc _ _ _).symm
      List.Perm _ ((s'.regions ++ freed) ++ regionsFreed notes) := hperm.append_right _
      _ = s'.regions ++ (freed ++ regionsFreed notes) := List.append_assoc _ _ _
      List.Perm _ (s'.regions ++ (regionsFreed notes ++ freed)) :=
          List.perm_append_comm.append_left _
  · intro n hn
    rw [regionsMade_append, hmade] at hn
    rcases List.mem_append.1 hn with hold | hn
    · exact hr.ages.ne_none (hk.known n hold)
    · exact ((hr.made_iff n).1 hn).2
  · intro n hn
    rw [regionsFreed_append, hfreed] at hn
    rcases List.mem_append.1 hn with hold | hn
    · exact hr.still_gone (hk.gone n hold)
    · -- What is freed was a region of the stack: nothing that was just made is freed.
      rcases heither with hnone | hnone
      · have hmine : n ∈ s.regions := by
          have hmem := hperm.mem_iff.2 (List.mem_append_right s'.regions hn)
          rwa [hnone] at hmem
        obtain ⟨x, hx⟩ := Option.ne_none_iff_exists'.1
          (hk.known n (hk.placed.mem_iff.2 (List.mem_append_left _ hmine)))
        exact ⟨_, hr.gone n x hn hx, rfl⟩
      · rw [hnone] at hn
        nomatch hn

/-- The making of a stack begins its history. -/
theorem Kept.start {n : Nat} (hr : h.Records [n] [] h') (hregions : s.regions = [n])
    (hmade : regionsMade notes = [n]) (hfreed : regionsFreed notes = []) : Kept notes s h' := by
  refine ⟨?_, ?_, ?_, ?_⟩
  · rw [hmade]
    exact List.nodup_singleton n
  · rw [hmade, hfreed, hregions]
    exact .refl _
  · intro k hk
    rw [hmade] at hk
    exact ((hr.made_iff k).1 hk).2
  · rw [hfreed]
    nofun

/-- A stack is made in a new region, or nothing but an identity is taken. -/
theorem make_ends (p : Platform) (c : Config) (w : World) :
    (∃ base, w.step p (.make c) = w.enroll (newborn c w.host base)
      ((identified w.host).withRegion p base (Block.layoutOf c.initialBlock))) ∨
    ∃ lastId, w.step p (.make c) = { w with host := { w.host with lastId } } := by
  rw [step, make]
  rcases ofConfig_cases p c w.host with ⟨base, -, hrun, -⟩ | ⟨e, hrun⟩ | ⟨f, hrun⟩
  · rw [hrun]
    exact Or.inl ⟨base, rfl⟩
  · rw [hrun]
    exact Or.inr ⟨w.host.lastId, rfl⟩
  · rw [hrun]
    exact Or.inr ⟨w.host.lastId + 1, rfl⟩

/-- The end of a stack records that its regions are freed, or nothing. -/
theorem discard_freed (hd : p.Discreet) (s : Stack) (h : Host) :
    ∃ freed, h.Records [] freed (Action.after (Stack.discard p) (s, h)).2.2 := by
  obtain ⟨reported, h₁, hreport, -, ⟨f, -, -, hstop⟩ | ⟨-, hdone⟩⟩ := discard_cases p s h
  · rw [hstop]
    exact ⟨[], (reportLeaks_records hd hreport).2⟩
  · rw [hdone]
    exact ⟨_, (reportLeaks_records hd hreport).2.trans (Host.records_withoutBlocks _ _)⟩

/-- `Booked w hist`: the histories account for every stack, and there are none of stacks to come. -/
structure Booked (w : World) (hist : Nat → List Note) : Prop where
  kept : ∀ i t, w.at? i = some t → Kept (hist i) t.stack w.host
  blank : ∀ i, w.slots.length ≤ i → hist i = []

variable {hist : Nat → List Note}

/-- A call that records nothing, and leaves the slots as they are, adds nothing. -/
theorem Booked.idle {c : Call} {h' : Host} (hb : w.Booked hist) (hr : w.host.Records [] [] h')
    (hstep : w.step p c = { w with host := h' }) (hjournal : h'.journal = w.host.journal) :
    (w.step p c).Booked fun i => hist i ++ noted p i w c := by
  have hnothing : ∀ i, noted p i w c = [] := by
    intro i
    unfold noted
    split
    · rw [hstep, hjournal, List.drop_length]
    · rfl
  simp only [hnothing, List.append_nil, hstep]
  exact ⟨fun i t hat => (hb.kept i t hat).elsewhere hr, hb.blank⟩

theorem Booked.still_blank {c : Call} (hb : w.Booked hist) (hi : w.slots.length ≤ i)
    (hnot : ¬w.Concerns i c) : hist i ++ noted p i w c = [] := by
  rw [hb.blank i hi, noted_of_not hnot]
  rfl

/-- A new stack begins its history with its first region. -/
theorem Booked.enrolled (hb : w.Booked hist) {c : Config} {base : Nat}
    (hstep : w.step p (.make c) = w.enroll (newborn c w.host base)
      ((identified w.host).withRegion p base (Block.layoutOf c.initialBlock))) :
    (w.step p (.make c)).Booked fun i => hist i ++ noted p i w (.make c) := by
  have hr : w.host.Records [w.host.memory.nextRegion] [] (w.step p (.make c)).host := by
    rw [hstep]
    have hidentified : w.host.Records [] [] (identified w.host) :=
      .of_plain (List.append_nil _).symm (by nofun) (fun _ => rfl) rfl
    exact hidentified.trans ((identified w.host).records_withRegion p base _)
  obtain ⟨hmade, hfreed⟩ := noted_spec (c := .make c) (i := w.slots.length) rfl hr
  rw [hstep] at hr ⊢
  constructor
  · refine forall_at?_enroll ?_ ?_
    · intro j u hu
      rw [noted_of_not (c := .make c) (Nat.ne_of_lt (lt_of_at? hu)), List.append_nil]
      exact (hb.kept j u hu).elsewhere hr
    · rw [hb.blank _ (Nat.le_refl _), List.nil_append]
      exact Kept.start hr rfl hmade hfreed
  · intro i hi
    rw [enroll, List.length_append, List.length_singleton] at hi
    exact hb.still_blank (by omega) (Nat.ne_of_gt (by omega))

/-- What an operation makes and frees goes into the history of its stack. -/
theorem Booked.operated (hp : p.Sound gap) (hd : p.Discreet) (hw : w.Sound gap)
    (hb : w.Booked hist) {j : Nat} {t : Tenancy} (hj : w.at? j = some t) (op : Op) :
    (w.step p (.on j op)).Booked fun i => hist i ++ noted p i w (.on j op) := by
  have hstep : w.step p (.on j op) = ⟨(t.act p w.markers w.host op).2,
      w.slots.set j (some (t.act p w.markers w.host op).1), w.markers ++ t.captures op⟩ := by
    rw [World.step, operate, hj]
  obtain ⟨made, freed, hr, hone, heither, hperm⟩ :=
    Tenancy.act_records hp hd (hw.settled j t hj) w.markers op
  obtain ⟨hmade, hfreed⟩ := noted_spec (c := .on j op) (i := j) rfl (by rw [hstep]; exact hr)
  have hlt := lt_of_at? hj
  rw [hstep]
  constructor
  · refine forall_at?_set hlt ?_ ?_
    · exact (hb.kept j t hj).here hr hone heither hperm hmade hfreed
    · intro k u hk hu
      rw [noted_of_not (c := .on j op) hk, List.append_nil]
      exact (hb.kept k u hu).elsewhere hr
  · intro i hi
    change (w.slots.set j _).length ≤ i at hi
    rw [List.length_set] at hi
    exact hb.still_blank hi (Nat.ne_of_gt (by omega))

/-- The history of a stack that has come to its end is not kept on; those of the others are. -/
theorem Booked.discarded (hd : p.Discreet) (hb : w.Booked hist) {j : Nat} {t : Tenancy}
    (hj : w.at? j = some t) (hguards : t.guards.isEmpty = true) :
    (w.step p (.discard j)).Booked fun i => hist i ++ noted p i w (.discard j) := by
  have hstep : w.step p (.discard j) = ⟨(Action.after (Stack.discard p) (t.stack, w.host)).2.2,
      w.slots.set j none, w.markers⟩ := by
    simp only [World.step, discard, hj, if_pos hguards]
  obtain ⟨freed, hr⟩ := discard_freed hd t.stack w.host
  have hlt := lt_of_at? hj
  rw [hstep]
  constructor
  · intro k u hu
    obtain ⟨hk, hold⟩ := at?_of_emptied hlt hu
    rw [noted_of_not (c := .discard j) hk, List.append_nil]
    exact (hb.kept k u hold).elsewhere hr
  · intro i hi
    change (w.slots.set j none).length ≤ i at hi
    rw [List.length_set] at hi
    exact hb.still_blank hi (Nat.ne_of_gt (by omega))

/-- **A call keeps the histories.** -/
theorem Booked.step (hp : p.Sound gap) (hd : p.Discreet) (hw : w.Sound gap) (hb : w.Booked hist)
    (c : Call) : (w.step p c).Booked fun i => hist i ++ noted p i w c := by
  have hself := Host.Records.refl w.host
  cases c with
  | make c =>
    rcases make_ends p c w with ⟨base, hstep⟩ | ⟨lastId, hstep⟩
    · exact hb.enrolled hstep
    · refine hb.idle ?_ hstep rfl
      exact .of_plain (List.append_nil _).symm (by nofun) (fun _ => rfl) rfl
  | on j op =>
    cases hj : w.at? j with
    | none =>
      refine hb.idle hself ?_ rfl
      rw [World.step, operate, hj]
    | some t => exact hb.operated hp hd hw hj op
  | discard j =>
    cases hj : w.at? j with
    | none =>
      refine hb.idle hself ?_ rfl
      rw [World.step, discard, hj]
    | some t =>
      by_cases hguards : t.guards.isEmpty = true
      · exact hb.discarded hd hj hguards
      · refine hb.idle hself ?_ rfl
        simp only [World.step, discard, hj, if_neg hguards]
  | install next =>
    have hr : w.host.Records [] [] (w.host.installed next) :=
      .of_plain (List.append_nil _).symm (by nofun) (fun _ => rfl) rfl
    exact hb.idle hr rfl rfl

/-- **Every region is accounted for**, in every state of a run. -/
theorem booked_run (hp : p.Sound gap) (hd : p.Discreet) (cs : List Call) :
    (run p initial cs).Booked fun i => history p i initial cs := by
  induction cs using List.reverseRecOn with
  | nil => exact ⟨fun i t hat => absurd hat (not_at?_initial i t), fun _ _ => rfl⟩
  | append_singleton cs c ih =>
    have hw := (Sound.initial gap).run hp cs
    simp only [history_concat, run_concat]
    exact ih.step hp hd hw c

/-- A slot that is empty has no more history. -/
theorem history_of_empty {ds : List Call} (hlt : i < w.slots.length)
    (hempty : ∀ t, w.at? i ≠ some t) : history p i w ds = [] := by
  induction ds generalizing w with
  | nil => rfl
  | cons c ds ih =>
    have hnone : w.at? i = none := Option.eq_none_iff_forall_ne_some.2 hempty
    have hnoted : noted p i w c = [] := by
      unfold noted
      split
      · rename_i hmine
        cases c with
        | make c =>
          have heq : i = w.slots.length := hmine
          omega
        | on j op =>
          obtain rfl : i = j := hmine
          rw [World.step, operate, hnone, List.drop_length]
        | discard j =>
          obtain rfl : i = j := hmine
          rw [World.step, discard, hnone, List.drop_length]
        | install next => exact hmine.elim
      · rfl
    rw [history, hnoted, List.nil_append]
    apply ih (Nat.lt_of_lt_of_le hlt (length_slots_step p w c))
    intro t hat
    obtain ⟨u, hu, -⟩ := step_at? hlt hat
    exact hempty u hu

/-- **The end of a stack frees what is left**: after it every region that was ever made for the
    stack has been freed, and that once. -/
theorem freed_once (hp : p.Sound gap) (hd : p.Discreet) {cs : List Call}
    (hat : (run p initial cs).at? i = some t) (hguards : t.guards = [])
    (hcaught : ∀ f, (Action.after (Stack.discard p) (t.stack, (run p initial cs).host)).1 = .error f →
      f.isFatal = false) (ds : List Call) :
    (regionsFreed (history p i initial (cs ++ .discard i :: ds))).Nodup ∧
      (regionsMade (history p i initial (cs ++ .discard i :: ds))).Perm
        (regionsFreed (history p i initial (cs ++ .discard i :: ds))) := by
  have hk := (booked_run hp hd cs).kept i t hat
  have hstep : (run p initial cs).step p (.discard i) =
      ⟨(Action.after (Stack.discard p) (t.stack, (run p initial cs).host)).2.2,
        (run p initial cs).slots.set i none, (run p initial cs).markers⟩ := by
    simp only [World.step, discard, hat, hguards, List.isEmpty_nil, if_true]
  have hr := discard_records hd t.stack (run p initial cs).host rfl hcaught
  obtain ⟨hmade, hfreed⟩ := noted_spec (c := .discard i) (i := i) rfl (by rw [hstep]; exact hr)
  have hlater : history p i ((run p initial cs).step p (.discard i)) ds = [] := by
    have hlt := lt_of_at? hat
    rw [hstep]
    apply history_of_empty
    · show i < ((run p initial cs).slots.set i none).length
      rw [List.length_set]
      exact hlt
    · intro u hu
      exact (at?_of_emptied hlt hu).1 rfl
  have hall : (regionsMade (history p i initial (cs ++ .discard i :: ds))).Perm
      (regionsFreed (history p i initial (cs ++ .discard i :: ds))) := by
    rw [history_append, history, hlater, List.append_nil, regionsMade_append, regionsFreed_append,
      hmade, hfreed, List.append_nil]
    refine hk.placed.trans (List.perm_append_comm.trans (List.Perm.append_left _ ?_))
    exact ((List.reverse_perm _).append (List.reverse_perm _)).symm.map Block.region
  refine ⟨hall.nodup_iff.1 ?_, hall⟩
  rw [history_append, history, hlater, List.append_nil, regionsMade_append, hmade, List.append_nil]
  exact hk.distinct

/-! ## Together -/

/-- Where released blocks are freed there is no cache. -/
theorem Reachable.cache_nil (hp : p.Sound gap) (hw : Reachable p w) (hat : w.at? i = some t)
    (hret : t.stack.retention = .release) : t.stack.cache = [] := by
  refine hw.induct (P := fun t => t.stack.retention = .release → t.stack.cache = []) hp ?_ ?_ i t
    hat hret
  · intro c h base _ _ _
    rfl
  · intro w i t op hw hat hnil hret
    have hchange := Tenancy.act_change hp (hw.settled i t hat) w.markers op
    rw [hchange.settings.2] at hret
    exact hchange.cache_nil hret (hnil hret)

/-- **No block is lost, made twice or taken for another.**  In every state of every run, in either
    build and whatever faults there were on the way:
    1. the first active block is the one that the stack was made with, under serial 0;
    2. serials increase along the active blocks, they are below the next one, and a serial is given
       once: the block that has it was active in its region ever since (the serials of a release
       build start over after as many growths as there are words);
    3. every region that was ever made for the stack is, once, that of an active block or of a
       cached one, and there in memory, or has been freed, and is gone;
    4. where released blocks are freed the cache is empty; where they are kept an unwind makes and
       frees nothing; a request in any form frees nothing and makes at most one region; trimming
       frees the regions of the cache and leaves everything else as it is;
    5. after the end of the stack every region that was made for it has been freed once, unless the
       handler of its leaks has put an end to the program. -/
theorem blocks_kept (hp : p.Sound gap) (hd : p.Discreet) {cs : List Call}
    (hw : w = run p initial cs) (hat : w.at? i = some t) :
    (∃ s₀, MadeAs p w i s₀ ∧ s₀.current.serial = 0 ∧
      ∃ newer cursor, t.stack.active = newer ++ [{ s₀.current with cursor }]) ∧
    (p.build = .debug ∨ cs.length < Word.max →
      (t.stack.active.Pairwise fun newer older => older.serial < newer.serial) ∧
      (∀ blk ∈ t.stack.active, blk.serial < t.stack.nextSerial) ∧
      ∀ es fs, es <+: fs → fs <+: cs → ∀ u, (run p initial es).at? i = some u →
        ∀ old ∈ u.stack.active, ∀ blk ∈ t.stack.active, old.serial = blk.serial →
          ∃ v, (run p initial fs).at? i = some v ∧
            ∃ mid ∈ v.stack.active, mid.serial = blk.serial ∧ mid.region = blk.region) ∧
    ((regionsMade (history p i initial cs)).Nodup ∧
      (regionsMade (history p i initial cs)).Perm (t.stack.active.map Block.region ++
        t.stack.cache.map Block.region ++ regionsFreed (history p i initial cs)) ∧
      (∀ blk ∈ t.stack.active ++ t.stack.cache,
        w.host.memory.extent? blk.region = some blk.extent) ∧
      ∀ n ∈ regionsFreed (history p i initial cs), w.host.memory.Gone n) ∧
    ((t.stack.retention = .release → t.stack.cache = []) ∧
      (t.stack.retention = .cache → ∀ m out s' h',
        Action.after (Stack.unwind p m) (t.stack, w.host) = (out, s', h') →
          w.host.Records [] [] h' ∧ s'.regions.Perm t.stack.regions) ∧
      (∀ (form : Form) r out s' h',
        Action.after (form.ask p r) (t.stack, w.host) = (out, s', h') →
          ∃ made, w.host.Records made [] h' ∧ made.length ≤ 1) ∧
      ∃ h', Action.after Stack.shrink (t.stack, w.host)
          = (.ok (), { t.stack with cache := [] }, h') ∧
        w.host.Records [] (t.stack.cache.reverse.map Block.region) h') ∧
    (t.guards = [] → (∀ f, (Action.after (Stack.discard p) (t.stack, w.host)).1 = .error f →
        f.isFatal = false) →
      ∀ ds, (regionsFreed (history p i initial (cs ++ .discard i :: ds))).Nodup ∧
        (regionsMade (history p i initial (cs ++ .discard i :: ds))).Perm
          (regionsFreed (history p i initial (cs ++ .discard i :: ds)))) := by
  have hreachable : Reachable p w := ⟨cs, hw⟩
  have hset := (hreachable.sound hp).settled i t hat
  refine ⟨?_, ?_, ?_, ⟨?_, ?_, ?_, ?_⟩, ?_⟩
  · obtain ⟨s₀, hmade, newer, cursor, hactive⟩ := hreachable.made_as hp hat
    refine ⟨s₀, hmade, ?_⟩
    obtain ⟨_, _, _, _, _, _, rfl, _⟩ := hmade
    exact ⟨rfl, newer, cursor, hactive⟩
  · intro hroom
    subst hw
    have hordered := (ordered_run hp hroom i t hat).1
    refine ⟨hordered.decreasing, hordered.below_next, ?_⟩
    intro es fs hes hfs u hu old hold blk hblk hserial
    exact serial_given_once hp hroom hes hfs hat hu hblk hold hserial
  · subst hw
    have hk := (booked_run hp hd cs).kept i t hat
    refine ⟨hk.distinct, ?_, hset.lodged.housed, hk.gone⟩
    rw [← List.map_append]
    exact hk.placed
  · exact hreachable.cache_nil hp hat
  · intro hret m out s' h' hrun
    obtain ⟨freed, hrecords, hperm, hnone⟩ := unwind_records hset.wellFormed hrun
    rw [hnone hret] at hrecords hperm
    rw [List.append_nil] at hperm
    exact ⟨hrecords, hperm.symm⟩
  · intro form r out s' h' hrun
    obtain ⟨made, hrecords, hone, -⟩ := ask_records hp hset hrun
    exact ⟨made, hrecords, hone⟩
  · exact ⟨_, Action.after_of_ok (shrink_apply t.stack w.host), shrink_records t.stack w.host⟩
  · intro hguards hcaught ds
    subst hw
    exact freed_once hp hd hat hguards hcaught ds

/-- A block that is pushed, put by and pushed again. -/
def pushedTwice : List Call :=
  [.make (.sized .debug 64), .on 0 (.allocate .plain ⟨10, 1⟩), .on 0 (.allocate .plain ⟨100, 1⟩),
    .on 0 .unwindAll, .on 0 (.allocate .plain ⟨100, 1⟩)]

/-- The second time it has another serial and the same region; at the end both regions are freed. -/
theorem blocks_kept_pushed_twice :
    ∃ t, (run (Session.platform .debug []) initial pushedTwice).at? 0 = some t ∧
      t.stack.active.map (fun blk => (blk.serial, blk.region)) = [(2, 1), (0, 0)] ∧
      regionsMade (history (Session.platform .debug []) 0 initial pushedTwice) = [0, 1] ∧
      (t.stack.active.Pairwise fun newer older => older.serial < newer.serial) ∧
      ([0, 1] : List Nat).Perm (regionsFreed
        (history (Session.platform .debug []) 0 initial (pushedTwice ++ [.discard 0]))) := by
  have hp : (Session.platform .debug []).Sound 1 :=
    Session.platform_sound .debug (by nofun) (by decide)
  have hd := Session.platform_discreet .debug []
  have hend : ((run (Session.platform .debug []) initial pushedTwice).at? 0).any (fun t =>
      decide (t.stack.active.map (fun blk => (blk.serial, blk.region)) = [(2, 1), (0, 0)]) &&
        t.guards.isEmpty && (match (Action.after (Stack.discard (Session.platform .debug []))
          (t.stack, (run (Session.platform .debug []) initial pushedTwice).host)).1 with
          | .ok _ => true
          | .error _ => false)) = true := by decide +kernel
  obtain ⟨t, hat, hall⟩ := (Option.any_eq_true _ _).1 hend
  obtain ⟨hfirst, hdone⟩ := Bool.and_eq_true_iff.1 hall
  obtain ⟨hactive, hguards⟩ := Bool.and_eq_true_iff.1 hfirst
  have hmade : regionsMade (history (Session.platform .debug []) 0 initial pushedTwice) = [0, 1] :=
    by decide +kernel
  obtain ⟨-, hserials, -, -, hlast⟩ := blocks_kept hp hd rfl hat
  have hcaught : ∀ f, (Action.after (Stack.discard (Session.platform .debug []))
      (t.stack, (run (Session.platform .debug []) initial pushedTwice).host)).1 = .error f →
      f.isFatal = false := by
    intro f hf
    rw [hf] at hdone
    nomatch hdone
  have hfreed := (hlast (List.isEmpty_iff.1 hguards) hcaught []).2
  have hboth : regionsMade (history (Session.platform .debug []) 0 initial
      (pushedTwice ++ [.discard 0])) = [0, 1] := by decide +kernel
  rw [hboth] at hfreed
  exact ⟨t, hat, of_decide_eq_true hactive, hmade, (hserials (Or.inl rfl)).1, hfreed⟩

end World

end StackArena
