/-
  What a guard leaves when it is dropped.

  1. **Inside** — a body keeps its stack standing on what it was when the guard was made, whatever
     it does and however it ends (`run_leads`): one case for each thing that a body can do, and for
     a scope the same again inside.
  2. **The end** — a scope ends with what its guard does when it is dropped, unless a fatal fault
     has ended the program before.
  3. **Restored** — where the stack stands on what it was, the marker of the guard is accepted, and
     the unwind leads back, unless the body has let the guard go (`scope_restores`).  This is so at
     every depth, for each scope that unwinds to no marker from outside; if all are such, no guard
     adds a fault of its own.
-/
import StackArena.Proofs.Bodies
import StackArena.Proofs.Faulting
import StackArena.Proofs.Standing

namespace StackArena

namespace Body

open Stack

variable {p : Platform} {gap n : Nat} {s₀ s s' : Stack} {h h' : Host} {g : Guard} {tr tr' : Trace}
  {m₀ m₁ : Marker} {reach outer : List Marker}

/-! ## Inside a scope -/

/-- `Inside gap s₀ reach m₀ st`: a body runs under a guard with marker `m₀`, on a stack that stands
    on `s₀`.  The markers captured so far, that of the guard, and those in `reach` know the stack
    and lie beyond `s₀`; what was served so far is free in `s₀`; and the scopes so far were opened
    on upright stacks. -/
structure Inside (gap : Nat) (s₀ : Stack) (reach : List Marker) (m₀ : Marker)
    (st : (Guard × Stack × Trace) × Host) : Prop where
  stands : Stands gap s₀ st.1.2.1 st.2
  entered : st.1.1.marker = m₀
  known : ∀ m ∈ m₀ :: reach ++ st.1.2.2.markers, st.1.2.1.Knows m ∧ s₀.Precedes m
  freed : ∀ grant ∈ st.1.2.2.grants, s₀.Frees grant
  visited : ∀ v ∈ st.1.2.2.visits, Upright gap v.stack v.host

/-- If all scopes so far keep to themselves, a fault is benign. -/
def Mild (f : Fault) (st : (Guard × Stack × Trace) × Host) : Prop :=
  (∀ v ∈ st.1.2.2.visits, v.Own) → Benign f

/-- A body that has begun. -/
theorem Inside.start (hup : Upright gap s h) :
    Inside gap s [] s.top ((Guard.enter s, s, .blank), h) := by
  refine ⟨hup.stands, rfl, ?_, nofun, nofun⟩
  intro m hm
  rw [List.mem_singleton.1 hm]
  exact ⟨hup.knows_top, (RestsOn.refl s).precedes_top⟩

/-- A change of the stack to which a body has come. -/
theorem Inside.change (hp : p.Sound gap) (hdebug : p.build = .debug)
    (hin : Inside gap s₀ reach m₀ ((g, s, tr), h))
    (hchange : Change p (· ∈ m₀ :: reach ++ tr.markers) s h s' h') :
    Inside gap s₀ reach m₀ ((g, s', tr), h') := by
  refine ⟨hchange.stands hp hdebug hin.known hin.stands, hin.entered, ?_, hin.freed, hin.visited⟩
  intro m hm
  obtain ⟨hknows, hbeyond⟩ := hin.known m hm
  exact ⟨(hchange.shift (Or.inl hdebug)).knows hknows, hbeyond⟩

/-- A marker is kept that knows the stack and lies beyond `s₀`. -/
theorem Inside.capture {m : Marker} (hin : Inside gap s₀ reach m₀ ((g, s, tr), h))
    (hm : s.Knows m ∧ s₀.Precedes m) :
    Inside gap s₀ reach m₀ ((g, s, { tr with markers := tr.markers ++ [m] }), h) := by
  refine ⟨hin.stands, hin.entered, ?_, hin.freed, hin.visited⟩
  intro m' hm'
  rw [← List.append_assoc] at hm'
  rcases List.mem_append.1 hm' with hold | hnew
  · exact hin.known m' hold
  · rw [List.mem_singleton.1 hnew]
    exact hm

/-- A scope opens on the stack to which a body has come. -/
theorem Inside.enter (hin : Inside gap s₀ reach m₀ ((g, s, tr), h)) :
    Inside gap s₀ (m₀ :: reach ++ tr.markers) s.top ((Guard.enter s, s, .blank), h) := by
  refine ⟨hin.stands, rfl, ?_, nofun, nofun⟩
  intro m hm
  have hm : m ∈ s.top :: (m₀ :: reach ++ tr.markers) ++ [] := hm
  rw [List.append_nil] at hm
  rcases List.mem_cons.1 hm with rfl | hold
  · exact ⟨hin.stands.knows_top, hin.stands.rests.precedes_top⟩
  · exact hin.known m hold

/-- The trace of a scope that has ended follows that of the body around it. -/
theorem Inside.merge (hin : Inside gap s₀ reach m₀ ((g, s, tr), h)) {g' : Guard}
    (hinner : Inside gap s₀ (m₀ :: reach ++ tr.markers) m₁ ((g', s', tr'), h')) :
    Inside gap s₀ reach m₀ ((g, s', tr.append tr'), h') := by
  refine ⟨hinner.stands, hin.entered, ?_, ?_, ?_⟩
  · intro m hm
    have hm : m ∈ m₀ :: reach ++ (tr.markers ++ tr'.markers) := hm
    rw [← List.append_assoc] at hm
    exact hinner.known m (List.mem_cons_of_mem _ hm)
  · intro grant hgrant
    rcases List.mem_append.1 hgrant with hnew | hold
    · exact hinner.freed grant hnew
    · exact hin.freed grant hold
  · intro v hv
    rcases List.mem_append.1 hv with hnew | hold
    · exact hinner.visited v hnew
    · exact hin.visited v hold

/-! ## What each thing that a body does leads to -/

/-- An unwind inside a body changes the stack, or a debug build stops before it. -/
theorem unwind_leads (hp : p.Sound gap) (hdebug : p.build = .debug) {m : Marker}
    (hin : Inside gap s₀ reach m₀ ((g, s, tr), h)) (hm : m ∈ m₀ :: reach ++ tr.markers) :
    Action.Leads (Inside gap s₀ reach m₀) Mild (onStack (Stack.unwind p m)) ((g, s, tr), h) := by
  have hrun := after_onStack (Stack.unwind p m) g s tr h
  rcases unwind_ends p m h hin.stands.settled.wellFormed with ⟨hdone, hok⟩ | ⟨f, hstop, -, hobj⟩
  · rw [hdone] at hrun
    constructor
    · rw [hrun]
      exact hin.change hp hdebug (.unwound hm hok)
    · rw [hrun]
      nofun
  · rw [hstop] at hrun
    constructor
    · rw [hrun]
      exact hin
    · rw [hrun]
      rintro f' hf'
      cases hf'
      exact fun _ => objection?_benign hobj

theorem unwindTo_leads (hp : p.Sound gap) (hdebug : p.build = .debug) {target : Option Marker}
    (hin : Inside gap s₀ reach m₀ ((g, s, tr), h))
    (htarget : ∀ m, target = some m → m ∈ m₀ :: reach ++ tr.markers) :
    Action.Leads (Inside gap s₀ reach m₀) Mild (unwindTo p target) ((g, s, tr), h) := by
  cases target with
  | none => exact .pure hin ()
  | some m => exact unwind_leads hp hdebug hin (htarget m rfl)

theorem shrink_leads (hp : p.Sound gap) (hdebug : p.build = .debug)
    (hin : Inside gap s₀ reach m₀ ((g, s, tr), h)) :
    Action.Leads (Inside gap s₀ reach m₀) Mild (onStack Stack.shrink) ((g, s, tr), h) := by
  have hrun := after_onStack Stack.shrink g s tr h
  rw [Action.after_of_ok (shrink_apply s h)] at hrun
  constructor
  · rw [hrun]
    exact hin.change hp hdebug .shrunk
  · rw [hrun]
    nofun

/-- A request changes the stack, and what is served was free when the scope was opened. -/
theorem request_leads (hp : p.Sound gap) (hdebug : p.build = .debug) (form : Form) (r : Request)
    (hin : Inside gap s₀ reach m₀ ((g, s, tr), h)) :
    Action.Leads (Inside gap s₀ reach m₀) Mild (request p form r) ((g, s, tr), h) := by
  have hasked := ask_ends hp hin.stands.settled form r
  have hrun := after_onStack (form.ask p r) g s tr h
  generalize hdone : Action.after (form.ask p r) (s, h) = done at hasked hrun
  obtain ⟨out, s', h'⟩ := done
  refine .bind ⟨?_, ?_⟩ ?_
  · rw [hrun]
    cases hasked with
    | refused => exact hin
    | asked hrequest hserves => exact hin.change hp hdebug (.served hserves)
  · rw [hrun]
    intro f hf
    rw [show out = .error f from hf] at hdone
    exact fun _ => ask_benign hp hin.stands.settled hdone
  · intro served st' hserved hst'
    rw [hrun] at hserved
    cases hserved
    cases served with
    | none => exact .pure hst' none
    | some address =>
      cases hasked with
      | refused hnothing => exact absurd rfl (hnothing address)
      | @asked r' _ hrequest hserves =>
        refine ⟨⟨hst'.stands, hst'.entered, hst'.known, ?_, hst'.visited⟩, nofun⟩
        intro grant hgrant
        rcases List.mem_cons.1 hgrant with rfl | hold
        · rw [hrequest]
          exact (hserves.fresh hp hin.stands.settled).frees hin.stands.rests
        · exact hin.freed grant hold

/-! ## The end of a scope -/

/-- Whether an end is a fatal fault, after which nothing is run. -/
def fatal : Except Fault Unit → Bool
  | .ok _ => false
  | .error f => f.isFatal

/-- How a scope ends whose body and whose guard have ended like this. -/
def joined : Except Fault Unit → Except Fault Unit → Except Fault Unit
  | out, .ok () => out
  | .ok _, .error f => .error f
  | .error f, .error f' => .error (if f'.isFatal then f' else .doubleFault f f')

section

variable {body : Action (Guard × Stack × Trace) Unit} {out left : Except Fault Unit} {s'' : Stack}
  {h'' : Host}

/-- After a fatal fault a scope is not unwound. -/
theorem after_scope_of_fatal
    (hbody : Action.after body ((Guard.enter s, s, tr), h) = (out, (g, s', tr'), h'))
    (hfatal : fatal out = true) :
    Action.after (Guard.scope p body) ((s, tr), h) = (out, (s', tr'), h') := by
  rcases Action.of_after hbody with ⟨x, rfl, hrun⟩ | ⟨f, rfl, hrun⟩
  · nomatch hfatal
  · have hf : f.isFatal = true := hfatal
    simp only [Action.after, Guard.scope, Action.ensuring, hrun, hf, if_true]

/-- After any other end a scope does what its guard does when it is dropped. -/
theorem after_scope_of_left
    (hbody : Action.after body ((Guard.enter s, s, tr), h) = (out, (g, s', tr'), h'))
    (hfatal : fatal out = false) (hleave : Action.after (g.leave p) (s', h') = (left, s'', h'')) :
    Action.after (Guard.scope p body) ((s, tr), h) = (joined out left, (s'', tr'), h'') := by
  have hcleanup : ∀ run, g.leave p (s', h') = run → (do
      let (g, _) ← Action.self
      Action.onSecond (Action.onFirst (g.leave p)) : Action (Guard × Stack × Trace) Unit)
        ((g, s', tr'), h') = match run with
          | .ok x (s'', h'') => .ok x ((g, s'', tr'), h'')
          | .error f (s'', h'') => .error f ((g, s'', tr'), h'') := by
    rintro run rfl
    rw [Action.self_bind]
    simp only [Action.onSecond, Action.onFirst, Action.zoom]
    cases g.leave p (s', h') <;> rfl
  rcases Action.of_after hleave with ⟨u, rfl, hend⟩ | ⟨f', rfl, hend⟩
  all_goals rcases Action.of_after hbody with ⟨x, rfl, hrun⟩ | ⟨f, rfl, hrun⟩
  · simp only [Action.after, Guard.scope, Action.ensuring, hrun, hcleanup _ hend]
    rfl
  · have hf : f.isFatal = false := hfatal
    simp only [Action.after, Guard.scope, Action.ensuring, hrun, hf, hcleanup _ hend]
    rfl
  · simp only [Action.after, Guard.scope, Action.ensuring, hrun, hcleanup _ hend]
    rfl
  · have hf : f.isFatal = false := hfatal
    simp only [Action.after, Guard.scope, Action.ensuring, hrun, hf, hcleanup _ hend]
    rfl

end

/-- A guard that is dropped leaves the stack standing, whether it unwinds or not. -/
theorem leave_leads (hp : p.Sound gap) (hdebug : p.build = .debug)
    (hin : Inside gap s₀ reach m₀ ((g, s, tr), h)) :
    Inside gap s₀ reach m₀ ((g, (Action.after (g.leave p) (s, h)).2.1, tr),
      (Action.after (g.leave p) (s, h)).2.2) := by
  have hm : g.marker ∈ m₀ :: reach ++ tr.markers := by
    rw [hin.entered]
    exact List.mem_cons_self
  have hunwind := (unwind_leads hp hdebug hin hm).state
  rw [after_onStack] at hunwind
  rw [Guard.leave]
  by_cases harmed : g.armed = true
  · rw [if_pos harmed]
    exact hunwind
  · rw [if_neg harmed]
    exact hin

/-- **A guard that is dropped never stops.**  Armed, it leads the stack back to where it was when
    the guard was made; disarmed, it does nothing. -/
theorem leave_ends (hin : Inside gap s₀ reach s₀.top ((g, s, tr), h)) (hb₀ : s₀.Balanced) :
    ∃ s' h', g.leave p (s, h) = .ok () (s', h') ∧
      (g.armed = true → s'.top = s₀.top ∧ s'.active = s₀.active) ∧
      (g.armed = false → s' = s ∧ h' = h) := by
  rw [Guard.leave]
  cases harmed : g.armed with
  | false => exact ⟨s, h, rfl, fun htrue => Bool.noConfusion htrue, fun _ => ⟨rfl, rfl⟩⟩
  | true =>
    obtain ⟨s', h', hrun, hback⟩ := hin.stands.unwind_top (p := p) hb₀
    refine ⟨s', h', ?_, fun _ => hback, fun hfalse => Bool.noConfusion hfalse⟩
    have hentered : g.marker = s₀.top := hin.entered
    rw [if_pos rfl, Guard.unwind, hentered]
    exact hrun

/-- **A scope inside leaves the body around it standing**; and if it keeps to itself, what stops it
    is what has stopped its body. -/
theorem scope_leads (hp : p.Sound gap) (hdebug : p.build = .debug) {v : Visit}
    {body : Action (Guard × Stack × Trace) Unit}
    (hin : Inside gap s₀ reach m₀ ((g, s, tr), h)) (hv : v ∈ tr.visits)
    (hbody : Action.Leads (Inside gap s₀ (m₀ :: reach ++ tr.markers) s.top) Mild body
      ((Guard.enter s, s, .blank), h))
    (hown : v.Own → Action.Leads (Inside gap s [] s.top) Mild body
      ((Guard.enter s, s, .blank), h)) :
    Action.Leads (Inside gap s₀ reach m₀) Mild (nested (Guard.scope p body)) ((g, s, tr), h) := by
  have hstate := hbody.state
  have hfault := hbody.fault
  generalize hdone : Action.after body ((Guard.enter s, s, .blank), h) = done at hstate hfault hown
  obtain ⟨out, ⟨g', s', tr'⟩, h'⟩ := done
  -- The visits of the scope are among those of the body around it.
  have hmild : ∀ f h'' s'', out = .error f → Mild f ((g, s'', tr.append tr'), h'') :=
    fun f _ _ hout hall => hfault f hout fun u hu => hall u (List.mem_append_left _ hu)
  by_cases hfatal : fatal out = true
  · have hend := after_nested g tr (after_scope_of_fatal (p := p) hdone hfatal)
    constructor
    · rw [hend]
      exact hin.merge hstate
    · rw [hend]
      exact fun f hf => hmild f _ _ hf
  · have hleft := leave_leads hp hdebug hstate
    obtain ⟨left, s'', h'', hleave⟩ : ∃ left s'' h'',
      Action.after (g'.leave p) (s', h') = (left, s'', h'') := ⟨_, _, _, rfl⟩
    rw [hleave] at hleft
    have hend := after_nested g tr
      (after_scope_of_left (p := p) hdone (Bool.eq_false_iff.2 hfatal) hleave)
    constructor
    · rw [hend]
      exact hin.merge hleft
    · rw [hend]
      intro f hf hall
      have hvisit : v.Own := hall v (List.mem_append_right _ hv)
      have hsame := (hown hvisit).state
      rw [hdone] at hsame
      obtain ⟨_, _, hok, -⟩ := leave_ends (p := p) hsame hin.stands.balanced
      rw [Action.after_of_ok hok] at hleave
      cases hleave
      exact hmild f h'' s'' hf hall

/-! ## Every body -/

/-- There is no marker beyond the last. -/
theorem mem_of_beyond (outer : List Marker) (k : Nat) (m : Marker) (hk : outer.length ≤ k)
    (hm : outer[k]? = some m) : m ∈ reach := by
  rw [List.getElem?_eq_none hk] at hm
  nomatch hm

/-- Nothing is captured before the first of the markers. -/
theorem from_zero (b : Body) : b.From 0 := by
  induction b with
  | done => trivial
  | raise => trivial
  | ask form r rest ih => exact ih
  | top rest ih => exact ih
  | mark rest ih => exact ih
  | shrink rest ih => exact ih
  | unwind k rest ih => exact ih
  | unwindOuter k rest ih => exact ⟨Nat.zero_le k, ih⟩
  | retreat rest ih => exact ih
  | disarm rest ih => exact ih
  | scope inner rest ihInner ihRest => exact ⟨ihInner, ihRest⟩

/-- **A body keeps its stack standing**, whatever it does and however it ends, as long as the
    markers from around the body that it unwinds to, or that a scope inside it does, lie beyond
    `s₀`. -/
theorem run_leads (hp : p.Sound gap) (hdebug : p.build = .debug) {b : Body} (hfrom : b.From n)
    (houter : ∀ k m, n ≤ k → outer[k]? = some m → m ∈ reach)
    {st : (Guard × Stack × Trace) × Host} (hin : Inside gap s₀ reach m₀ st) :
    Action.Leads (Inside gap s₀ reach m₀) Mild (b.run p outer) st := by
  induction b generalizing n outer reach m₀ s₀ st with
  | done => exact .pure hin ()
  | raise f hpanic =>
    refine ⟨hin, ?_⟩
    intro f' hf'
    cases hf'
    exact fun _ => .of_caught hpanic
  | ask form r rest ih =>
    obtain ⟨⟨g, s, tr⟩, h⟩ := st
    exact .bind (request_leads hp hdebug form r hin).attempt
      fun out st' _ hst' => ih out (hfrom out) houter hst'
  | top rest ih =>
    obtain ⟨⟨g, s, tr⟩, h⟩ := st
    exact (ih s.top (hfrom _) houter
      (hin.capture ⟨hin.stands.knows_top, hin.stands.rests.precedes_top⟩)).of_eq rfl
  | mark rest ih =>
    obtain ⟨⟨g, s, tr⟩, h⟩ := st
    have hguard : g.marker ∈ m₀ :: reach ++ tr.markers := by
      rw [hin.entered]
      exact List.mem_cons_self
    exact (ih g.marker (hfrom _) houter (hin.capture (hin.known _ hguard))).of_eq rfl
  | shrink rest ih =>
    obtain ⟨⟨g, s, tr⟩, h⟩ := st
    exact .bind (shrink_leads hp hdebug hin) fun _ st' _ hst' => ih hfrom houter hst'
  | unwind k rest ih =>
    obtain ⟨⟨g, s, tr⟩, h⟩ := st
    have hown : ∀ m, tr.markers[k]? = some m → m ∈ m₀ :: reach ++ tr.markers := fun m hm =>
      List.mem_append_right _ (List.mem_of_getElem? hm)
    exact (Action.Leads.bind (unwindTo_leads hp hdebug hin hown).attempt
      fun out st' _ hst' => ih out (hfrom out) houter hst').of_eq rfl
  | unwindOuter k rest ih =>
    obtain ⟨⟨g, s, tr⟩, h⟩ := st
    obtain ⟨hbeyond, hrest⟩ := hfrom
    have hreach : ∀ m, outer[k]? = some m → m ∈ m₀ :: reach ++ tr.markers := fun m hm =>
      List.mem_append_left _ (List.mem_cons_of_mem _ (houter k m hbeyond hm))
    exact .bind (unwindTo_leads hp hdebug hin hreach).attempt
      fun out st' _ hst' => ih out (hrest out) houter hst'
  | retreat rest ih =>
    obtain ⟨⟨g, s, tr⟩, h⟩ := st
    have hguard : g.marker ∈ m₀ :: reach ++ tr.markers := by
      rw [hin.entered]
      exact List.mem_cons_self
    exact (Action.Leads.bind (unwind_leads hp hdebug hin hguard).attempt
      fun out st' _ hst' => ih out (hfrom out) houter hst').of_eq rfl
  | disarm rest ih =>
    obtain ⟨⟨g, s, tr⟩, h⟩ := st
    have hloose : Inside gap s₀ reach m₀ ((g.disarm, s, { tr with letGo := true }), h) :=
      ⟨hin.stands, hin.entered, hin.known, hin.freed, hin.visited⟩
    exact (ih hfrom houter hloose).of_eq rfl
  | scope inner rest ihInner ihRest =>
    obtain ⟨⟨g, s, tr⟩, h⟩ := st
    obtain ⟨hinner, hrest⟩ := hfrom
    let tr' : Trace := { tr with visits := ⟨inner, outer ++ tr.markers, s, h⟩ :: tr.visits }
    have hopened : Inside gap s₀ reach m₀ ((g, s, tr'), h) := by
      refine ⟨hin.stands, hin.entered, hin.known, hin.freed, ?_⟩
      intro v hv
      rcases List.mem_cons.1 hv with rfl | hold
      · exact hin.stands.toUpright
      · exact hin.visited v hold
    -- Seen from the body around it the scope may reach the markers of that body; seen from itself
    -- it reaches none that was captured before.
    have hwithin : ∀ k m, n ≤ k → (outer ++ tr.markers)[k]? = some m →
        m ∈ m₀ :: reach ++ tr.markers := by
      intro k m hk hm
      rcases Nat.lt_or_ge k outer.length with hlt | hge
      · rw [List.getElem?_append_left hlt] at hm
        exact List.mem_append_left _ (List.mem_cons_of_mem _ (houter k m hk hm))
      · rw [List.getElem?_append_right hge] at hm
        exact List.mem_append_right _ (List.mem_of_getElem? hm)
    have hscope := scope_leads hp hdebug hopened List.mem_cons_self
      (ihInner hinner hwithin hin.enter)
      fun hown => ihInner hown (mem_of_beyond _) (.start hin.stands.toUpright)
    exact (Action.Leads.bind hscope.attempt
      fun out st' _ hst' => ihRest out (hrest out) houter hst').of_eq rfl

/-! ## What a guard restores -/

/-- `Restores p body s h`: however the body ends that runs as a scope on `s`, its guard is armed
    unless the body has let it go, and it is dropped without a stop.  If the body has not let it go,
    that leads the stack back to the position and the blocks of `s`, and takes back all that was
    served inside; if it has, stack and host stay as the body has left them.  The scope ends as its
    body does, and only after a fatal fault its guard is not dropped at all. -/
def Restores (p : Platform) (body : Action (Guard × Stack × Trace) Unit) (s : Stack) (h : Host) :
    Prop :=
  ∀ out g s' tr h', Action.after body ((Guard.enter s, s, .blank), h) = (out, (g, s', tr), h') →
    g.armed = !tr.letGo ∧
    ∃ s'' h'', g.leave p (s', h') = .ok () (s'', h'') ∧
      (tr.letGo = false → s''.top = (Guard.enter s).marker ∧ s''.active = s.active ∧
        ∀ grant ∈ tr.grants, s''.Frees grant) ∧
      (tr.letGo = true → s'' = s' ∧ h'' = h') ∧
      Action.after (Guard.scope p body) ((s, .blank), h)
        = if fatal out then (out, (s', tr), h') else (out, (s'', tr), h'')

/-- A scope that keeps to itself is restored from every upright stack. -/
theorem restores_of_upright (hp : p.Sound gap) (hdebug : p.build = .debug)
    (hup : Upright gap s h) {b : Body} (hfrom : b.From outer.length) :
    Restores p (b.run p outer) s h := by
  intro out g s' tr h' hbody
  have hguard : g.armed = !tr.letGo := armed_eq (congrArg Prod.snd hbody)
  have hin := (run_leads hp hdebug hfrom (mem_of_beyond outer) (.start hup)).state
  rw [hbody] at hin
  obtain ⟨s'', h'', hleave, harmed, hloose⟩ := leave_ends (p := p) hin hup.balanced
  refine ⟨hguard, s'', h'', hleave, ?_, ?_, ?_⟩
  · intro hkept
    obtain ⟨htop, hactive⟩ := harmed (by rw [hguard, hkept]; rfl)
    refine ⟨htop, hactive, ?_⟩
    intro grant hgrant blk hblk
    rw [hactive] at hblk
    exact hin.freed grant hgrant blk hblk
  · intro hgone
    exact hloose (by rw [hguard, hgone]; rfl)
  · by_cases hfatal : fatal out = true
    · rw [if_pos hfatal]
      exact after_scope_of_fatal hbody hfatal
    · rw [if_neg hfatal, after_scope_of_left hbody (Bool.eq_false_iff.2 hfatal)
        (Action.after_of_ok hleave)]
      cases out <;> rfl

end Body

namespace World

open Stack Body

variable {p : Platform} {gap : Nat} {w : World}

/-- Every stack of a run of a debug build is upright. -/
theorem Reachable.upright (hp : p.Sound gap) (hdebug : p.build = .debug) (hw : Reachable p w)
    {i : Nat} {t : Tenancy} (hat : w.at? i = some t) : Upright gap t.stack w.host := by
  obtain ⟨n, haccount⟩ := hw.account hp hdebug
  exact ⟨(hw.sound hp).settled i t hat, haccount.ordered i t hat, haccount.balanced i t hat⟩

/-- **Guards restore their stacks.**  In a debug build, let a body run as a scope on a stack of a
    run, and end in any way.  Its guard is dropped without a stop.
    (1) Unless the body has let the guard go, that leads the stack back to what it was and takes
        back all that was served inside, at any depth and under whatever guards.  If it has, the
        scope ends with the stack and the host that the body has left.
    (2) The same holds of every scope inside that unwinds to no marker captured before it, wherever
        it was opened; and if all are such, the body is only ever ended by a fatal fault when the
        heap has nothing left, and never by a guard.
    (3) From wherever a body lets its guard go, and whatever it does then, the guard is unarmed when
        the body ends. -/
theorem scope_restores (hp : p.Sound gap) (hdebug : p.build = .debug) (hw : Reachable p w) {i : Nat}
    {t : Tenancy} (hat : w.at? i = some t) (b : Body) :
    Restores p (b.run p []) t.stack w.host ∧
    (∀ out g s tr h, Action.after (b.run p [])
        ((Guard.enter t.stack, t.stack, .blank), w.host) = (out, (g, s, tr), h) →
      (∀ v ∈ tr.visits, v.Own → Restores p (v.body.run p v.outer) v.stack v.host) ∧
      ((∀ v ∈ tr.visits, v.Own) → ∀ f, out = .error f → f.isFatal = true →
        ∃ size alignment, f = .heapExhausted size alignment)) ∧
    ∀ (rest : Body) (outer : List Marker) (st : (Guard × Stack × Trace) × Host),
      (Action.after ((Body.disarm rest).run p outer) st).2.1.1.armed = false ∧
      (Action.after ((Body.disarm rest).run p outer) st).2.1.2.2.letGo = true := by
  have hup := hw.upright hp hdebug hat
  refine ⟨restores_of_upright hp hdebug hup b.from_zero, ?_, disarm_run⟩
  intro out g s tr h hbody
  have hleads : Action.Leads (Inside gap t.stack [] t.stack.top) Mild (b.run p [])
      ((Guard.enter t.stack, t.stack, .blank), w.host) :=
    run_leads hp hdebug b.from_zero (mem_of_beyond []) (.start hup)
  have hin := hleads.state
  have hfault := hleads.fault
  rw [hbody] at hin hfault
  constructor
  · intro v hv hown
    exact restores_of_upright hp hdebug (hin.visited v hv) hown
  · intro hall f hf
    exact hfault f hf hall

/-- A body lets its guard go after a request, and panics. -/
def lettingGo : Body :=
  .ask .plain ⟨100, 1⟩ fun _ => .disarm (.raise (.raised "stop") rfl)

/-- The same as a scope inside another; the panic goes on after one more request. -/
def lettingGoInside : Body :=
  .scope lettingGo fun
    | .ok () => .done
    | .error f => .ask .plain ⟨10, 1⟩ fun _ => .reraise f

/-- Both panics come out.  The guard of the first body was let go, and the scope ends with the stack
    that the body has left: a second block, and in it the hundred bytes that were served.  The guard
    of the second is armed, and the stack is back where it was: the block that the scope inside has
    left is released with what was served there. -/
theorem scope_restores_panic :
    ∃ t, tenBytes.at? 0 = some t ∧
      (∃ g s tr h, Action.after (lettingGo.run (Session.platform .debug []) [])
          ((Guard.enter t.stack, t.stack, .blank), tenBytes.host)
          = (.error (.raised "stop"), (g, s, tr), h) ∧
        g.armed = false ∧ s.blockCount = 2 ∧ s.outstanding = 110 ∧
        Action.after (Guard.scope (Session.platform .debug [])
          (lettingGo.run (Session.platform .debug []) [])) ((t.stack, .blank), tenBytes.host)
          = (.error (.raised "stop"), (s, tr), h)) ∧
      ∃ s tr h, Action.after (Guard.scope (Session.platform .debug [])
          (lettingGoInside.run (Session.platform .debug []) [])) ((t.stack, .blank), tenBytes.host)
          = (.error (.raised "stop"), (s, tr), h) ∧
        tr.visits.length = 1 ∧ tr.grants.length = 2 ∧ s.top = t.stack.top ∧
        ∀ grant ∈ tr.grants, s.Frees grant := by
  have hp : (Session.platform .debug []).Sound 1 :=
    Session.platform_sound .debug (by nofun) (by decide)
  have hreach : Reachable (Session.platform .debug []) tenBytes := ⟨_, rfl⟩
  have hends : (tenBytes.at? 0).any (fun t =>
      (match Action.after (lettingGo.run (Session.platform .debug []) [])
        ((Guard.enter t.stack, t.stack, .blank), tenBytes.host) with
      | (.error (.raised text), (_, s, tr), _) =>
        text == "stop" && tr.letGo && s.blockCount == 2 && s.outstanding == 110
      | _ => false) &&
      match Action.after (lettingGoInside.run (Session.platform .debug []) [])
        ((Guard.enter t.stack, t.stack, .blank), tenBytes.host) with
      | (.error (.raised text), (_, _, tr), _) =>
        text == "stop" && !tr.letGo && tr.visits.length == 1 && tr.grants.length == 2
      | _ => false) = true := by
    decide +kernel
  obtain ⟨t, hat, hboth⟩ := (Option.any_eq_true _ _).1 hends
  obtain ⟨hloose, hkept⟩ := Bool.and_eq_true_iff.1 hboth
  refine ⟨t, hat, ?_, ?_⟩
  · split at hloose
    · rename_i text g s tr h hbody
      simp only [Bool.and_eq_true, beq_iff_eq] at hloose
      obtain ⟨⟨⟨rfl, hgone⟩, hblocks⟩, hout⟩ := hloose
      obtain ⟨harmed, s', h', -, -, hsame, hscope⟩ :=
        (scope_restores hp rfl hreach hat lettingGo).1 _ _ _ _ _ hbody
      obtain ⟨rfl, rfl⟩ := hsame hgone
      rw [hgone] at harmed
      exact ⟨g, s', tr, h', hbody, harmed, hblocks, hout, hscope⟩
    · nomatch hloose
  · split at hkept
    · rename_i text g s' tr h' hbody
      simp only [Bool.and_eq_true, Bool.not_eq_true', beq_iff_eq] at hkept
      obtain ⟨⟨⟨rfl, hheld⟩, hvisits⟩, hgrants⟩ := hkept
      obtain ⟨-, s, h, -, hback, -, hscope⟩ :=
        (scope_restores hp rfl hreach hat lettingGoInside).1 _ _ _ _ _ hbody
      obtain ⟨htop, -, hfrees⟩ := hback hheld
      exact ⟨s, tr, h, hscope, hvisits, hgrants, htop, hfrees⟩
    · nomatch hkept

end World

end StackArena
