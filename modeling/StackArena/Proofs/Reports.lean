/-
  Leak reports along a run.

  The books of a debug build balance, so what a stack reports is the sum of the cursors of its
  active blocks; it reports when it comes to its end and when it is asked to, if that sum is not
  zero.  `World.Heard` says what comes of a call: the account of the report that the call owes, an
  installation, or nothing.  A chronicle is what comes of a run, call by call.

  1. **Silence** — of everything that stacks do besides reporting, no handler hears, and none is
     installed.
  2. **Reports** — a stack reports as `Reported` says, and comes to its end so: its blocks are freed
     even if a handler raises.
  3. **Runs** — `reports_exact`: every run has a chronicle, and the journal tells of exactly that.
-/
import StackArena.Proofs.Handlers
import StackArena.Proofs.Keeping

namespace StackArena

/-! ## What the journal tells of handlers -/

/-- The call of a handler, if a note says so. -/
def Note.leak? : Note → Option (Handler × AllocatorInfo × Nat)
  | .leak receiver who amount => some (receiver, who, amount)
  | _ => none

/-- The calls of handlers that notes tell of, in order. -/
def leaks (notes : List Note) : List (Handler × AllocatorInfo × Nat) := notes.filterMap Note.leak?

theorem leaks_append (notes more : List Note) : leaks (notes ++ more) = leaks notes ++ leaks more :=
  List.filterMap_append

namespace Host

/-- `h.Tells es h'`: from `h` to `h'` the journal tells of those calls of handlers that are in the
    account, and the hook is the one that the account leads to. -/
structure Tells (h : Host) (es : List Episode) (h' : Host) : Prop where
  hook_eq : h'.hook = lastHook h.hook es
  journal : ∃ notes, h'.journal = h.journal ++ notes ∧ leaks notes = leaks (episodeNotes es)

variable {h h₁ h₂ h₃ : Host} {es fs : List Episode}

theorem Tells.refl (h : Host) : h.Tells [] h := ⟨rfl, [], (List.append_nil _).symm, rfl⟩

/-- One account after the other. -/
theorem Tells.trans (hfirst : h₁.Tells es h₂) (hsecond : h₂.Tells fs h₃) :
    h₁.Tells (es ++ fs) h₃ := by
  obtain ⟨notes, hjournal, hleaks⟩ := hfirst.journal
  obtain ⟨more, hjournal', hleaks'⟩ := hsecond.journal
  refine ⟨?_, notes ++ more, ?_, ?_⟩
  · rw [lastHook_append, ← hfirst.hook_eq]
    exact hsecond.hook_eq
  · rw [hjournal', hjournal, List.append_assoc]
  · rw [leaks_append, hleaks, hleaks', episodeNotes_append, leaks_append]

theorem Tells.then_nothing (hfirst : h₁.Tells es h₂) (hsecond : h₂.Tells [] h₃) :
    h₁.Tells es h₃ := by
  have hall := hfirst.trans hsecond
  rwa [List.append_nil] at hall

/-- A note about something else. -/
theorem Tells.of_note {h' : Host} {n : Note} (hhook : h'.hook = h.hook)
    (hjournal : h'.journal = h.journal ++ [n]) (hn : n.leak? = none) : h.Tells [] h' := by
  refine ⟨hhook, [n], hjournal, ?_⟩
  rw [leaks, List.filterMap_cons_none hn]
  rfl

/-- What a report leads to is what its account tells. -/
theorem tells_told (h : Host) (es : List Episode) :
    h.Tells es (h.told (episodeNotes es) (lastHook h.hook es)) := ⟨rfl, _, rfl, rfl⟩

theorem tells_withoutBlocks (h : Host) (blks : List Block) : h.Tells [] (h.withoutBlocks blks) := by
  induction blks generalizing h with
  | nil => exact .refl h
  | cons blk rest ih =>
    have hfirst : h.Tells [] (h.withoutRegion blk.region) := .of_note rfl rfl rfl
    exact hfirst.trans (ih _)

end Host

namespace Stack

variable {p : Platform} {gap : Nat} {s s' : Stack} {h h' : Host}

/-! ## Silence -/

theorem tells_painted (s : Stack) (h : Host) (offset length : Nat) (byte : UInt8) :
    h.Tells [] (s.painted h offset length byte) :=
  ⟨s.hook_painted h offset length byte, [], by rw [journal_painted, List.append_nil], rfl⟩

theorem Bump.tells {r : Request} {out : Except Fault (Option Nat)}
    (hbump : Bump p r s h (out, s', h')) : h.Tells [] h' := by
  cases hbump with
  | declined => exact .refl h
  | overdrawn => exact .refl h
  | served => exact s.tells_painted h _ _ _

theorem Grow.tells {required : Nat} {out : Except Fault Unit}
    (hgrow : Grow p required s h (out, s', h')) : h.Tells [] h' := by
  have hannounced : h.Tells [] (s.announced required h) := .of_note rfl rfl rfl
  cases hgrow with
  | reused => exact .refl h
  | made => exact hannounced.trans (.of_note rfl rfl rfl)
  | serialsOut => exact .refl h
  | noBlock => exact hannounced

/-- No handler hears of a request. -/
theorem ask_tells {form : Form} {r : Request} {out : Except Fault (Option Nat)} (hp : p.Sound gap)
    (hset : Settled gap s h) (hasked : Action.after (form.ask p r) (s, h) = (out, s', h')) :
    h.Tells [] h' := by
  have hends := ask_ends hp hset form r
  rw [hasked] at hends
  cases hends with
  | asked hrequest hserves =>
    exact hserves.keeps (P := fun _ h' => h.Tells [] h') (.refl h) (fun hgrow => hgrow.tells)
      fun hfirst hbump => hfirst.trans hbump.tells
  | refused => exact .refl h

/-- No handler hears of what an unwind does to the host. -/
theorem tells_swept (s : Stack) (h : Host) (m : Marker) : h.Tells [] (s.swept m h) := by
  obtain ⟨hjournal, hhook⟩ := s.journal_swept h m
  refine ⟨hhook, _, hjournal.trans (List.append_assoc _ _ _), ?_⟩
  have htold : leaks (s.told m.depth) = [] := by
    unfold told
    split <;> rfl
  rw [leaks_append, htold, List.append_nil, leaks, List.filterMap_map]
  exact List.filterMap_eq_nil_iff.2 fun _ _ => rfl

/-- No handler hears of an unwind. -/
theorem unwind_tells {m : Marker} {out : Except Fault Unit} (hs : s.WellFormed)
    (hrun : Action.after (unwind p m) (s, h) = (out, s', h')) : h.Tells [] h' := by
  rcases unwind_ends p m h hs with ⟨hdone, -⟩ | ⟨f, hstop, -⟩
  · cases hdone.symm.trans hrun
    exact tells_swept s h m
  · cases hstop.symm.trans hrun
    exact .refl h

/-- No handler hears of a trimming. -/
theorem shrink_tells (s : Stack) (h : Host) :
    h.Tells [] ((s.toldShrunk h).withoutBlocks s.cache.reverse) := by
  have htold : h.Tells [] (s.toldShrunk h) := by
    unfold toldShrunk
    split
    · exact .of_note rfl rfl rfl
    · exact .refl h
  exact htold.trans (Host.tells_withoutBlocks _ _)

/-! ## Reports and the end of a stack -/

/-- The report that is due of a stack: the sum of the cursors of its active blocks, unless that is
    zero. -/
def due? (s : Stack) : Option (AllocatorInfo × Nat) :=
  if s.reserved = 0 then none else some (s.info, s.reserved)

/-- Whether the report that is due of a stack, if one is, comes to an end on a host. -/
def halts (p : Platform) (s : Stack) (h : Host) : Bool :=
  s.due?.all fun (who, amount) => h.halts p who amount

/-- **A report of leaks**, where the books balance: the handler is told what is due, the stack stays
    as it is, and the sum comes back unless a handler raises. -/
theorem reportLeaks_reported (hb : s.Balanced) (hhalts : s.halts p h = true) :
    ∃ es out k', Reported p h.hook s.due? es out k' ∧
      Action.after (reportLeaks p) (s, h)
        = (out.map fun _ => s.reserved, s, h.told (episodeNotes es) k') := by
  have hbooks : s.outstanding = s.reserved := hb
  rcases reportLeaks_cases p s h with ⟨hzero, hrun⟩ | ⟨hsome, hcases⟩
  · rw [hbooks] at hzero
    refine ⟨[], .ok (), h.hook, ?_, ?_⟩
    · rw [due?, if_pos hzero]
      exact .nothing
    · rw [Action.after_of_ok hrun, episodeNotes, List.flatMap_nil, Host.told_nil, hbooks]
      rfl
  · rw [hbooks] at hsome
    have hdue : s.due? = some (s.info, s.reserved) := if_neg hsome
    rw [halts, hdue, Option.all_some] at hhalts
    obtain ⟨es, out, k', hreported, hends⟩ := Host.reportLeak_reported hhalts
    rw [hbooks] at hcases
    refine ⟨es, out, k', hdue ▸ hreported, ?_⟩
    rcases hcases with ⟨h₁, hreport, hdone⟩ | ⟨f, h₁, hreport, hstop⟩
    · rw [HostAction.ending, hreport] at hends
      cases hends
      exact Action.after_of_ok hdone
    · rw [HostAction.ending, hreport] at hends
      cases hends
      exact Action.after_of_error hstop

/-- **The end of a stack**, where the books balance: the handler is told what is due, and all blocks
    are freed even if a handler raises. -/
theorem discard_reported (hb : s.Balanced) (hhalts : s.halts p h = true) :
    ∃ es out k', Reported p h.hook s.due? es out k' ∧
      Action.after (reportLeaks p) (s, h)
        = (out.map fun _ => s.reserved, s, h.told (episodeNotes es) k') ∧
      Action.after (discard p) (s, h)
        = (out, s, (h.told (episodeNotes es) k').withoutBlocks
            (s.active.reverse ++ s.cache.reverse)) := by
  obtain ⟨es, out, k', hreported, hrun⟩ := reportLeaks_reported hb hhalts
  refine ⟨es, out, k', hreported, hrun, ?_⟩
  obtain ⟨result, h₁, hreport, -, ⟨f, rfl, hfatal, -⟩ | ⟨-, hdone⟩⟩ := discard_cases p s h
  · -- What a handler raises is not fatal.
    have hfault := congrArg Prod.fst (hreport.symm.trans hrun)
    cases out with
    | ok u => nomatch hfault
    | error e =>
      cases hfault
      obtain ⟨text, rfl⟩ := hreported.raised
      nomatch hfatal
  · cases hreport.symm.trans hrun
    rw [hdone]
    cases out <;> rfl

end Stack

namespace World

open Stack

variable {p : Platform} {gap i : Nat} {w : World} {t : Tenancy} {c : Call} {es : List Episode}

/-! ## What comes of a call -/

/-- The report that a call owes: that of a stack which comes to its end, or is asked for one. -/
def owed (w : World) : Call → Option (AllocatorInfo × Nat)
  | .discard slot => (w.at? slot).bind fun t => if t.guards.isEmpty then t.stack.due? else none
  | .on slot .reportLeaks => (w.at? slot).bind fun t => t.stack.due?
  | _ => none

/-- The reports that the calls of a run owe. -/
def owedAlong (p : Platform) (w : World) : List Call → List (AllocatorInfo × Nat)
  | [] => []
  | c :: cs => (w.owed c).toList ++ owedAlong p (w.step p c) cs

/-- Whether every report that the calls of a run owe comes to an end. -/
def halting (p : Platform) (w : World) : List Call → Bool
  | [] => true
  | c :: cs => (w.owed c).all (fun (who, amount) => w.host.halts p who amount) &&
    halting p (w.step p c) cs

/-- `Heard p w c es`: the account of a call.  A handler is installed, or the report that the call
    owes is made, or nothing happens. -/
inductive Heard (p : Platform) (w : World) : Call → List Episode → Prop
  | installed {next : Handler} : Heard p w (.install next) [.installed w.host.handler next]
  | reported {c : Call} {es : List Episode} {out : Except Fault Unit} {k' : Hook}
      (hcall : ∀ next, c ≠ .install next)
      (hreported : Reported p w.host.hook (w.owed c) es out k') : Heard p w c es

/-- `Chronicle p w cs es`: the accounts of the calls of a run, one after the other. -/
inductive Chronicle (p : Platform) : World → List Call → List Episode → Prop
  | nil {w : World} : Chronicle p w [] []
  | cons {w : World} {c : Call} {cs : List Call} {es fs : List Episode}
      (hfirst : Heard p w c es) (hrest : Chronicle p (w.step p c) cs fs) :
      Chronicle p w (c :: cs) (es ++ fs)

theorem Heard.truthful (hheard : Heard p w c es) : Truthful w.host.hook es := by
  cases hheard with
  | installed => exact ⟨rfl, trivial⟩
  | reported hcall hreported => exact hreported.truthful.1

theorem Heard.once (hheard : Heard p w c es) : outerReports es = (w.owed c).toList := by
  cases hheard with
  | installed => rfl
  | reported hcall hreported => exact hreported.once

/-- A call that owes nothing and installs nothing has an account without episodes. -/
theorem heard_nothing (hcall : ∀ next, c ≠ .install next) (howed : w.owed c = none) :
    Heard p w c [] := by
  have hnothing : Reported p w.host.hook (w.owed c) [] (.ok ()) w.host.hook := by
    rw [howed]
    exact .nothing
  exact .reported hcall hnothing

/-- Of an operation other than a report no handler hears. -/
theorem act_tells (hp : p.Sound gap) {h : Host} (hset : Settled gap t.stack h)
    (markers : List Marker) {op : Op} (hop : op ≠ .reportLeaks) :
    h.Tells [] (t.act p markers h op).2 := by
  rcases t.act_runs p markers h op with ⟨-, hhost⟩ | ⟨form, r, out, -, hrun⟩ |
    ⟨m, out, -, hrun⟩ | ⟨out, hrun⟩ | ⟨out, hreport, -⟩
  · rw [hhost]
    exact .refl h
  · exact ask_tells hp hset hrun
  · exact unwind_tells hset.wellFormed hrun
  · have hdone := Action.after_of_ok (shrink_apply t.stack h)
    rw [congrArg (·.2.2) (hrun.symm.trans hdone)]
    exact shrink_tells t.stack h
  · exact absurd hreport hop

/-- Only the operation that reports owes a report. -/
theorem owed_on {op : Op} (hop : op ≠ .reportLeaks) : w.owed (.on i op) = none := by
  cases op with
  | reportLeaks => exact absurd rfl hop
  | _ => rfl

/-- An operation on a stack tells its account. -/
theorem tells_operated (hp : p.Sound gap) (hset : Settled gap t.stack w.host)
    (hb : t.stack.Balanced) (hat : w.at? i = some t) (op : Op)
    (hhalts : (w.owed (.on i op)).all (fun (who, amount) => w.host.halts p who amount) = true) :
    ∃ es, Heard p w (.on i op) es ∧ w.host.Tells es (w.step p (.on i op)).host := by
  have hstep : (w.step p (.on i op)).host = (t.act p w.markers w.host op).2 := by
    rw [step, operate, hat]
  rw [hstep]
  by_cases hop : op = .reportLeaks
  · subst hop
    have howed : w.owed (.on i .reportLeaks) = t.stack.due? := by
      rw [owed, hat]
      rfl
    rw [howed] at hhalts
    obtain ⟨es, out, k', hreported, hrun⟩ := reportLeaks_reported hb hhalts
    refine ⟨es, .reported (by rintro next ⟨⟩) (howed ▸ hreported), ?_⟩
    rw [Tenancy.act, Tenancy.keep, hrun, ← hreported.truthful.2]
    exact Host.tells_told _ _
  · exact ⟨[], heard_nothing (by rintro next ⟨⟩) (owed_on hop), act_tells hp hset w.markers hop⟩

/-- The end of a stack tells its account; a stack with an open guard is borrowed and stays. -/
theorem tells_discarded (hb : t.stack.Balanced) (hat : w.at? i = some t)
    (hhalts : (w.owed (.discard i)).all (fun (who, amount) => w.host.halts p who amount) = true) :
    ∃ es, Heard p w (.discard i) es ∧ w.host.Tells es (w.step p (.discard i)).host := by
  by_cases hguards : t.guards.isEmpty = true
  · have howed : w.owed (.discard i) = t.stack.due? := by
      rw [owed, hat, Option.bind_some, if_pos hguards]
    have hstep : (w.step p (.discard i)).host
        = (Action.after (Stack.discard p) (t.stack, w.host)).2.2 := by
      simp only [step, discard, hat, hguards, if_true]
    rw [howed] at hhalts
    obtain ⟨es, out, k', hreported, -, hrun⟩ := discard_reported hb hhalts
    refine ⟨es, .reported (by rintro next ⟨⟩) (howed ▸ hreported), ?_⟩
    rw [hstep, hrun, ← hreported.truthful.2]
    exact (Host.tells_told _ _).then_nothing (Host.tells_withoutBlocks _ _)
  · have howed : w.owed (.discard i) = none := by
      rw [owed, hat, Option.bind_some, if_neg hguards]
    refine ⟨[], heard_nothing (by rintro next ⟨⟩) howed, ?_⟩
    simp only [step, discard, hat, if_neg hguards]
    exact .refl _

/-- **A call tells its account**, and nothing else. -/
theorem tells_step (hp : p.Sound gap) (hdebug : p.build = .debug) (hw : Reachable p w) (c : Call)
    (hhalts : (w.owed c).all (fun (who, amount) => w.host.halts p who amount) = true) :
    ∃ es, Heard p w c es ∧ w.host.Tells es (w.step p c).host := by
  have hbooks : ∀ {i t}, w.at? i = some t → t.stack.Balanced := fun hat =>
    (hw.books hp hat).resolve_left (Build.eq_debug_iff.1 hdebug)
  cases c with
  | make c =>
    refine ⟨[], heard_nothing (by rintro next ⟨⟩) rfl, ?_⟩
    rcases make_ends p c w with ⟨base, hmade⟩ | ⟨lastId, hmade⟩
    · rw [hmade]
      exact .of_note rfl rfl rfl
    · rw [hmade]
      exact ⟨rfl, [], (List.append_nil _).symm, rfl⟩
  | install next => exact ⟨_, .installed, rfl, [], (List.append_nil _).symm, rfl⟩
  | on i op =>
    cases hat : w.at? i with
    | some t => exact tells_operated hp ((hw.sound hp).settled i t hat) (hbooks hat) hat op hhalts
    | none =>
      have howed : w.owed (.on i op) = none := by
        by_cases hop : op = .reportLeaks
        · rw [hop, owed, hat, Option.bind_none]
        · exact owed_on hop
      refine ⟨[], heard_nothing (by rintro next ⟨⟩) howed, ?_⟩
      rw [step, operate, hat]
      exact .refl _
  | discard i =>
    cases hat : w.at? i with
    | some t => exact tells_discarded (hbooks hat) hat hhalts
    | none =>
      have howed : w.owed (.discard i) = none := by rw [owed, hat, Option.bind_none]
      refine ⟨[], heard_nothing (by rintro next ⟨⟩) howed, ?_⟩
      rw [step, discard, hat]
      exact .refl _

/-! ## What comes of a run -/

/-- **A run has a chronicle**, and tells of it; the chronicle is truthful, and its reports of stacks
    are those that the calls owe. -/
theorem tells_run (hp : p.Sound gap) (hdebug : p.build = .debug) (hw : Reachable p w)
    {cs : List Call} (hhalts : halting p w cs = true) :
    ∃ es, Chronicle p w cs es ∧ w.host.Tells es (run p w cs).host ∧
      Truthful w.host.hook es ∧ outerReports es = owedAlong p w cs := by
  induction cs generalizing w with
  | nil => exact ⟨[], .nil, .refl _, trivial, rfl⟩
  | cons c cs ih =>
    obtain ⟨hfirst, hrest⟩ := Bool.and_eq_true_iff.1 hhalts
    obtain ⟨es, hheard, htells⟩ := tells_step hp hdebug hw c hfirst
    obtain ⟨fs, hchronicle, htells', htruthful, hout⟩ := ih (w := w.step p c) (hw.run [c]) hrest
    refine ⟨es ++ fs, .cons hheard hchronicle, htells.trans htells', ?_, ?_⟩
    · rw [htells.hook_eq] at htruthful
      exact hheard.truthful.append htruthful
    · rw [outerReports_append, hheard.once, hout, owedAlong]

/-- **Leak reports are exact.**  In every run of a debug build, over any number of stacks and with
    handlers that may install handlers, report in turn, keep something from one report to the next
    or raise, but come to an end:
    1. the run has a chronicle, in which every report that a call owes is made once and every other
       report is made by a handler; every call goes to the handler installed at that moment, every
       installation is told that one, and what a handler consults was kept last; the journal tells of
       exactly these calls, and the hook at the end is the one that the chronicle leads to;
    2. at its end, a report of leaks, or the end, of any stack tells the installed handler once of
       the sum of the cursors of its active blocks, under its name and identity, or nobody if that
       is zero; the report of leaks leaves the stack as it is and comes back with the sum unless a
       handler raises, and the end frees every region of the stack even then;
    3. an installation comes back with the handler that was installed. -/
theorem reports_exact (hp : p.Sound gap) (hdebug : p.build = .debug) (cs : List Call)
    (hhalts : halting p initial cs = true) (hw : w = run p initial cs) :
    (∃ es, Chronicle p initial cs es ∧ outerReports es = owedAlong p initial cs ∧
      Truthful .initial es ∧ leaks w.host.journal = leaks (episodeNotes es) ∧
      w.host.hook = lastHook .initial es) ∧
    (∀ i t, w.at? i = some t → t.stack.halts p w.host = true →
      ∃ es out k', Reported p w.host.hook t.stack.due? es out k' ∧
        outerReports es = t.stack.due?.toList ∧ Truthful w.host.hook es ∧
        Action.after (Stack.reportLeaks p) (t.stack, w.host)
          = (out.map fun _ => (t.stack.active.map Block.cursor).sum, t.stack,
              w.host.told (episodeNotes es) k') ∧
        (∀ f, out = .error f → ∃ text, f = .raised text) ∧
        ∃ h', Action.after (Stack.discard p) (t.stack, w.host) = (out, t.stack, h') ∧
          h'.hook = k' ∧ ∀ n ∈ t.stack.regions, h'.memory.Gone n) ∧
    ∀ next, Host.install next w.host = .ok w.host.handler (w.step p (.install next)).host := by
  have hreachable : Reachable p w := ⟨cs, hw⟩
  refine ⟨?_, ?_, fun next => rfl⟩
  · obtain ⟨es, hchronicle, htells, htruthful, hout⟩ :=
      tells_run (w := initial) hp hdebug ⟨[], rfl⟩ hhalts
    obtain ⟨notes, hjournal, hleaks⟩ := htells.journal
    subst hw
    refine ⟨es, hchronicle, hout, htruthful, ?_, htells.hook_eq⟩
    rw [hjournal]
    exact hleaks
  · intro i t hat hhalt
    have hb := (hreachable.books hp hat).resolve_left (Build.eq_debug_iff.1 hdebug)
    have hlodged := ((hreachable.sound hp).settled i t hat).lodged
    obtain ⟨es, out, k', hreported, hreport, hdiscard⟩ := discard_reported hb hhalt
    refine ⟨es, out, k', hreported, hreported.once, hreported.truthful.1, hreport, ?_, _, hdiscard,
      ?_, ?_⟩
    · rintro f rfl
      exact hreported.raised
    · have hsilent := Host.tells_withoutBlocks (w.host.told (episodeNotes es) k')
        (t.stack.active.reverse ++ t.stack.cache.reverse)
      exact hsilent.hook_eq
    · intro n hn
      obtain ⟨blk, hblk, rfl⟩ := List.mem_map.1 hn
      have hfreed : blk.region ∈ (t.stack.active.reverse ++ t.stack.cache.reverse).map
          Block.region := by
        refine List.mem_map_of_mem ?_
        rcases List.mem_append.1 hblk with hactive | hcached
        · exact List.mem_append_left _ (List.mem_reverse.2 hactive)
        · exact List.mem_append_right _ (List.mem_reverse.2 hcached)
      have hhoused : (w.host.told (episodeNotes es) k').memory.extent? blk.region
          = some blk.extent := hlodged.housed blk hblk
      exact ⟨_, (Host.records_withoutBlocks _ _).gone _ _ hfreed hhoused, rfl⟩

/-- A handler that raises when it hears of the first leak, and never again. -/
def raisingOnce : Conduct := .consult fun
  | [] => .keep [("heard", 1)] (.refuse "first leak")
  | _ => .done

/-- The platform of a session, with that handler under the name `once`. -/
def forgiving : Platform :=
  { Session.platform .debug [] with
    conduct := fun name who amount =>
      if name = "once" then raisingOnce else Session.conduct name who amount }

/-- Calls with two stacks and four handlers: one that reports in turn under another handler, one
    that raises, one that hands over to another, and one that raises once. -/
def handedOver : List Call :=
  [.make (.sized .debug 64), .make (.sized .debug 64), .on 0 (.allocate .plain ⟨10, 1⟩),
    .on 1 (.allocate .plain ⟨100, 1⟩), .install (.named "nest"), .discard 0,
    .install (.named "panic"), .on 1 .reportLeaks, .install (.named "swap"), .on 1 .reportLeaks,
    .install (.named "once"), .on 1 .reportLeaks]

/-- The four reports of the run are owed and made once.  The stack that is left will report its
    hundred bytes to the last of the handlers, which has raised already and does not again. -/
theorem reports_exact_handed_over :
    owedAlong forgiving initial handedOver
        = (⟨kindName, ⟨1⟩⟩, 10) :: List.replicate 3 (⟨kindName, ⟨2⟩⟩, 100) ∧
      (∃ es, Chronicle forgiving initial handedOver es ∧
        outerReports es = (⟨kindName, ⟨1⟩⟩, 10) :: List.replicate 3 (⟨kindName, ⟨2⟩⟩, 100) ∧
        lastHook .initial es = ⟨.named "once", [("heard", 1)]⟩) ∧
      ∃ t, (run forgiving initial handedOver).at? 1 = some t ∧
        t.stack.due? = some (⟨kindName, ⟨2⟩⟩, 100) ∧
        ∃ h', Action.after (Stack.discard forgiving)
            (t.stack, (run forgiving initial handedOver).host) = (.ok (), t.stack, h') ∧
          ∀ n ∈ t.stack.regions, h'.memory.Gone n := by
  have hsound : (Session.platform .debug []).Sound 1 :=
    Session.platform_sound .debug (by nofun) (by decide)
  have hp : forgiving.Sound 1 := ⟨hsound.aligned, hsound.bounded, hsound.apart⟩
  have howed : owedAlong forgiving initial handedOver
      = (⟨kindName, ⟨1⟩⟩, 10) :: List.replicate 3 (⟨kindName, ⟨2⟩⟩, 100) := by decide +kernel
  have hhalts : halting forgiving initial handedOver = true := by decide +kernel
  have hhook : (run forgiving initial handedOver).host.hook
      = ⟨.named "once", [("heard", 1)]⟩ := by decide +kernel
  have hend : ((run forgiving initial handedOver).at? 1).map (fun t =>
      (t.stack.due?, t.stack.halts forgiving (run forgiving initial handedOver).host,
        (Action.after (Stack.discard forgiving)
          (t.stack, (run forgiving initial handedOver).host)).1.toBool))
      = some (some (⟨kindName, ⟨2⟩⟩, 100), true, true) := by decide +kernel
  obtain ⟨t, hat, hlast⟩ := Option.map_eq_some_iff.1 hend
  obtain ⟨hdue, hrest⟩ := Prod.mk.inj hlast
  obtain ⟨hhalt, hcalm⟩ := Prod.mk.inj hrest
  obtain ⟨⟨es, hchronicle, hout, -, -, hinstalled⟩, hstacks, -⟩ :=
    reports_exact hp rfl handedOver hhalts rfl
  obtain ⟨_, out, _, -, -, -, -, -, h', hdiscard, -, hgone⟩ := hstacks 1 t hat hhalt
  rw [hdiscard] at hcalm
  refine ⟨howed, ⟨es, hchronicle, hout.trans howed, hinstalled.symm.trans hhook⟩, t, hat, hdue, h',
    ?_, hgone⟩
  cases out with
  | ok u => exact hdiscard
  | error f => nomatch hcalm

end World

end StackArena
