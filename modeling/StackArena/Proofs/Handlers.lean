/-
  What leak handlers do about a report.

  The code carries a conduct out with a bound on how deep reports may nest.  Here the same is said
  without one: `Carried` relates a conduct, and the hook when it starts, to what happens on the way,
  to how it ends and to the hook then.  Only handlers that come to an end are related to anything.

    Episode     a note is written, a handler is installed or called, or something is kept or consulted
    level       how many reports deep the call is: 0 is the report of an allocator itself

  1. **Truthful** — an account of episodes in which every call goes to the handler installed last,
     every installation is told that one, and what is consulted is what was kept last.
  2. **Carried** — every account of a conduct is truthful, and its calls are of deeper levels.
  3. **The hook** — a report that is not endless goes as `Carried` says (`reportLeak_reported`): it
     ends well or as a handler raised, whatever is written and installed on the way.
-/
import StackArena.Proofs.Hosting

namespace StackArena

/-! ## Episodes -/

/-- `Episode`: one thing that happens in a report. -/
inductive Episode where
  | wrote (note : Note)
  | installed (previous next : Handler)
  | consulted (memo : Memo)
  | kept (memo : Memo)
  | called (level : Nat) (receiver : Handler) (who : AllocatorInfo) (amount : Nat)

namespace Episode

/-- What comes into the journal. -/
def notes : Episode → List Note
  | wrote n => [n]
  | installed .. | consulted _ | kept _ => []
  | called _ receiver who amount => [.leak receiver who amount]

/-- The hook after an episode. -/
def next (k : Hook) : Episode → Hook
  | installed _ next => { k with handler := next }
  | kept memo => { k with memo := memo }
  | _ => k

/-- `e.Truthful k`: a call goes to the handler of the hook `k`, an installation is told of it, and
    what is consulted is what `k` keeps. -/
def Truthful (k : Hook) : Episode → Prop
  | wrote _ | kept _ => True
  | installed previous _ => previous = k.handler
  | consulted memo => memo = k.memo
  | called _ receiver _ _ => receiver = k.handler

/-- The report of an allocator itself, if the episode is one. -/
def outer? : Episode → Option (AllocatorInfo × Nat)
  | called 0 _ who amount => some (who, amount)
  | _ => none

end Episode

/-- All that comes into the journal. -/
def episodeNotes (es : List Episode) : List Note := es.flatMap Episode.notes

/-- The hook after all episodes. -/
def lastHook (k : Hook) (es : List Episode) : Hook := es.foldl Episode.next k

/-- The reports of allocators themselves. -/
def outerReports (es : List Episode) : List (AllocatorInfo × Nat) := es.filterMap Episode.outer?

/-- `Truthful k es`: along an account that starts with the hook `k`, every call goes to the handler
    installed at that moment, every installation is told that handler, and what is consulted is what
    is kept at that moment. -/
def Truthful (k : Hook) : List Episode → Prop
  | [] => True
  | e :: es => e.Truthful k ∧ Truthful (e.next k) es

theorem episodeNotes_append (es fs : List Episode) :
    episodeNotes (es ++ fs) = episodeNotes es ++ episodeNotes fs := List.flatMap_append

theorem lastHook_append (k : Hook) (es fs : List Episode) :
    lastHook k (es ++ fs) = lastHook (lastHook k es) fs := List.foldl_append

theorem outerReports_append (es fs : List Episode) :
    outerReports (es ++ fs) = outerReports es ++ outerReports fs := List.filterMap_append

/-- Two accounts, the second from where the first one ends, are one. -/
theorem Truthful.append {k : Hook} {es fs : List Episode} (hes : Truthful k es)
    (hfs : Truthful (lastHook k es) fs) : Truthful k (es ++ fs) := by
  induction es generalizing k with
  | nil => exact hfs
  | cons e es ih => exact ⟨hes.1, ih hes.2 hfs⟩

/-! ## What comes of a conduct -/

/-- `Carried p level c k es out k'`: a conduct `c` whose own reports are of the given level, carried
    out from where the hook is `k`.  A report goes to the handler installed by then, and a handler
    that raises cuts short all conducts around it; what it has kept stays. -/
inductive Carried (p : Platform) :
    Nat → Conduct → Hook → List Episode → Except Fault Unit → Hook → Prop
  | done {level : Nat} {k : Hook} : Carried p level .done k [] (.ok ()) k
  | write {level : Nat} {n : Note} {rest : Conduct} {k k' : Hook} {es : List Episode}
      {out : Except Fault Unit} (hrest : Carried p level rest k es out k') :
      Carried p level (.write n rest) k (.wrote n :: es) out k'
  | install {level : Nat} {next : Handler} {rest : Handler → Conduct} {k k' : Hook}
      {es : List Episode} {out : Except Fault Unit}
      (hrest : Carried p level (rest k.handler) { k with handler := next } es out k') :
      Carried p level (.install next rest) k (.installed k.handler next :: es) out k'
  | report {level : Nat} {who : AllocatorInfo} {amount : Nat} {rest : Conduct}
      {k k₁ k' : Hook} {es es' : List Episode} {out : Except Fault Unit}
      (hinner : Carried p (level + 1) (p.conductOf k.handler who amount) k es (.ok ()) k₁)
      (hrest : Carried p level rest k₁ es' out k') :
      Carried p level (.report who amount rest) k
        (.called level k.handler who amount :: (es ++ es')) out k'
  | stopped {level : Nat} {who : AllocatorInfo} {amount : Nat} {rest : Conduct}
      {k k₁ : Hook} {es : List Episode} {f : Fault}
      (hinner : Carried p (level + 1) (p.conductOf k.handler who amount) k es (.error f) k₁) :
      Carried p level (.report who amount rest) k (.called level k.handler who amount :: es)
        (.error f) k₁
  | consult {level : Nat} {rest : Memo → Conduct} {k k' : Hook} {es : List Episode}
      {out : Except Fault Unit} (hrest : Carried p level (rest k.memo) k es out k') :
      Carried p level (.consult rest) k (.consulted k.memo :: es) out k'
  | keep {level : Nat} {memo : Memo} {rest : Conduct} {k k' : Hook} {es : List Episode}
      {out : Except Fault Unit} (hrest : Carried p level rest { k with memo := memo } es out k') :
      Carried p level (.keep memo rest) k (.kept memo :: es) out k'
  | refuse {level : Nat} {text : String} {k : Hook} :
      Carried p level (.refuse text) k [] (.error (.raised text)) k

/-- `Reported p k due es out k'`: what comes of a report that is due, if one is, where the hook is
    `k`: its handler is called once, and then carries its conduct out. -/
inductive Reported (p : Platform) (k : Hook) :
    Option (AllocatorInfo × Nat) → List Episode → Except Fault Unit → Hook → Prop
  | nothing : Reported p k none [] (.ok ()) k
  | called {who : AllocatorInfo} {amount : Nat} {es : List Episode} {out : Except Fault Unit}
      {k' : Hook} (hcarried : Carried p 1 (p.conductOf k.handler who amount) k es out k') :
      Reported p k (some (who, amount)) (.called 0 k.handler who amount :: es) out k'

section

variable {p : Platform} {level : Nat} {c : Conduct} {k k' : Hook} {es : List Episode}
  {out : Except Fault Unit}

/-- **An account is truthful**, and tells what the hook is at the end. -/
theorem Carried.truthful (h : Carried p level c k es out k') :
    Truthful k es ∧ lastHook k es = k' := by
  induction h with
  | done => exact ⟨trivial, rfl⟩
  | write hrest ih => exact ⟨⟨trivial, ih.1⟩, ih.2⟩
  | install hrest ih => exact ⟨⟨rfl, ih.1⟩, ih.2⟩
  | consult hrest ih => exact ⟨⟨rfl, ih.1⟩, ih.2⟩
  | keep hrest ih => exact ⟨⟨trivial, ih.1⟩, ih.2⟩
  | report hinner hrest ihinner ihrest =>
    obtain ⟨htruthful, hlast⟩ := ihinner
    subst hlast
    -- A call installs nothing by itself.
    exact ⟨⟨rfl, htruthful.append ihrest.1⟩, (lastHook_append _ _ _).trans ihrest.2⟩
  | stopped hinner ih => exact ⟨⟨rfl, ih.1⟩, ih.2⟩
  | refuse => exact ⟨trivial, rfl⟩

/-- What a handler reports is of its level or deeper, so that none of it is a report of an allocator
    itself. -/
theorem Carried.outerReports_nil (h : Carried p level c k es out k') (hlevel : level ≠ 0) :
    outerReports es = [] := by
  have hinside : ∀ {level : Nat} {receiver : Handler} {who : AllocatorInfo} {amount : Nat}
      {es : List Episode}, level ≠ 0 → outerReports es = [] →
      outerReports (.called level receiver who amount :: es) = [] := by
    intro level receiver who amount es hlevel hnil
    obtain ⟨n, rfl⟩ := Nat.exists_eq_succ_of_ne_zero hlevel
    exact hnil
  induction h with
  | done => rfl
  | write hrest ih => exact ih hlevel
  | install hrest ih => exact ih hlevel
  | consult hrest ih => exact ih hlevel
  | keep hrest ih => exact ih hlevel
  | report hinner hrest ihinner ihrest =>
    refine hinside hlevel ?_
    rw [outerReports_append, ihinner (Nat.succ_ne_zero _), ihrest hlevel, List.append_nil]
  | stopped hinner ih => exact hinside hlevel (ih (Nat.succ_ne_zero _))
  | refuse => rfl

/-- Whatever stops a conduct was raised by a handler. -/
theorem Carried.raised {f : Fault} (h : Carried p level c k es (.error f) k') :
    ∃ text, f = .raised text := by
  generalize hout : (Except.error f : Except Fault Unit) = out at h
  induction h with
  | done => nomatch hout
  | write hrest ih => exact ih hout
  | install hrest ih => exact ih hout
  | consult hrest ih => exact ih hout
  | keep hrest ih => exact ih hout
  | report hinner hrest ihinner ihrest => exact ihrest hout
  | stopped hinner ih => exact ih hout
  | refuse =>
    cases hout
    exact ⟨_, rfl⟩

variable {due : Option (AllocatorInfo × Nat)}

theorem Reported.truthful (h : Reported p k due es out k') :
    Truthful k es ∧ lastHook k es = k' := by
  cases h with
  | nothing => exact ⟨trivial, rfl⟩
  | called hcarried => exact ⟨⟨rfl, hcarried.truthful.1⟩, hcarried.truthful.2⟩

/-- **A report that is due is made once**, and none that is not. -/
theorem Reported.once (h : Reported p k due es out k') : outerReports es = due.toList := by
  cases h with
  | nothing => rfl
  | @called who amount es _ _ hcarried =>
    show (who, amount) :: outerReports es = _
    rw [hcarried.outerReports_nil Nat.one_ne_zero]
    rfl

theorem Reported.raised {f : Fault} (h : Reported p k due es (.error f) k') :
    ∃ text, f = .raised text := by
  cases h with
  | called hcarried => exact hcarried.raised

end

/-! ## The hook -/

namespace HostAction

variable {α β : Type}

/-- What a host action ends with, and the host at its end. -/
def ending (a : HostAction α) (h : Host) : Except Fault α × Host :=
  match a h with
  | .ok x h => (.ok x, h)
  | .error f h => (.error f, h)

/-- A first step that ends with a value is followed by the rest. -/
theorem ending_bind_of_ok {a : HostAction α} {f : α → HostAction β} {h h' : Host} {x : α}
    (ha : ending a h = (.ok x, h')) : ending (a >>= f) h = ending (f x) h' := by
  unfold ending at ha
  split at ha
  · rename_i hr
    cases ha
    rw [ending, Action.bind_of_ok hr]
    rfl
  · nomatch ha

/-- A first step that ends with a fault is the last. -/
theorem ending_bind_of_error {a : HostAction α} {f : α → HostAction β} {h h' : Host} {e : Fault}
    (ha : ending a h = (.error e, h')) : ending (a >>= f) h = (.error e, h') := by
  unfold ending at ha
  split at ha
  · nomatch ha
  · rename_i hr
    cases ha
    rw [ending, Action.bind_of_error hr]

theorem of_ending_error {a : HostAction α} {h h' : Host} {f : Fault}
    (ha : ending a h = (.error f, h')) : a h = .error f h' := by
  unfold ending at ha
  split at ha
  · nomatch ha
  · rename_i hr
    cases ha
    exact hr

end HostAction

namespace Host

open HostAction

/-- The host after notes came into the journal, with the hook as it is then. -/
def told (h : Host) (notes : List Note) (k : Hook) : Host :=
  { h with journal := h.journal ++ notes, hook := k }

theorem told_nil (h : Host) (k : Hook) : h.told [] k = { h with hook := k } := by
  rw [told, List.append_nil]

theorem told_told (h : Host) (notes more : List Note) (k k' : Hook) :
    (h.told notes k).told more k' = h.told (notes ++ more) k' := by
  simp only [told, List.append_assoc]

/-- `Accounted p level c h done`: an end that the conduct `c` accounts for, from the host `h` on; an
    endless report is accounted for by nothing. -/
def Accounted (p : Platform) (level : Nat) (c : Conduct) (h : Host)
    (done : Except Fault Unit × Host) : Prop :=
  done.1 = .error .endlessReport ∨ ∃ es out k', Carried p level c h.hook es out k' ∧
    done = (out, h.told (episodeNotes es) k')

/-- `Answered p level who amount h done`: the same of a report of the given level, which is a call
    of the handler that is installed, and its conduct. -/
def Answered (p : Platform) (level : Nat) (who : AllocatorInfo) (amount : Nat) (h : Host)
    (done : Except Fault Unit × Host) : Prop :=
  done.1 = .error .endlessReport ∨ ∃ es out k',
    Carried p (level + 1) (p.conductOf h.handler who amount) h.hook es out k' ∧
      done = (out, h.told (episodeNotes (.called level h.handler who amount :: es)) k')

/-- A conduct that ends at once has written and installed nothing. -/
theorem accounted_at_once {p : Platform} {level : Nat} {c : Conduct} {h : Host}
    {out : Except Fault Unit} (hcarried : Carried p level c h.hook [] out h.hook) :
    Accounted p level c h (out, h) := by
  refine Or.inr ⟨[], out, h.hook, hcarried, ?_⟩
  rw [episodeNotes, List.flatMap_nil, told_nil]

/-- What has happened before the rest of a conduct comes first in the account of the whole. -/
theorem Accounted.prepend {p : Platform} {level : Nat} {c rest : Conduct} {h : Host} {k : Hook}
    {es : List Episode} {done : Except Fault Unit × Host}
    (hrest : Accounted p level rest (h.told (episodeNotes es) k) done)
    (hrule : ∀ {fs out k'}, Carried p level rest k fs out k' →
      Carried p level c h.hook (es ++ fs) out k') : Accounted p level c h done := by
  rcases hrest with hendless | ⟨fs, out, k', hcarried, hdone⟩
  · exact Or.inl hendless
  · refine Or.inr ⟨es ++ fs, out, k', hrule hcarried, ?_⟩
    rw [hdone, told_told, episodeNotes_append]

/-- A conduct is carried out as it says, if the reports in it are.  The induction is on the conduct;
    each move is one rule of `Carried`. -/
theorem carryOut_accounted {p : Platform} {level : Nat}
    {report : AllocatorInfo → Nat → HostAction Unit}
    (hreport : ∀ who amount h, Answered p level who amount h (ending (report who amount) h))
    (c : Conduct) (h : Host) : Accounted p level c h (ending (carryOut report c) h) := by
  induction c generalizing h with
  | done => exact accounted_at_once .done
  | write n rest ih =>
    have hfirst : ending (note n) h = (.ok (), h.told (episodeNotes [.wrote n]) h.hook) := rfl
    rw [carryOut, ending_bind_of_ok hfirst]
    exact (ih _).prepend .write
  | install next rest ih =>
    have hfirst : ending (install next) h = (.ok h.handler,
        h.told (episodeNotes [.installed h.handler next]) { h.hook with handler := next }) :=
      congrArg (Prod.mk _) (h.told_nil _).symm
    rw [carryOut, ending_bind_of_ok hfirst]
    exact (ih h.handler _).prepend .install
  | report who amount rest ih =>
    have hanswered := hreport who amount h
    generalize hfirst : ending (report who amount) h = first at hanswered
    obtain ⟨result, h₁⟩ := first
    rw [carryOut]
    rcases hanswered with hendless | ⟨es, out, k₁, hinner, hends⟩
    · cases hendless
      exact Or.inl (congrArg Prod.fst (ending_bind_of_error hfirst))
    · cases hends
      cases result with
      | error f =>
        rw [ending_bind_of_error hfirst]
        exact Or.inr ⟨_, _, _, .stopped hinner, rfl⟩
      | ok u =>
        rw [ending_bind_of_ok hfirst]
        exact (ih _).prepend (.report hinner)
  | consult rest ih =>
    have hfirst : ending (get : HostAction Host) h
        = (.ok h, h.told (episodeNotes [.consulted h.hook.memo]) h.hook) :=
      congrArg (Prod.mk _) (h.told_nil _).symm
    rw [carryOut, ending_bind_of_ok hfirst]
    exact (ih h.hook.memo _).prepend .consult
  | keep memo rest ih =>
    have hfirst : ending (keep memo) h
        = (.ok (), h.told (episodeNotes [.kept memo]) { h.hook with memo := memo }) :=
      congrArg (Prod.mk _) (h.told_nil _).symm
    rw [carryOut, ending_bind_of_ok hfirst]
    exact (ih _).prepend .keep
  | refuse text => exact accounted_at_once .refuse

/-- A handler is called, notes the call and carries its conduct out, one level deeper.  The
    induction is on how deep reports may nest. -/
theorem call_answered (p : Platform) (depth level : Nat) (who : AllocatorInfo) (amount : Nat)
    (h : Host) : Answered p level who amount h (ending (call p depth h.handler who amount) h) := by
  induction depth generalizing level who amount h with
  | zero => exact Or.inl rfl
  | succ depth ih =>
    have hfirst : ending (note (.leak h.handler who amount)) h
        = (.ok (), h.told [.leak h.handler who amount] h.hook) := rfl
    rw [call, ending_bind_of_ok hfirst]
    have hreport : ∀ who amount h, Answered p (level + 1) who amount h
        (ending (do
          let h ← get
          call p depth h.handler who amount) h) := fun who amount h => ih (level + 1) who amount h
    have hinner := carryOut_accounted hreport (p.conductOf h.handler who amount)
      (h.told [.leak h.handler who amount] h.hook)
    rcases hinner with hendless | ⟨es, out, k', hcarried, hdone⟩
    · exact Or.inl hendless
    · refine Or.inr ⟨es, out, k', hcarried, ?_⟩
      rw [hdone, told_told]
      rfl

/-- Whether a report comes to an end, on a host. -/
def halts (p : Platform) (who : AllocatorInfo) (amount : Nat) (h : Host) : Bool :=
  match reportLeak p who amount h with
  | .error .endlessReport _ => false
  | _ => true

/-- **A report that comes to an end** goes as the conducts of the handlers say. -/
theorem reportLeak_reported {p : Platform} {who : AllocatorInfo} {amount : Nat} {h : Host}
    (hhalts : h.halts p who amount = true) :
    ∃ es out k', Reported p h.hook (some (who, amount)) es out k' ∧
      ending (reportLeak p who amount) h = (out, h.told (episodeNotes es) k') := by
  have hanswered : Answered p 0 who amount h (ending (reportLeak p who amount) h) :=
    call_answered p p.reportDepth 0 who amount h
  rcases hanswered with hendless | ⟨es, out, k', hcarried, hdone⟩
  · generalize hrun : ending (reportLeak p who amount) h = done at hendless
    obtain ⟨result, h'⟩ := done
    cases hendless
    rw [halts, of_ending_error hrun] at hhalts
    nomatch hhalts
  · exact ⟨_, out, k', .called hcarried, hdone⟩

end Host

end StackArena
