/-
  What a request leaves behind that comes to nothing.

  A request may fail at any point: the alignment may be none, the bytes of an array no word, the
  block that it needs too large or nowhere to be had.  By then a stack may have taken a serial and
  told that it grows.  That is all it leaves behind (`Missed`).

  1. **Alignments that are none** — a debug build turns them down at every leaf, and nothing is
     done.
  2. **Requests that miss** — what is left of the ways in which a request ends on a tree
     (`Answers.missed`): the checks on the way do not fire, because the books balance and a fresh
     block holds the request it was made for.
-/
import StackArena.Proofs.Checks
import StackArena.Proofs.Trees

namespace StackArena

open Stack

variable {p : Platform} {gap : Nat} {r : Request} {h h' : Host}

/-! ## Alignments that are none -/

/-- The heap rejects an alignment that is none. -/
theorem Heap.layout_of_invalid (hinvalid : Alignment.isValid r.alignment = false) :
    Heap.layout r = .error (.invalidAlignment r.alignment) := by
  have hnone : (Request.mk (max r.size 1) r.alignment).layout? = none := by
    rw [Request.layout?, hinvalid, Bool.false_and]
    rfl
  rw [Heap.layout, Request.layout, hnone]
  show (if Alignment.isValid r.alignment = true then _ else _) = _
  rw [hinvalid]
  rfl

/-- `TurnedDown fallible st done`: a request ends without an address and leaves the states as they
    were; one that may be declined is declined. -/
def TurnedDown {σ : Type} (fallible : Bool) (st : σ × Host)
    (done : Except Fault (Option Nat) × σ × Host) : Prop :=
  ∃ out, done = (out, st) ∧ (fallible = true → out = .ok none) ∧
    ∀ address, out ≠ .ok (some address)

namespace TurnedDown

variable {σ : Type} {fallible : Bool} {st : σ × Host}

theorem stopped (f : Fault) : TurnedDown false st (.error f, st) :=
  ⟨.error f, rfl, by rintro ⟨⟩, by rintro address ⟨⟩⟩

theorem declined : TurnedDown fallible st (.ok none, st) :=
  ⟨.ok none, rfl, fun _ => rfl, by rintro address ⟨⟩⟩

end TurnedDown

/-- A stack in a debug build turns down an alignment that is none. -/
theorem Stack.leaf_misaligned (hdebug : p.build = .debug)
    (hinvalid : Alignment.isValid r.alignment = false) (fallible : Bool) (s : Stack) (h : Host) :
    TurnedDown fallible (s, h)
      (Action.after ((⟨fallible, none⟩ : Way).ask (Stack.provider p) r) (s, h)) := by
  cases fallible with
  | false =>
    have hrun : Action.after (some <$> allocate p r) (s, h)
        = (.error (.badAlignment r.alignment), s, h) := by
      rw [Action.after_map, Action.after_of_error (allocate_misaligned s h hdebug hinvalid)]
      rfl
    exact hrun ▸ .stopped _
  | true =>
    have hrun : Action.after (Except.toOption <$> offer p r) (s, h) = (.ok none, s, h) :=
      offer_refused hinvalid
    exact hrun ▸ .declined

/-- The heap turns it down in any build. -/
theorem Heap.leaf_misaligned (hinvalid : Alignment.isValid r.alignment = false) (fallible : Bool)
    (u : Unit) (h : Host) :
    TurnedDown fallible (u, h)
      (Action.after ((⟨fallible, none⟩ : Way).ask (Heap.provider p) r) (u, h)) := by
  have hlayout := layout_of_invalid hinvalid
  cases fallible with
  | false =>
    have hallocate : allocate p r h = .error (.heapRejected (.invalidAlignment r.alignment)) h := by
      rw [allocate, hlayout]
      rfl
    have hrun : Action.after (some <$> Action.onHost (allocate p r)) (u, h)
        = (.error (.heapRejected (.invalidAlignment r.alignment)), u, h) := by
      rw [Action.after_map, Action.after_of_error (Action.onHost_of_error hallocate)]
      rfl
    exact hrun ▸ .stopped _
  | true =>
    have hallocate : tryAllocate p r h = .ok (.error (.invalidAlignment r.alignment)) h := by
      rw [tryAllocate, hlayout]
      rfl
    have hrun : Action.after (Except.toOption <$> Action.onHost (tryAllocate p r)) (u, h)
        = (.ok none, u, h) := by
      rw [Action.after_map, Action.after_of_ok (Action.onHost_of_ok hallocate)]
      rfl
    exact hrun ▸ .declined

namespace Tree

/-- **A debug build serves no alignment that is none**, and nothing is done about it. -/
theorem plain_misaligned (hdebug : p.build = .debug)
    (hinvalid : Alignment.isValid r.alignment = false) {t : Tree} (ht : t.Unbudgeted)
    (fallible : Bool) (s : t.State) (h : Host) :
    TurnedDown fallible (s, h)
      (Action.after ((⟨fallible, none⟩ : Way).ask (t.provider p) r) (s, h)) := by
  induction t generalizing fallible with
  | stack => exact Stack.leaf_misaligned hdebug hinvalid fallible s h
  | heap => exact Heap.leaf_misaligned hinvalid fallible s h
  | budget => exact ht.elim
  | fallback first second ihfirst ihsecond =>
    obtain ⟨s, u⟩ := s
    obtain ⟨out, hrun, hnone, -⟩ := ihfirst ht.1 true s
    obtain ⟨out', hrun', hnone', hnothing⟩ := ihsecond ht.2 fallible u
    have hwhole := Provider.ask_fallback (P := first.provider p) (Q := second.provider p)
      ⟨fallible, none⟩ r s u h
    dsimp only [Way.trial] at hwhole
    rw [hrun, hnone rfl] at hwhole
    dsimp only at hwhole
    rw [hrun'] at hwhole
    exact ⟨out', hwhole, hnone', hnothing⟩

end Tree

/-! ## Requests that miss -/

/-- `Missed p ss h ss' h'`: a request to the stacks `ss` came to nothing.  Either nothing was done,
    or one of the stacks has taken a serial and has told that it grows. -/
inductive Missed (p : Platform) : List Stack → Host → List Stack → Host → Prop
  | untouched {ss : List Stack} {h : Host} : Missed p ss h ss h
  | numbered {left right : List Stack} {s : Stack} {h : Host} {required n : Nat}
      (hserial : p.build.add s.nextSerial 1 = .ok n) :
      Missed p (left ++ s :: right) h (left ++ { s with nextSerial := n } :: right)
        (s.announced required h)

/-- Further stacks have not been touched. -/
theorem Missed.append {ss ss' : List Stack} (hmissed : Missed p ss h ss' h')
    (left right : List Stack) : Missed p (left ++ ss ++ right) h (left ++ ss' ++ right) h' := by
  cases hmissed with
  | untouched => exact .untouched
  | numbered hserial =>
    simp only [List.append_assoc, List.cons_append]
    simp only [← List.append_assoc left]
    exact .numbered hserial

namespace Stack

variable {s s' : Stack} {out : Except Fault (Option Nat)}

/-- `Fit p gap s h`: a stack that is settled and sturdy, and whose books balance where sums are
    checked. -/
structure Fit (p : Platform) (gap : Nat) (s : Stack) (h : Host) : Prop where
  settled : Settled gap s h
  sturdy : s.Sturdy
  balanced : p.build = .debug → s.Balanced

/-- A request to the current block that misses has done nothing. -/
theorem Bump.missed (hfit : Fit p gap s h) (hbump : Bump p r s h (out, s', h'))
    (hnothing : ∀ address, out ≠ .ok (some address)) : s' = s ∧ h' = h := by
  rcases out with f | (_ | address)
  · exact absurd hbump (Bump.ne_error_of_checked hfit.settled hfit.balanced)
  · cases hbump with
    | declined => exact ⟨rfl, rfl⟩
  · exact absurd rfl (hnothing address)

/-- A growth that fails has taken a serial at most. -/
theorem Grow.missed {required : Nat} {f : Fault} (hgrow : Grow p required s h (.error f, s', h'))
    (left right : List Stack) : Missed p (left ++ s :: right) h (left ++ s' :: right) h' := by
  cases hgrow with
  | serialsOut => exact .untouched
  | noBlock hserial => exact .numbered hserial

/-- **A request that misses** has taken a serial at most: a growth that succeeds serves it. -/
theorem Serves.missed (hp : p.Sound gap) (hfit : Fit p gap s h)
    (hvalid : Alignment.isValid r.alignment = true) (hserves : Serves p r s h (out, s', h'))
    (hnothing : ∀ address, out ≠ .ok (some address)) (left right : List Stack) :
    Missed p (left ++ s :: right) h (left ++ s' :: right) h' := by
  cases hserves with
  | misaligned => exact .untouched
  | bumped hbump =>
    obtain ⟨rfl, rfl⟩ := hbump.missed hfit hnothing
    exact .untouched
  | oversized => exact .untouched
  | starved _ _ hgrow => exact hgrow.missed left right
  | full _ hroom hgrow hfull =>
    obtain ⟨n, hholds⟩ := hgrow.holds hp hfit.sturdy hvalid hroom
    nomatch hfull.symm.trans hholds
  | grown _ hroom hgrow hbump =>
    have hset := (hgrow.moves hp hfit.settled).settled
    rcases out with f | (_ | address)
    · exact absurd hbump (Bump.ne_error_of_checked hset fun hdebug =>
        hgrow.balanced (hfit.balanced hdebug))
    · cases hbump with
      | declined hfull =>
        obtain ⟨n, hholds⟩ := hgrow.holds hp hfit.sturdy hvalid hroom
        nomatch hfull.symm.trans hholds
    · exact absurd rfl (hnothing address)

end Stack

/-- Wherever in a tree it was asked for. -/
theorem Answers.missed {heaped : Bool} {ss ss' : List Stack} {out : Except Fault (Option Nat)}
    (hp : p.Sound gap) (hfit : ∀ s ∈ ss, s.Fit p gap h)
    (hvalid : Alignment.isValid r.alignment = true)
    (ha : Answers p r heaped ss h (out, ss', h'))
    (hnothing : ∀ address, out ≠ .ok (some address)) : Missed p ss h ss' h' := by
  cases ha with
  | refused => exact .untouched
  | @stack left right s _ _ _ _ hserves =>
    have hown := hfit s (List.mem_append_right left List.mem_cons_self)
    exact hserves.missed hp hown hvalid hnothing left right
  | heap _ hends =>
    cases hends with
    | served => exact absurd rfl (hnothing _)
    | nothing => exact .untouched

namespace Tree

/-- **A request to a tree that comes to nothing** leaves everything as it was, but for a serial that
    a stack may have taken. -/
theorem ask_missed (hp : p.Sound gap) {t : Tree} (ht : t.Unbudgeted) {w : Way} {e : Request}
    (hvalid : p.build = .debug ∨ Alignment.isValid e.alignment = true) {s s' : t.State}
    (hfit : ∀ st ∈ t.stackLeaves s, st.Fit p gap h) {out : Except Fault (Option Nat)}
    (hrun : Action.after (w.ask (t.provider p) e) (s, h) = (out, s', h'))
    (hnothing : ∀ address, out ≠ .ok (some address)) :
    Missed p (t.stackLeaves s) h (t.stackLeaves s') h' := by
  cases hvalid' : Alignment.isValid e.alignment with
  | true =>
    obtain ⟨out', s'', h'', hrun', ha⟩ :=
      ask_answers hp ht w e s h fun st hst => (hfit st hst).settled
    cases hrun.symm.trans hrun'
    exact ha.missed hp hfit (w.alignment_request e ▸ hvalid') hnothing
  | false =>
    have hdebug := hvalid.resolve_right (by rw [hvalid']; nofun)
    cases hw : w.request? e with
    | some r =>
      have hsame : r.alignment = e.alignment := by
        have hrequest := w.alignment_request e
        rwa [hw] at hrequest
      rw [ask_eq p t hw] at hrun
      obtain ⟨out', hrun', -⟩ := plain_misaligned hdebug (hsame ▸ hvalid') ht w.fallible s h
      cases hrun.symm.trans hrun'
      exact .untouched
    | none =>
      obtain ⟨out', hrun', -⟩ := ask_overflowing p t hw s h
      cases hrun.symm.trans hrun'
      exact .untouched

end Tree

end StackArena
