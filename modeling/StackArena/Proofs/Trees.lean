/-
  Requests to trees of providers, and memory given back to them.

  1. **Ways** — the four forms in which a provider is asked, and those in which it is given back to
     (`Way`): for certain or on trial, a plain request or an array.
  2. **Arrays** — every node of a tree passes an array on as an array; it still comes to the plain
     request for all of its bytes (`PlainArrays`), and so asking and giving back come to their plain
     forms (`ask_eq`, `giveBack_eq`).
  3. **Asking** — what a request comes to in a tree of stacks and heaps (`Answers`): one leaf is
     asked, as it would be alone, and the others are left as they were.  A tree that
     declines has not changed at all, and that carries the induction over its shape.
  4. **Giving back** — the first stack that owns the address takes it and does nothing; what none of
     them owns goes to the heap (`giveBack_covered`, `giveBack_uncovered`).
-/
import StackArena.Proofs.Occupancy
import StackArena.Tree

namespace StackArena

/-! ## Ways -/

/-- `Way`: a form in which a provider is asked or given back to.  In the array forms the request is
    for one element. -/
structure Way where
  /-- Whether the provider may decline. -/
  fallible : Bool
  /-- The number of elements of an array. -/
  count : Option Nat
deriving DecidableEq, Repr

namespace Way

variable {σ : Type}

/-- All of the bytes that a way is about; `none` if those of an array are no word. -/
def request? (r : Request) (w : Way) : Option Request :=
  match w.count with
  | none => some r
  | some count => (Word.mul? count r.size).map fun total => ⟨total, r.alignment⟩

/-- The alignment is that of an element. -/
theorem alignment_request (w : Way) (e : Request) :
    ((w.request? e).getD e).alignment = e.alignment := by
  obtain ⟨fallible, _ | count⟩ := w
  · rfl
  · show (((Word.mul? count e.size).map fun total => (⟨total, e.alignment⟩ : Request)).getD
      e).alignment = e.alignment
    cases Word.mul? count e.size <;> rfl

/-- The way in which a provider may decline what is asked for. -/
def trial (w : Way) : Way := { w with fallible := true }

/-- A request; the result is the address that is served. -/
def ask (P : Provider σ) (r : Request) : Way → Action σ (Option Nat)
  | ⟨false, none⟩ => some <$> P.allocate r
  | ⟨true, none⟩ => Except.toOption <$> P.tryAllocate r
  | ⟨false, some count⟩ => some <$> P.allocateArray count r
  | ⟨true, some count⟩ => Except.toOption <$> P.tryAllocateArray count r

/-- Memory is given back; the result is whether it was taken. -/
def giveBack (P : Provider σ) (address : Nat) (r : Request) : Way → Action σ Bool
  | ⟨false, none⟩ => (fun _ => true) <$> P.deallocate address r
  | ⟨true, none⟩ => P.tryDeallocate address r
  | ⟨false, some count⟩ => (fun _ => true) <$> P.deallocateArray address count r
  | ⟨true, some count⟩ => P.tryDeallocateArray address count r

end Way

namespace Tree

/-- The stacks at the leaves, from left to right. -/
def stackLeaves : (t : Tree) → t.State → List Stack
  | stack, s => [s]
  | heap, _ => []
  | budget, _ => []
  | fallback first second, (s, u) => first.stackLeaves s ++ second.stackLeaves u

end Tree

/-! ## Arrays -/

namespace Provider

variable {σ τ : Type} {P : Provider σ} {Q : Provider τ} {count total : Nat} {e : Request}

/-- `P.PlainArrays count e total`: an array of `count` elements comes to a plain request for `total`
    bytes, in every form. -/
structure PlainArrays (P : Provider σ) (count : Nat) (e : Request) (total : Nat) : Prop where
  allocate : P.allocateArray count e = P.allocate ⟨total, e.alignment⟩
  tryAllocate : P.tryAllocateArray count e = P.tryAllocate ⟨total, e.alignment⟩
  deallocate : ∀ address,
    P.deallocateArray address count e = P.deallocate address ⟨total, e.alignment⟩
  tryDeallocate : ∀ address,
    P.tryDeallocateArray address count e = P.tryDeallocate address ⟨total, e.alignment⟩

/-- `P.RefusesArray count e`: an array of `count` elements is declined as too large, and nothing is
    done. -/
structure RefusesArray (P : Provider σ) (count : Nat) (e : Request) : Prop where
  allocate : ∀ s h, P.allocateArray count e (s, h)
    = .error (.declined (.sizeOverflow count e.size)) (s, h)
  tryAllocate : ∀ s h, P.tryAllocateArray count e (s, h)
    = .ok (.error (.sizeOverflow count e.size)) (s, h)

section

variable (build : Build) (allocate : Request → Action σ Nat)
  (tryAllocate : Request → Action σ (Except AllocError Nat))
  (deallocate : Nat → Request → Action σ Unit) (tryDeallocate : Nat → Request → Action σ Bool)
  (limits : σ → Limits)

/-- A provider that says nothing of arrays passes them on as plain requests. -/
theorem plainArrays_default (htotal : Word.mul? count e.size = some total) :
    PlainArrays { build, allocate, tryAllocate, deallocate, tryDeallocate, limits }
      count e total := by
  have hsize : arraySize count e.size = .ok total := by rw [arraySize, htotal]
  have hmul : build.mul count e.size = .ok total := by
    unfold Word.mul? at htotal
    split at htotal
    · rename_i hlt
      rw [build.mul_of_lt hlt, Option.some.inj htotal]
    · cases htotal
  constructor
  · simp only [hsize]
  · simp only [hsize]
  · intro address
    simp only [hmul]
    rfl
  · intro address
    simp only [htotal]

theorem refusesArray_default (hnone : Word.mul? count e.size = none) :
    RefusesArray { build, allocate, tryAllocate, deallocate, tryDeallocate, limits } count e := by
  have hsize : arraySize count e.size = .error (.sizeOverflow count e.size) := by
    rw [arraySize, hnone]
  constructor
  · intro s h
    simp only [hsize]
    rfl
  · intro s h
    simp only [hsize]
    rfl

end

/-- Of two providers, each is asked for the array; together they come to the plain request. -/
theorem PlainArrays.fallback (htotal : Word.mul? count e.size = some total)
    (hfirst : P.PlainArrays count e total) (hsecond : Q.PlainArrays count e total) :
    (P.fallback Q).PlainArrays count e total := by
  constructor
  · simp only [Provider.fallback, hfirst.tryAllocate, hsecond.allocate]
  · simp only [Provider.fallback, hfirst.tryAllocate, hsecond.tryAllocate]
  · intro address
    simp only [Provider.fallback, hfirst.tryDeallocate, hsecond.deallocate]
  · intro address
    simp only [Provider.fallback, htotal]

theorem RefusesArray.fallback (hfirst : P.RefusesArray count e) (hsecond : Q.RefusesArray count e) :
    (P.fallback Q).RefusesArray count e := by
  constructor
  · rintro ⟨s, u⟩ h
    exact (Action.bind_of_ok (Action.onFirst_of_ok (hfirst.tryAllocate s h))).trans
      (Action.onSecond_of_error (hsecond.allocate u h))
  · rintro ⟨s, u⟩ h
    exact (Action.bind_of_ok (Action.onFirst_of_ok (hfirst.tryAllocate s h))).trans
      (Action.onSecond_of_ok (hsecond.tryAllocate u h))

end Provider

namespace Tree

variable {p : Platform} {r e : Request} {w : Way} {count total : Nat}

theorem plainArrays (p : Platform) (t : Tree) (htotal : Word.mul? count e.size = some total) :
    (t.provider p).PlainArrays count e total := by
  induction t with
  | stack => exact Provider.plainArrays_default _ _ _ _ _ _ htotal
  | heap => exact Provider.plainArrays_default _ _ _ _ _ _ htotal
  | budget => exact Provider.plainArrays_default _ _ _ _ _ _ htotal
  | fallback first second ihfirst ihsecond => exact ihfirst.fallback htotal ihsecond

/-- An array that is too large is declined by every leaf. -/
theorem refusesArray (p : Platform) (t : Tree) (hnone : Word.mul? count e.size = none) :
    (t.provider p).RefusesArray count e := by
  induction t with
  | stack => exact Provider.refusesArray_default _ _ _ _ _ _ hnone
  | heap => exact Provider.refusesArray_default _ _ _ _ _ _ hnone
  | budget => exact Provider.refusesArray_default _ _ _ _ _ _ hnone
  | fallback first second ihfirst ihsecond => exact ihfirst.fallback ihsecond

/-- **A request comes to a plain one** for all of the bytes. -/
theorem ask_eq (p : Platform) (t : Tree) (hw : w.request? e = some r) :
    w.ask (t.provider p) e = (⟨w.fallible, none⟩ : Way).ask (t.provider p) r := by
  obtain ⟨fallible, _ | count⟩ := w
  · cases hw
    rfl
  · obtain ⟨total, htotal, rfl⟩ := Option.map_eq_some_iff.1 hw
    have harray := t.plainArrays p htotal
    cases fallible with
    | false => exact congrArg (some <$> ·) harray.allocate
    | true => exact congrArg (Except.toOption <$> ·) harray.tryAllocate

/-- An array whose bytes are no word comes to nothing. -/
theorem ask_overflowing (p : Platform) (t : Tree) (hw : w.request? e = none) (s : t.State)
    (h : Host) : ∃ out, Action.after (w.ask (t.provider p) e) (s, h) = (out, s, h) ∧
      ∀ address, out ≠ .ok (some address) := by
  obtain ⟨fallible, _ | count⟩ := w
  · cases hw
  · have harray := t.refusesArray p (Option.map_eq_none_iff.1 hw)
    cases fallible with
    | false =>
      refine ⟨.error (.declined (.sizeOverflow count e.size)), ?_, nofun⟩
      rw [Way.ask, Action.after_map, Action.after_of_error (harray.allocate s h)]
      rfl
    | true =>
      refine ⟨.ok none, ?_, nofun⟩
      rw [Way.ask, Action.after_map, Action.after_of_ok (harray.tryAllocate s h)]
      rfl

/-- Giving back, too. -/
theorem giveBack_eq (p : Platform) (t : Tree) (address : Nat) (hw : w.request? e = some r) :
    w.giveBack (t.provider p) address e
      = (⟨w.fallible, none⟩ : Way).giveBack (t.provider p) address r := by
  obtain ⟨fallible, _ | count⟩ := w
  · cases hw
    rfl
  · obtain ⟨total, htotal, rfl⟩ := Option.map_eq_some_iff.1 hw
    have harray := t.plainArrays p htotal
    cases fallible with
    | false => exact congrArg ((fun _ => true) <$> ·) (harray.deallocate address)
    | true => exact harray.tryDeallocate address

end Tree

/-! ## The heap -/

/-- The host after the heap has served a chunk. -/
def Host.withChunk (h : Host) (base : Nat) (l : Layout) : Host :=
  { h with memory := h.memory.addChunk base l, journal := h.journal ++ [.served base l] }

namespace Heap

/-- What the heap serves has at least one byte. -/
theorem layout_size {r : Request} {l : Layout} (hlayout : layout r = .ok l) : 0 < l.size := by
  rw [layout, Request.layout, Request.layout?] at hlayout
  split at hlayout
  · rename_i hsome
    split at hsome
    · cases hsome
      cases hlayout
      show 0 < max r.size 1
      omega
    · cases hsome
  · split at hlayout
    · cases hlayout
    · cases hlayout

theorem serve_cases (p : Platform) (l : Layout) (h : Host) :
    (∃ base, p.placeChunk h.memory.outline l = some base ∧
      serve p l h = .ok (some base) (h.withChunk base l)) ∨ serve p l h = .ok none h := by
  have hget : (get : HostAction Host) h = .ok h h := rfl
  cases hplace : p.placeChunk h.memory.outline l with
  | none =>
    refine Or.inr ?_
    rw [serve, Action.bind_of_ok hget, hplace]
    rfl
  | some base =>
    refine Or.inl ⟨base, rfl, ?_⟩
    rw [serve, Action.bind_of_ok hget, hplace]
    rfl

/-- `Ends p r h end`: a request to the heap is served, or comes to nothing. -/
inductive Ends (p : Platform) (r : Request) (h : Host) : Except Fault (Option Nat) → Host → Prop
  | served {base : Nat} {l : Layout} (hlayout : layout r = .ok l)
      (hplace : p.placeChunk h.memory.outline l = some base) :
      Ends p r h (.ok (some base)) (h.withChunk base l)
  | nothing {out : Except Fault (Option Nat)} (hnothing : ∀ address, out ≠ .ok (some address)) :
      Ends p r h out h

/-- **A request to the heap** ends in one of the ways of `Ends`, and a heap that declines has not
    changed anything. -/
theorem ask_ends (p : Platform) (r : Request) (h : Host) (fallible : Bool) :
    ∃ out h', Action.after ((⟨fallible, none⟩ : Way).ask (provider p) r) ((), h) = (out, (), h') ∧
      Ends p r h out h' ∧ (out = .ok none → h' = h) := by
  cases fallible with
  | false =>
    show ∃ out h', Action.after (some <$> Action.onHost (allocate p r)) ((), h) = (out, (), h') ∧ _
    rw [Action.after_map]
    cases hlayout : layout r with
    | error cause =>
      have hrun : allocate p r h = .error (.heapRejected cause) h := by
        rw [allocate, hlayout]
        rfl
      rw [Action.after_of_error (Action.onHost_of_error hrun)]
      exact ⟨_, h, rfl, .nothing nofun, nofun⟩
    | ok l =>
      rcases serve_cases p l h with ⟨base, hplace, hserve⟩ | hserve
      · have hrun : allocate p r h = .ok base (h.withChunk base l) := by
          rw [allocate, hlayout]
          exact Action.bind_of_ok hserve
        rw [Action.after_of_ok (Action.onHost_of_ok hrun)]
        exact ⟨_, _, rfl, .served hlayout hplace, nofun⟩
      · have hrun : allocate p r h = .error (.heapExhausted l.size l.alignment) h := by
          rw [allocate, hlayout]
          exact Action.bind_of_ok hserve
        rw [Action.after_of_error (Action.onHost_of_error hrun)]
        exact ⟨_, h, rfl, .nothing nofun, nofun⟩
  | true =>
    show ∃ out h', Action.after (Except.toOption <$> Action.onHost (tryAllocate p r)) ((), h)
      = (out, (), h') ∧ _
    rw [Action.after_map]
    cases hlayout : layout r with
    | error cause =>
      have hrun : tryAllocate p r h = .ok (.error cause) h := by
        rw [tryAllocate, hlayout]
        rfl
      rw [Action.after_of_ok (Action.onHost_of_ok hrun)]
      exact ⟨_, h, rfl, .nothing nofun, fun _ => rfl⟩
    | ok l =>
      rcases serve_cases p l h with ⟨base, hplace, hserve⟩ | hserve
      · have hrun : tryAllocate p r h = .ok (.ok base) (h.withChunk base l) := by
          rw [tryAllocate, hlayout]
          exact Action.bind_of_ok hserve
        rw [Action.after_of_ok (Action.onHost_of_ok hrun)]
        exact ⟨_, _, rfl, .served hlayout hplace, nofun⟩
      · have hrun : tryAllocate p r h = .ok (.error (.outOfMemory r.size r.alignment)) h := by
          rw [tryAllocate, hlayout]
          exact Action.bind_of_ok hserve
        rw [Action.after_of_ok (Action.onHost_of_ok hrun)]
        exact ⟨_, h, rfl, .nothing nofun, fun _ => rfl⟩

end Heap

/-! ## Asking a tree -/

namespace Provider

variable {σ τ : Type} {P : Provider σ} {Q : Provider τ}

/-- One action after another has declined: `f` is how the first one's address is handed on, and `g`
    reads the outcome of the whole. -/
theorem after_orElse {α : Type} (A : Action σ (Except AllocError Nat)) (B : Action τ α)
    {f : Nat → α} {g : α → Option Nat} (hg : ∀ address, g (f address) = some address) (s : σ)
    (u : τ) (h : Host) :
    Action.after (g <$> (Action.onFirst A >>= fun out => match out with
        | .ok address => pure (f address)
        | .error _ => Action.onSecond B)) ((s, u), h)
      = match Action.after (Except.toOption <$> A) (s, h) with
        | (.ok none, s', h') =>
          let second := Action.after (g <$> B) (u, h')
          (second.1, (s', second.2.1), second.2.2)
        | (out, s', h') => (out, (s', u), h') := by
  simp only [Action.after_map, Action.after_bind, Action.after_onFirst]
  rcases Action.after A (s, h) with ⟨(fault | (cause | address)), s', h'⟩
  · rfl
  · show Prod.map _ id (Action.after (Action.onSecond B) ((s', u), h')) = _
    rw [Action.after_onSecond]
    rfl
  · show (Except.ok (g (f address)), (s', u), h') = _
    rw [hg]
    rfl

/-- A request to two providers is one to the first, which may decline, and if it does, one to the
    second in the form of the whole. -/
theorem ask_fallback (w : Way) (e : Request) (s : σ) (u : τ) (h : Host) :
    Action.after (w.ask (P.fallback Q) e) ((s, u), h)
      = match Action.after (w.trial.ask P e) (s, h) with
        | (.ok none, s', h') =>
          let second := Action.after (w.ask Q e) (u, h')
          (second.1, (s', second.2.1), second.2.2)
        | (out, s', h') => (out, (s', u), h') := by
  obtain ⟨_ | _, _ | count⟩ := w
  · exact after_orElse (f := id) (P.tryAllocate e) (Q.allocate e) (fun _ => rfl) s u h
  · exact after_orElse (f := id) (P.tryAllocateArray count e) (Q.allocateArray count e)
      (fun _ => rfl) s u h
  · exact after_orElse (f := .ok) (P.tryAllocate e) (Q.tryAllocate e) (fun _ => rfl) s u h
  · exact after_orElse (f := .ok) (P.tryAllocateArray count e) (Q.tryAllocateArray count e)
      (fun _ => rfl) s u h

end Provider

/-- `Answers p r heaped ss h end`: the ends of a request to a tree with the stacks `ss` at its
    leaves; `heaped` says whether there is a heap as well.  The request comes to one of the leaves,
    or to nothing. -/
inductive Answers (p : Platform) (r : Request) (heaped : Bool) :
    List Stack → Host → Except Fault (Option Nat) × List Stack × Host → Prop
  | refused {ss : List Stack} {h : Host} {out : Except Fault (Option Nat)}
      (hnothing : ∀ address, out ≠ .ok (some address)) : Answers p r heaped ss h (out, ss, h)
  | stack {left right : List Stack} {s s' : Stack} {h h' : Host} {out : Except Fault (Option Nat)}
      (hserves : Stack.Serves p r s h (out, s', h')) :
      Answers p r heaped (left ++ s :: right) h (out, left ++ s' :: right, h')
  | heap {ss : List Stack} {h h' : Host} {out : Except Fault (Option Nat)} (hheap : heaped = true)
      (hends : Heap.Ends p r h out h') : Answers p r heaped ss h (out, ss, h')

namespace Answers

variable {p : Platform} {r : Request} {heaped : Bool} {ss ss' : List Stack} {h h' : Host}
  {out : Except Fault (Option Nat)}

/-- Further stacks to the right are not asked. -/
theorem append_right (ha : Answers p r heaped ss h (out, ss', h')) (right : List Stack)
    (other : Bool) : Answers p r (heaped || other) (ss ++ right) h (out, ss' ++ right, h') := by
  cases ha with
  | refused hnothing => exact .refused hnothing
  | stack hserves =>
    simp only [List.append_assoc, List.cons_append]
    exact .stack hserves
  | heap hheap hends => exact .heap (by rw [hheap, Bool.true_or]) hends

/-- Further stacks to the left have declined. -/
theorem append_left (ha : Answers p r heaped ss h (out, ss', h')) (left : List Stack)
    (other : Bool) : Answers p r (other || heaped) (left ++ ss) h (out, left ++ ss', h') := by
  cases ha with
  | refused hnothing => exact .refused hnothing
  | stack hserves =>
    simp only [← List.append_assoc]
    exact .stack hserves
  | heap hheap hends => exact .heap (by rw [hheap, Bool.or_true]) hends

/-- A stack alone is asked. -/
theorem single {s s' : Stack} (hserves : Stack.Serves p r s h (out, s', h')) :
    Answers p r false [s] h (out, [s'], h') := by
  have hall : Answers p r false ([] ++ s :: []) h (out, [] ++ s' :: [], h') := .stack hserves
  exact hall

end Answers

/-- A stack at a leaf is asked, or refuses; a stack that declines has not changed. -/
theorem Stack.leaf_answers {p : Platform} {gap : Nat} (hp : p.Sound gap) {s : Stack} {h : Host}
    (hset : Stack.Settled gap s h) (fallible : Bool) (r : Request) :
    ∃ out s' h', Action.after ((⟨fallible, none⟩ : Way).ask (Stack.provider p) r) (s, h)
      = (out, s', h') ∧ Answers p r false [s] h (out, [s'], h') ∧
        (out = .ok none → s' = s ∧ h' = h) := by
  cases fallible with
  | false =>
    have hserves : Stack.Serves p r s h
        (Action.after ((⟨false, none⟩ : Way).ask (Stack.provider p) r) (s, h)) :=
      Stack.allocate_ends hp hset
    have hsome : ∀ st, Action.after ((⟨false, none⟩ : Way).ask (Stack.provider p) r) (s, h)
        ≠ (.ok none, st) := Action.after_some_ne ((Stack.provider p).allocate r) (s, h)
    generalize Action.after ((⟨false, none⟩ : Way).ask (Stack.provider p) r) (s, h) = last
      at hserves hsome ⊢
    obtain ⟨out, s', h'⟩ := last
    refine ⟨out, s', h', rfl, Answers.single hserves, ?_⟩
    rintro rfl
    exact absurd rfl (hsome _)
  | true =>
    show ∃ out s' h', Action.after (Except.toOption <$> Stack.offer p r) (s, h) = (out, s', h') ∧ _
    cases hvalid : Alignment.isValid r.alignment with
    | true =>
      have hbump := Stack.offer_bumps (p := p) hset hvalid
      generalize Action.after (Except.toOption <$> Stack.offer p r) (s, h) = last at hbump ⊢
      obtain ⟨out, s', h'⟩ := last
      refine ⟨out, s', h', rfl, Answers.single (.bumped hbump), ?_⟩
      rintro rfl
      cases hbump with
      | declined => exact ⟨rfl, rfl⟩
    | false =>
      exact ⟨_, _, _, Stack.offer_refused hvalid, .refused nofun, fun _ => ⟨rfl, rfl⟩⟩

namespace Tree

variable {p : Platform} {gap : Nat} {r : Request}

/-! ## Trees of stacks and heaps -/

/-- Every leaf is a stack. -/
def Stacked : Tree → Prop
  | stack => True
  | heap | budget => False
  | fallback first second => first.Stacked ∧ second.Stacked

/-- Every leaf is a stack, except that the last one may be a heap. -/
def Routed : Tree → Prop
  | stack | heap => True
  | budget => False
  | fallback first second => first.Stacked ∧ second.Routed

theorem Stacked.routed {t : Tree} (ht : t.Stacked) : t.Routed := by
  induction t with
  | stack => trivial
  | heap => exact ht.elim
  | budget => exact ht.elim
  | fallback first second _ ihsecond => exact ⟨ht.1, ihsecond ht.2⟩

/-- Every leaf is a stack or a heap. -/
def Unbudgeted : Tree → Prop
  | stack | heap => True
  | budget => False
  | fallback first second => first.Unbudgeted ∧ second.Unbudgeted

theorem Routed.unbudgeted {t : Tree} (ht : t.Routed) : t.Unbudgeted := by
  induction t with
  | stack => trivial
  | heap => trivial
  | budget => exact ht.elim
  | fallback first second ihfirst ihsecond => exact ⟨ihfirst ht.1.routed, ihsecond ht.2⟩

/-- So is every part of such a tree. -/
theorem part?_unbudgeted {t : Tree} (ht : t.Unbudgeted) {path : List Side} {q : Part t}
    (hpart : t.part? path = some q) : q.shape.Unbudgeted := by
  induction t generalizing path with
  | fallback first second ihfirst ihsecond =>
    cases path with
    | nil =>
      cases hpart
      exact ht
    | cons side path =>
      cases side with
      | first =>
        obtain ⟨q, hq, heq⟩ := Option.bind_eq_some_iff.1 hpart
        cases heq
        exact ihfirst ht.1 hq
      | second =>
        obtain ⟨q, hq, heq⟩ := Option.bind_eq_some_iff.1 hpart
        cases heq
        exact ihsecond ht.2 hq
  | _ =>
    cases path with
    | nil =>
      cases hpart
      exact ht
    | cons side path => simp [part?] at hpart

/-- In a tree of stacks there is no heap. -/
theorem Stacked.hasHeap_eq {t : Tree} (ht : t.Stacked) : t.hasHeap = false := by
  induction t with
  | stack => rfl
  | heap => exact ht.elim
  | budget => exact ht.elim
  | fallback first second ihfirst ihsecond =>
    rw [hasHeap, ihfirst ht.1, ihsecond ht.2, Bool.or_false]

/-- A plain request comes to one of the leaves, or to nothing.  A tree that declines has not
    changed, so the next side is asked on the same host. -/
theorem plain_answers (hp : p.Sound gap) {t : Tree} (ht : t.Unbudgeted) (fallible : Bool)
    (s : t.State) (h : Host) (hset : ∀ st ∈ t.stackLeaves s, st.Settled gap h) :
    ∃ out s' h', Action.after ((⟨fallible, none⟩ : Way).ask (t.provider p) r) (s, h)
      = (out, s', h') ∧
        Answers p r t.hasHeap (t.stackLeaves s) h (out, t.stackLeaves s', h') ∧
        (out = .ok none → s' = s ∧ h' = h) := by
  induction t generalizing fallible with
  | stack => exact Stack.leaf_answers hp (hset s List.mem_cons_self) fallible r
  | heap =>
    obtain ⟨out, h', hrun, hends, hsame⟩ := Heap.ask_ends p r h fallible
    exact ⟨out, (), h', hrun, .heap rfl hends, fun hnone => ⟨rfl, hsame hnone⟩⟩
  | budget => exact ht.elim
  | fallback first second ihfirst ihsecond =>
    obtain ⟨s, u⟩ := s
    have hfirst : ∀ st ∈ first.stackLeaves s, st.Settled gap h := fun st hst =>
      hset st (List.mem_append_left _ hst)
    have hsecond : ∀ st ∈ second.stackLeaves u, st.Settled gap h := fun st hst =>
      hset st (List.mem_append_right _ hst)
    obtain ⟨out, s', h', hrun, hanswers, hsame⟩ := ihfirst ht.1 true s hfirst
    have hwhole := Provider.ask_fallback (P := first.provider p) (Q := second.provider p)
      ⟨fallible, none⟩ r s u h
    dsimp only [Way.trial] at hwhole
    rw [hrun] at hwhole
    by_cases hdeclined : out = .ok none
    · subst hdeclined
      obtain ⟨rfl, rfl⟩ := hsame rfl
      obtain ⟨out', u', h'', hrun', hanswers', hsame'⟩ := ihsecond ht.2 fallible u hsecond
      dsimp only at hwhole
      rw [hrun'] at hwhole
      refine ⟨out', (s', u'), h'', hwhole, hanswers'.append_left _ _, ?_⟩
      intro hnone
      obtain ⟨rfl, rfl⟩ := hsame' hnone
      exact ⟨rfl, rfl⟩
    · refine ⟨out, (s', u), h', ?_, hanswers.append_right _ _, fun hnone => ?_⟩
      · refine hwhole.trans ?_
        split
        · rename_i heq
          cases heq
          exact absurd rfl hdeclined
        · rename_i heq
          cases heq
          rfl
      · exact absurd hnone hdeclined

/-- **A request to a tree**, in any form, comes to one of its leaves, or to nothing. -/
theorem ask_answers (hp : p.Sound gap) {t : Tree} (ht : t.Unbudgeted) (w : Way) (e : Request)
    (s : t.State) (h : Host) (hset : ∀ st ∈ t.stackLeaves s, st.Settled gap h) :
    ∃ out s' h', Action.after (w.ask (t.provider p) e) (s, h) = (out, s', h') ∧
      Answers p ((w.request? e).getD e) t.hasHeap (t.stackLeaves s) h
        (out, t.stackLeaves s', h') := by
  cases hw : w.request? e with
  | some r =>
    rw [ask_eq p t hw]
    obtain ⟨out, s', h', hrun, hanswers, -⟩ := plain_answers hp ht w.fallible s h hset
    exact ⟨out, s', h', hrun, hanswers⟩
  | none =>
    obtain ⟨out, hrun, hnothing⟩ := ask_overflowing p t hw s h
    exact ⟨out, s, h, hrun, .refused hnothing⟩

/-! ## Giving back to a tree -/

end Tree

/-- Memory that is given back to two providers is offered to the first, and goes to the second in
    the form of the whole if the first does not take it. -/
theorem Provider.giveBack_fallback {σ τ : Type} {P : Provider σ} {Q : Provider τ} {address : Nat}
    {r : Request} {s s' : σ} {u : τ} {h h' : Host} {taken : Bool} (fallible : Bool)
    (hfirst : P.tryDeallocate address r (s, h) = .ok taken (s', h')) :
    (⟨fallible, none⟩ : Way).giveBack (P.fallback Q) address r ((s, u), h)
      = if taken then .ok true ((s', u), h')
        else Action.onSecond ((⟨fallible, none⟩ : Way).giveBack Q address r) ((s', u), h') := by
  have hlift : Action.onFirst (P.tryDeallocate address r) ((s, u), h)
      = .ok taken ((s', u), h') := Action.onFirst_of_ok hfirst
  cases fallible with
  | false =>
    have hrun : (P.fallback Q).deallocate address r ((s, u), h)
        = (if !taken then Action.onSecond (Q.deallocate address r) else pure ()) ((s', u), h') :=
      Action.bind_of_ok hlift
    show EStateM.map (fun _ => true) ((P.fallback Q).deallocate address r) ((s, u), h) = _
    rw [EStateM.map, hrun]
    cases taken with
    | true => rfl
    | false =>
      have hsecond : (⟨false, none⟩ : Way).giveBack Q address r
          = EStateM.map (fun _ => true) (Q.deallocate address r) := rfl
      simp only [Bool.not_false, if_true, Bool.false_eq_true, if_false, hsecond, Action.onSecond,
        Action.zoom, EStateM.map]
      cases Q.deallocate address r (u, h') <;> rfl
  | true =>
    refine (Action.bind_of_ok hlift).trans ?_
    cases taken with
    | true => rfl
    | false => rfl

/-- A stack takes what it owns, and does nothing about it. -/
theorem Stack.tryDeallocate_apply (p : Platform) {s : Stack} (hs : s.WellFormed) (address : Nat)
    (r : Request) (h : Host) :
    (provider p).tryDeallocate address r (s, h) = .ok (s.covers address) (s, h) := by
  show (Action.self >>= fun s => (liftM (s.owns p.build address) : Action Stack Bool)) (s, h) = _
  rw [Action.self_bind, owns_eq p.build hs]
  rfl

/-- The host after the heap has taken a chunk back. -/
def Host.withoutChunk (h : Host) (address : Nat) (l : Layout) : Host :=
  { h with
    memory := h.memory.freeChunk address
    journal := h.journal ++ [.takenBack address l] }

/-- The heap takes whatever it is given, in the layout of the request. -/
theorem Heap.giveBack_apply (p : Platform) (fallible : Bool) {r : Request} {l : Layout}
    (hlayout : layout r = .ok l) (address : Nat) (h : Host) :
    (⟨fallible, none⟩ : Way).giveBack (provider p) address r ((), h)
      = .ok true ((), h.withoutChunk address l) := by
  have hrun : deallocate p address r h = .ok () (h.withoutChunk address l) := by
    rw [deallocate, hlayout]
    rfl
  have hlift : (Action.onHost (deallocate p address r) : Action Unit Unit) ((), h)
      = .ok () ((), h.withoutChunk address l) := Action.onHost_of_ok hrun
  cases fallible with
  | false =>
    show EStateM.map (fun _ => true) (Action.onHost (deallocate p address r)) ((), h) = _
    rw [EStateM.map, hlift]
  | true => exact (Action.bind_of_ok hlift).trans rfl

namespace Tree

/-- Whether one of the stacks at the leaves owns an address. -/
def covers : (t : Tree) → t.State → Nat → Bool
  | stack, s, address => Stack.covers s address
  | heap, _, _ => false
  | budget, _, _ => false
  | fallback first second, (s, u), address => first.covers s address || second.covers u address

variable {address : Nat} {l : Layout}

theorem covers_iff {t : Tree} {s : t.State} :
    t.covers s address = true ↔ ∃ st ∈ t.stackLeaves s, st.covers address = true := by
  induction t with
  | stack =>
    constructor
    · intro hown
      exact ⟨s, List.mem_cons_self, hown⟩
    · rintro ⟨st, hst, hown⟩
      rcases List.mem_cons.1 hst with rfl | hnil
      · exact hown
      · nomatch hnil
  | heap => simp [covers, stackLeaves]
  | budget => simp [covers, stackLeaves]
  | fallback first second ihfirst ihsecond =>
    obtain ⟨s, u⟩ := s
    rw [covers, Bool.or_eq_true, ihfirst, ihsecond, stackLeaves]
    simp only [List.mem_append, or_and_right, exists_or]

/-- A tree of stacks takes what one of them owns, and nothing is changed. -/
theorem tryDeallocate_apply (p : Platform) {t : Tree} (ht : t.Stacked) (s : t.State) (h : Host)
    (hs : ∀ st ∈ t.stackLeaves s, st.WellFormed) (address : Nat) (r : Request) :
    (t.provider p).tryDeallocate address r (s, h) = .ok (t.covers s address) (s, h) := by
  induction t with
  | stack => exact Stack.tryDeallocate_apply p (hs s List.mem_cons_self) address r h
  | heap => exact ht.elim
  | budget => exact ht.elim
  | fallback first second ihfirst ihsecond =>
    obtain ⟨s, u⟩ := s
    have hfirst := ihfirst ht.1 s fun st hst => hs st (List.mem_append_left _ hst)
    have hsecond := ihsecond ht.2 u fun st hst => hs st (List.mem_append_right _ hst)
    refine (Provider.giveBack_fallback true hfirst).trans ?_
    rw [covers]
    cases first.covers s address with
    | true => rfl
    | false => exact Action.onSecond_of_ok hsecond

/-- **Memory of a stack is given back** to a tree in any form: it is taken, and nothing is
    changed. -/
theorem giveBack_covered (p : Platform) {t : Tree} (ht : t.Routed) (fallible : Bool) (s : t.State)
    (h : Host) (hs : ∀ st ∈ t.stackLeaves s, st.WellFormed) (hown : t.covers s address = true)
    (r : Request) :
    (⟨fallible, none⟩ : Way).giveBack (t.provider p) address r (s, h) = .ok true (s, h) := by
  induction t with
  | stack =>
    cases fallible with
    | false => rfl
    | true =>
      have hleaf := Stack.tryDeallocate_apply p (hs s List.mem_cons_self) address r h
      have hcovers : Stack.covers s address = true := hown
      rw [hcovers] at hleaf
      exact hleaf
  | heap => nomatch hown
  | budget => exact ht.elim
  | fallback first second _ ihsecond =>
    obtain ⟨s, u⟩ := s
    have hfirst := tryDeallocate_apply p ht.1 s h (fun st hst => hs st (List.mem_append_left _ hst))
      address r
    refine (Provider.giveBack_fallback fallible hfirst).trans ?_
    rw [covers] at hown
    cases hcovers : first.covers s address with
    | true => rfl
    | false =>
      rw [hcovers, Bool.false_or] at hown
      have hsecond := ihsecond ht.2 u (fun st hst => hs st (List.mem_append_right _ hst)) hown
      exact Action.onSecond_of_ok hsecond

/-- **Memory of none of the stacks** goes to the heap, in any form. -/
theorem giveBack_uncovered (p : Platform) {t : Tree} (ht : t.Routed) (hheap : t.hasHeap = true)
    (fallible : Bool) (s : t.State) (h : Host) (hs : ∀ st ∈ t.stackLeaves s, st.WellFormed)
    (hown : t.covers s address = false) {r : Request} (hlayout : Heap.layout r = .ok l) :
    (⟨fallible, none⟩ : Way).giveBack (t.provider p) address r (s, h)
      = .ok true (s, h.withoutChunk address l) := by
  induction t with
  | stack => nomatch hheap
  | heap => exact Heap.giveBack_apply p fallible hlayout address h
  | budget => exact ht.elim
  | fallback first second _ ihsecond =>
    obtain ⟨s, u⟩ := s
    have hfirst := tryDeallocate_apply p ht.1 s h (fun st hst => hs st (List.mem_append_left _ hst))
      address r
    rw [covers, Bool.or_eq_false_iff] at hown
    rw [hown.1] at hfirst
    rw [hasHeap, ht.1.hasHeap_eq, Bool.false_or] at hheap
    have hsecond := ihsecond ht.2 hheap u
      (fun st hst => hs st (List.mem_append_right _ hst)) hown.2
    refine (Provider.giveBack_fallback fallible hfirst).trans ?_
    exact Action.onSecond_of_ok hsecond

end Tree

end StackArena
