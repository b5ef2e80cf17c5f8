/-
  Trees and their twins.

  In a tree whose stacks have twins, every request, every return of memory and the end of the tree
  agree with themselves: the twins end alike, with twins at the leaves again.

  1. Two states of a tree are **paired** if the stacks at their leaves are related one by one
     (`Tree.Paired`), and so are the parts that a path leads to.
  2. A provider agrees with itself if all of its operations do (`Provider.Agrees`).  Two providers
     as one do if both do, which carries the induction over the tree.
-/
import StackArena.Proofs.Renumbering
import StackArena.Proofs.Trees

namespace StackArena

open StackArena.Action Host

/-! ## Paired states -/

namespace Tree

/-- `t.Paired R s u`: the stacks at the leaves of two states are related one by one. -/
def Paired (R : Stack → Stack → Prop) : (t : Tree) → t.State → t.State → Prop
  | stack, s, u => R s u
  | heap, _, _ => True
  | budget, s, u => s = u
  | fallback first second, (s, s'), (u, u') => first.Paired R s u ∧ second.Paired R s' u'

variable {R R' : Stack → Stack → Prop}

theorem Paired.mono (hRR' : ∀ s u, R s u → R' s u) {t : Tree} {s u : t.State}
    (hsu : t.Paired R s u) : t.Paired R' s u := by
  induction t with
  | stack => exact hRR' s u hsu
  | heap => trivial
  | budget => exact hsu
  | fallback first second ihfirst ihsecond => exact ⟨ihfirst hsu.1, ihsecond hsu.2⟩

/-- Parts that the same path leads to are paired, and paired parts can be put back. -/
theorem part?_paired {t : Tree} {path : List Side} {q : Part t} (hpart : t.part? path = some q) :
    (∀ s u, t.Paired R s u → q.shape.Paired R (q.get s) (q.get u)) ∧
      ∀ x y s u, q.shape.Paired R x y → t.Paired R s u → t.Paired R (q.put x s) (q.put y u) := by
  induction t generalizing path with
  | fallback first second ihfirst ihsecond =>
    cases path with
    | nil =>
      cases hpart
      exact ⟨fun _ _ hsu => hsu, fun _ _ _ _ hxy _ => hxy⟩
    | cons side path =>
      cases side with
      | first =>
        obtain ⟨q, hq, heq⟩ := Option.bind_eq_some_iff.1 hpart
        cases heq
        obtain ⟨hget, hput⟩ := ihfirst hq
        exact ⟨fun s u hsu => hget s.1 u.1 hsu.1,
          fun x y s u hxy hsu => ⟨hput x y s.1 u.1 hxy hsu.1, hsu.2⟩⟩
      | second =>
        obtain ⟨q, hq, heq⟩ := Option.bind_eq_some_iff.1 hpart
        cases heq
        obtain ⟨hget, hput⟩ := ihsecond hq
        exact ⟨fun s u hsu => hget s.2 u.2 hsu.2,
          fun x y s u hxy hsu => ⟨hsu.1, hput x y s.2 u.2 hxy hsu.2⟩⟩
  | _ =>
    cases path with
    | nil =>
      cases hpart
      exact ⟨fun _ _ hsu => hsu, fun _ _ _ _ hxy _ => hxy⟩
    | cons side path => simp [part?] at hpart

end Tree

/-! ## Providers -/

namespace Provider

variable {σ τ : Type} {j j' : List Note}

/-- `P.Agrees j j' R`: from states that `R` relates every operation ends alike.  The relation counts
    the growths to come, and only a request that may not decline can take one. -/
structure Agrees (P : Provider σ) (j j' : List Note) (R : Nat → σ → σ → Prop) : Prop where
  allocate : ∀ n r, Agree (Both (R (n + 1)) (Beside j j')) (Both (R n) (Beside j j')) Eq
    (P.allocate r) (P.allocate r)
  tryAllocate : ∀ n r, Agree (Both (R n) (Beside j j')) (Both (R n) (Beside j j')) Eq
    (P.tryAllocate r) (P.tryAllocate r)
  deallocate : ∀ n address r, Agree (Both (R n) (Beside j j')) (Both (R n) (Beside j j')) Eq
    (P.deallocate address r) (P.deallocate address r)
  tryDeallocate : ∀ n address r, Agree (Both (R n) (Beside j j')) (Both (R n) (Beside j j')) Eq
    (P.tryDeallocate address r) (P.tryDeallocate address r)
  allocateArray : ∀ n count e, Agree (Both (R (n + 1)) (Beside j j')) (Both (R n) (Beside j j')) Eq
    (P.allocateArray count e) (P.allocateArray count e)
  tryAllocateArray : ∀ n count e, Agree (Both (R n) (Beside j j')) (Both (R n) (Beside j j')) Eq
    (P.tryAllocateArray count e) (P.tryAllocateArray count e)
  deallocateArray : ∀ n address count e,
    Agree (Both (R n) (Beside j j')) (Both (R n) (Beside j j')) Eq
      (P.deallocateArray address count e) (P.deallocateArray address count e)
  tryDeallocateArray : ∀ n address count e,
    Agree (Both (R n) (Beside j j')) (Both (R n) (Beside j j')) Eq
      (P.tryDeallocateArray address count e) (P.tryDeallocateArray address count e)

section

variable {R : Nat → σ → σ → Prop} (build : Build) {allocate : Request → Action σ Nat}
  {tryAllocate : Request → Action σ (Except AllocError Nat)}
  {deallocate : Nat → Request → Action σ Unit} {tryDeallocate : Nat → Request → Action σ Bool}
  (limits : σ → Limits)

/-- A provider that says nothing of arrays agrees with itself if its plain forms do. -/
theorem agrees_default (hfewer : ∀ n s u, R (n + 1) s u → R n s u)
    (hallocate : ∀ n r, Agree (Both (R (n + 1)) (Beside j j')) (Both (R n) (Beside j j')) Eq
      (allocate r) (allocate r))
    (htryAllocate : ∀ n r, Agree (Both (R n) (Beside j j')) (Both (R n) (Beside j j')) Eq
      (tryAllocate r) (tryAllocate r))
    (hdeallocate : ∀ n address r, Agree (Both (R n) (Beside j j')) (Both (R n) (Beside j j')) Eq
      (deallocate address r) (deallocate address r))
    (htryDeallocate : ∀ n address r, Agree (Both (R n) (Beside j j')) (Both (R n) (Beside j j')) Eq
      (tryDeallocate address r) (tryDeallocate address r)) :
    Agrees { build, allocate, tryAllocate, deallocate, tryDeallocate, limits } j j' R := by
  refine ⟨hallocate, htryAllocate, hdeallocate, htryDeallocate, ?_, ?_, ?_, ?_⟩
  · intro n count e
    dsimp only
    cases arraySize count e.size with
    | ok total => exact hallocate n _
    | error cause => exact .mono (.throw rfl) (Both.imp (hfewer n)) fun _ _ hsu => hsu
  · intro n count e
    dsimp only
    cases arraySize count e.size with
    | ok total => exact htryAllocate n _
    | error cause => exact .pure rfl
  · intro n address count e
    refine .bind_eq (.check (build.mul count e.size)) fun total => ?_
    exact hdeallocate n address _
  · intro n address count e
    dsimp only
    cases Word.mul? count e.size with
    | some total => exact htryDeallocate n address _
    | none => exact .pure rfl

end

/-- Where the first of two declines, the second is asked; the first does not change its twins. -/
theorem agree_orElse {α : Type} {R R' : σ → σ → Prop} {S S' : τ → τ → Prop}
    {A : Action σ (Except AllocError Nat)} {B : Action τ α} (f : Nat → α)
    (hR : ∀ s u, R s u → R' s u) (hS : ∀ s u, S s u → S' s u)
    (hA : Agree (Both R (Beside j j')) (Both R (Beside j j')) Eq A A)
    (hB : Agree (Both S (Beside j j')) (Both S' (Beside j j')) Eq B B) :
    Agree (Both (Sides R S) (Beside j j')) (Both (Sides R' S') (Beside j j')) Eq
      (onFirst A >>= fun out => match out with
        | .ok address => pure (f address)
        | .error _ => onSecond B)
      (onFirst A >>= fun out => match out with
        | .ok address => pure (f address)
        | .error _ => onSecond B) := by
  have hsides := Both.imp (H := Beside j j') fun s u (hsu : Sides R S s u) =>
    (⟨hR _ _ hsu.1, hS _ _ hsu.2⟩ : Sides R' S' s u)
  refine .bind_mono (.onFirst hA) hsides fun out _ heq => ?_
  subst heq
  cases out with
  | ok address => exact .mono (.pure rfl) hsides fun _ _ hsu => hsu
  | error cause =>
    refine .mono (.onSecond hB) (fun _ _ hsu => hsu) (Both.imp fun s u hsu => ?_)
    exact ⟨hR _ _ hsu.1, hsu.2⟩

/-- What the first of two does not take, the second is given. -/
theorem agree_orGive {α : Type} {R : σ → σ → Prop} {S : τ → τ → Prop} {A : Action σ Bool}
    {B : Action τ α} (x : α) (hA : Agree (Both R (Beside j j')) (Both R (Beside j j')) Eq A A)
    (hB : Agree (Both S (Beside j j')) (Both S (Beside j j')) Eq B B) :
    Agree (Both (Sides R S) (Beside j j')) (Both (Sides R S) (Beside j j')) Eq
      (onFirst A >>= fun taken => if taken then pure x else onSecond B)
      (onFirst A >>= fun taken => if taken then pure x else onSecond B) := by
  refine .bind_eq (.onFirst hA) fun taken => ?_
  exact .ite (.pure rfl) (.onSecond hB)

variable {P : Provider σ} {Q : Provider τ} {R : Nat → σ → σ → Prop} {S : Nat → τ → τ → Prop}

/-- **Two providers as one** agree with themselves if both do. -/
theorem Agrees.fallback (hP : P.Agrees j j' R) (hQ : Q.Agrees j j' S)
    (hR : ∀ n s u, R (n + 1) s u → R n s u) (hS : ∀ n s u, S (n + 1) s u → S n s u) :
    (P.fallback Q).Agrees j j' fun n => Sides (R n) (S n) := by
  have hsame : ∀ {ρ : Type} {V : ρ → ρ → Prop} (s u : ρ), V s u → V s u := fun _ _ hsu => hsu
  constructor
  · intro n r
    exact agree_orElse id (hR n) (hS n) (hP.tryAllocate (n + 1) r) (hQ.allocate n r)
  · intro n r
    exact agree_orElse .ok hsame hsame (hP.tryAllocate n r) (hQ.tryAllocate n r)
  · intro n address r
    refine .bind_eq (.onFirst (hP.tryDeallocate n address r)) fun taken => ?_
    exact .ite (.onSecond (hQ.deallocate n address r)) (.pure rfl)
  · intro n address r
    exact agree_orGive true (hP.tryDeallocate n address r) (hQ.tryDeallocate n address r)
  · intro n count e
    exact agree_orElse id (hR n) (hS n) (hP.tryAllocateArray (n + 1) count e)
      (hQ.allocateArray n count e)
  · intro n count e
    exact agree_orElse .ok hsame hsame (hP.tryAllocateArray n count e)
      (hQ.tryAllocateArray n count e)
  · intro n address count e
    refine .bind_eq (.onFirst (hP.tryDeallocateArray n address count e)) fun taken => ?_
    exact .ite (.onSecond (hQ.deallocateArray n address count e)) (.pure rfl)
  · intro n address count e
    dsimp only [Provider.fallback]
    cases Word.mul? count e.size with
    | some total =>
      exact agree_orGive true (hP.tryDeallocate n address _) (hQ.tryDeallocate n address _)
    | none => exact .pure rfl

end Provider

/-! ## The heap -/

namespace Heap

variable {p : Platform} {j j' : List Note}

theorem serve_agree (l : Layout) :
    Agree (Beside j j') (Beside j j') Eq (serve p l) (serve p l) := by
  refine .bind .get fun h h' hh => ?_
  rw [hh.memory]
  cases p.placeChunk h.memory.outline l with
  | none => exact .pure rfl
  | some base =>
    refine .bind (.set ?_) fun _ _ _ => .bind (note_agree _) fun _ _ _ => .pure rfl
    exact ⟨rfl, hh.lastId, hh.hook, hh.journal⟩

theorem allocate_agree (r : Request) :
    Agree (Beside j j') (Beside j j') Eq (allocate p r) (allocate p r) := by
  unfold allocate
  cases layout r with
  | error cause => exact .throw rfl
  | ok l =>
    refine .bind_eq (serve_agree l) fun found => ?_
    cases found with
    | some address => exact .pure rfl
    | none => exact .throw rfl

theorem tryAllocate_agree (r : Request) :
    Agree (Beside j j') (Beside j j') Eq (tryAllocate p r) (tryAllocate p r) := by
  unfold tryAllocate
  cases layout r with
  | error cause => exact .pure rfl
  | ok l =>
    refine .bind_eq (serve_agree l) fun found => ?_
    cases found with
    | some address => exact .pure rfl
    | none => exact .pure rfl

theorem deallocate_agree (address : Nat) (r : Request) :
    Agree (Beside j j') (Beside j j') Eq (deallocate p address r) (deallocate p address r) := by
  unfold deallocate
  cases layout r with
  | error cause =>
    cases p.build with
    | debug => exact .throw rfl
    | release => exact .pure rfl
  | ok l =>
    exact .bind (changeMemory_agree fun m => m.freeChunk address) fun _ _ _ => note_agree _

end Heap

/-! ## Trees of twins -/

namespace Tree

variable {p : Platform} {j j' : List Note} {ρ : Renumbering}

/-- `t.Twins ρ n`: the stacks at the leaves have twins, for `n` growths to come. -/
def Twins (ρ : Renumbering) (t : Tree) (n : Nat) : t.State → t.State → Prop :=
  t.Paired fun s u => Stack.Twin ρ s.id n s u

theorem Twins.fewer {t : Tree} {n : Nat} (s u : t.State) (hsu : t.Twins ρ (n + 1) s u) :
    t.Twins ρ n s u :=
  hsu.mono fun _ _ htwin => htwin.fewer

/-- What agrees on twins under any identity agrees on a stack as a tree. -/
theorem agree_stack {α β : Type} {T : α → β → Prop} {n m : Nat} {a : Action Stack α}
    {b : Action Stack β}
    (hab : ∀ id, Agree (Stack.Twins ρ id n j j') (Stack.Twins ρ id m j j') T a b) :
    Agree (Both (stack.Twins ρ n) (Beside j j')) (Both (stack.Twins ρ m) (Beside j j')) T a b := by
  intro st st' hst
  refine (hab st.1.id st st' hst).mono (fun _ _ hxy => hxy) (Both.imp fun s u htwin => ?_)
  have hid := htwin.id_eq
  rw [← hid] at htwin
  exact htwin

/-- **A tree of stacks and heaps agrees with itself** on states whose stacks are twins. -/
theorem provider_agrees {t : Tree} (ht : t.Unbudgeted) :
    (t.provider p).Agrees j j' (t.Twins ρ) := by
  induction t with
  | stack =>
    refine Provider.agrees_default _ _ (fun n s u => Twins.fewer s u) ?_ ?_ ?_ ?_
    · exact fun n r => agree_stack fun id => Stack.allocate_agree
    · exact fun n r => agree_stack fun id => Stack.offer_agree
    · exact fun n address r => .pure rfl
    · intro n address r
      refine .bind .self fun s u hsu => ?_
      have heq := hsu.eq
      subst heq
      rw [Stack.owns_renumber]
      exact .check _
  | heap =>
    refine Provider.agrees_default _ _ (fun n s u => Twins.fewer s u) ?_ ?_ ?_ ?_
    · exact fun n r =>
        .mono (.onHost (Heap.allocate_agree r)) (fun _ _ hsu => hsu) fun _ _ hsu => hsu
    · exact fun n r => .onHost (Heap.tryAllocate_agree r)
    · exact fun n address r => .onHost (Heap.deallocate_agree address r)
    · exact fun n address r =>
        .bind (.onHost (Heap.deallocate_agree address r)) fun _ _ _ => .pure rfl
  | budget => exact ht.elim
  | fallback first second ihfirst ihsecond =>
    exact (ihfirst ht.1).fallback (ihsecond ht.2) (fun n s u => Twins.fewer s u)
      fun n s u => Twins.fewer s u

/-- **The end of a tree** is that of its twin. -/
theorem discard_agree {t : Tree} (ht : t.Unbudgeted) (n : Nat) :
    Agree (Both (t.Twins ρ n) (Beside j j')) (Both (t.Twins ρ n) (Beside j j')) Eq (t.discard p)
      (t.discard p) := by
  induction t with
  | stack => exact agree_stack fun id => Stack.discard_agree
  | heap => exact .pure rfl
  | budget => exact ht.elim
  | fallback first second ihfirst ihsecond =>
    exact .ensuring (.onFirst (ihfirst ht.1)) (.onSecond (ihsecond ht.2))

end Tree

end StackArena
