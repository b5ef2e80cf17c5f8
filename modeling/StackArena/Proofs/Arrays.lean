/-
  Arrays in a tree of providers.

  An array goes down a tree as an array: each node has its own array operations, and they ask the
  two sides in other ways than the plain ones do.  What comes of it is the plain request for all of
  the bytes.

  1. **One operation** — `arrays_in_bytes` says so of each of the four operations, at every node and
     in every state, and says what becomes of an array whose bytes are no word.
  2. **A run** — the moves of a run may be put in terms of bytes (`Move.inBytes`): they come to the
     same, and lead to the same (`run_inBytes`).
-/
import StackArena.Proofs.Aftermath

namespace StackArena

theorem Word.mul?_of_lt {x y : Nat} (h : x * y < count) : mul? x y = some (x * y) := if_pos h

theorem Word.mul?_of_le {x y : Nat} (h : count ≤ x * y) : mul? x y = none :=
  if_neg (Nat.not_lt.2 h)

namespace Tree

/-! ## One operation -/

/-- An array that is too large is taken back by nobody. -/
theorem tryDeallocateArray_of_none {count : Nat} {e : Request} (p : Platform) (t : Tree)
    (address : Nat) (hnone : Word.mul? count e.size = none) :
    (t.provider p).tryDeallocateArray address count e = pure false := by
  -- This is the form that no provider has of its own, so there is nothing to go down to.
  cases t with
  | stack =>
    simp only [provider, Stack.provider, hnone]
    rfl
  | heap =>
    simp only [provider, Heap.provider, hnone]
    rfl
  | budget =>
    simp only [provider, Budget.provider, hnone]
    rfl
  | fallback first second =>
    simp only [provider, Provider.fallback, hnone]
    rfl

/-- **Arrays are requests for their bytes**, in every tree and in whatever state its leaves and the
    host are.
    1. If the bytes of the elements are a word together, each of the four array operations is the
       plain operation on them: it comes to the same, and leads to the same.
    2. If they are none, then the request that may be declined is declined with the size of the
       array, the one that may not stops with the text of that cause, and nothing is taken back.
       Whichever is tried, all leaves and the host are as they were. -/
theorem arrays_in_bytes (p : Platform) (t : Tree) (count : Nat) (e : Request) :
    (count * e.size < Word.count →
      (t.provider p).allocateArray count e
          = (t.provider p).allocate ⟨count * e.size, e.alignment⟩ ∧
        (t.provider p).tryAllocateArray count e
          = (t.provider p).tryAllocate ⟨count * e.size, e.alignment⟩ ∧
        ∀ address,
          (t.provider p).deallocateArray address count e
              = (t.provider p).deallocate address ⟨count * e.size, e.alignment⟩ ∧
            (t.provider p).tryDeallocateArray address count e
              = (t.provider p).tryDeallocate address ⟨count * e.size, e.alignment⟩) ∧
    (Word.count ≤ count * e.size → ∀ (s : t.State) (h : Host),
      (t.provider p).tryAllocateArray count e (s, h)
          = .ok (.error (.sizeOverflow count e.size)) (s, h) ∧
        (∃ f, (t.provider p).allocateArray count e (s, h) = .error f (s, h) ∧
          f.message = (AllocError.sizeOverflow count e.size).display ∧ f.isFatal = false) ∧
        ∀ address, (t.provider p).tryDeallocateArray address count e (s, h) = .ok false (s, h)) := by
  constructor
  · intro hword
    have harray := t.plainArrays p (Word.mul?_of_lt hword)
    exact ⟨harray.allocate, harray.tryAllocate, fun address =>
      ⟨harray.deallocate address, harray.tryDeallocate address⟩⟩
  · intro hover s h
    have hnone := Word.mul?_of_le hover
    have harray := t.refusesArray p hnone
    refine ⟨harray.tryAllocate s h, ⟨_, harray.allocate s h, rfl, rfl⟩, fun address => ?_⟩
    rw [t.tryDeallocateArray_of_none p address hnone]
    rfl

end Tree

namespace Venture

/-- Two stacks and a heap, one behind the other. -/
def stacksAndHeap : Recipe := .fallback twoStacks .heap

/-- Nine elements of eight bytes are served by the heap, as their bytes are; both stacks are too
    small.  An array of 2⁶⁴ bytes stops, and none of the three has changed. -/
theorem arrays_in_bytes_heap :
    ∃ v, made? (Session.platform .debug []) stacksAndHeap .initial = some v ∧
      9 * 8 < Word.count ∧ Word.count ≤ 2 ^ 32 * 2 ^ 32 ∧
      (stacksAndHeap.tree.provider (Session.platform .debug [])).tryAllocateArray 9 ⟨8, 8⟩
          (v.state, v.host)
        = (stacksAndHeap.tree.provider (Session.platform .debug [])).tryAllocate ⟨72, 8⟩
          (v.state, v.host) ∧
      ((v.act (Session.platform .debug []) (.ask [] ⟨true, some 9⟩ ⟨8, 8⟩)).1.toOption.bind
        Response.address?).isSome ∧
      ∃ f, (stacksAndHeap.tree.provider (Session.platform .debug [])).allocateArray (2 ^ 32)
          ⟨2 ^ 32, 1⟩ (v.state, v.host) = .error f (v.state, v.host) ∧
        f.message = "array size overflow: 4294967296 elements of 4294967296 bytes" := by
  have hserved : ((made? (Session.platform .debug []) stacksAndHeap .initial).map fun v =>
      ((v.act (Session.platform .debug []) (.ask [] ⟨true, some 9⟩ ⟨8, 8⟩)).1.toOption.bind
        Response.address?).isSome) = some true := by
    decide +kernel
  obtain ⟨v, hmade, hsome⟩ := Option.map_eq_some_iff.1 hserved
  have hword : 9 * 8 < Word.count := by decide
  have hover : Word.count ≤ 2 ^ 32 * 2 ^ 32 := by decide
  have hplain := (Tree.arrays_in_bytes (Session.platform .debug []) stacksAndHeap.tree 9
    ⟨8, 8⟩).1 hword
  obtain ⟨-, ⟨f, hstop, hmessage, -⟩, -⟩ := (Tree.arrays_in_bytes (Session.platform .debug [])
    stacksAndHeap.tree (2 ^ 32) ⟨2 ^ 32, 1⟩).2 hover v.state v.host
  refine ⟨v, hmade, hword, hover, congrFun hplain.2.1 _, hsome, f, hstop, hmessage.trans ?_⟩
  decide

end Venture

/-! ## A run -/

open Venture

/-- A way and a request in terms of bytes; an array whose bytes are no word stays an array. -/
def Way.inBytes (w : Way) (e : Request) : Way × Request :=
  match w.request? e with
  | some r => (⟨w.fallible, none⟩, r)
  | none => (w, e)

/-- A request comes to one for its bytes, with its cause where it is declined. -/
theorem Tree.inquire_inBytes (p : Platform) (t : Tree) (w : Way) (e : Request) :
    (w.inBytes e).1.inquire (t.provider p) (w.inBytes e).2 = w.inquire (t.provider p) e := by
  rw [Way.inBytes]
  cases hw : w.request? e with
  | none => rfl
  | some r =>
    obtain ⟨fallible, _ | count⟩ := w
    · cases hw
      rfl
    · obtain ⟨total, htotal, rfl⟩ := Option.map_eq_some_iff.1 hw
      have harray := t.plainArrays p htotal
      cases fallible with
      | false => exact congrArg (Response.address <$> ·) harray.allocate.symm
      | true => exact congrArg (Response.ofTrial <$> ·) harray.tryAllocate.symm

/-- What is given back is given back in bytes. -/
theorem Tree.giveBack_inBytes (p : Platform) (t : Tree) (address : Nat) (w : Way) (e : Request) :
    (w.inBytes e).1.giveBack (t.provider p) address (w.inBytes e).2
      = w.giveBack (t.provider p) address e := by
  rw [Way.inBytes]
  cases hw : w.request? e with
  | none => rfl
  | some r => exact (t.giveBack_eq p address hw).symm

namespace Venture

/-- A move in terms of bytes. -/
def Move.inBytes : Move → Move
  | ask path w r => ask path (w.inBytes r).1 (w.inBytes r).2
  | giveBack path address w r => giveBack path address (w.inBytes r).1 (w.inBytes r).2
  | d => d

/-- A move is the same action in terms of bytes. -/
theorem Move.action_inBytes (p : Platform) (t : Tree) (markers : List Marker) (d : Move) :
    d.inBytes.action p t markers = d.action p t markers := by
  cases d with
  | ask path w r => simp only [inBytes, action, Tree.inquire_inBytes]
  | giveBack path address w r => simp only [inBytes, action, Tree.giveBack_inBytes]
  | _ => rfl

variable {t : Tree}

theorem act_inBytes (p : Platform) (v : Venture t) (d : Move) : v.act p d.inBytes = v.act p d := by
  rw [act, act, Move.action_inBytes]

/-- **A run may be put in terms of bytes**: its moves come to the same, and it leads to the same. -/
theorem run_inBytes (p : Platform) (v : Venture t) (ds : List Move) :
    v.responses p (ds.map Move.inBytes) = v.responses p ds ∧
      v.run p (ds.map Move.inBytes) = v.run p ds := by
  induction ds generalizing v with
  | nil => exact ⟨rfl, rfl⟩
  | cons d ds ih =>
    have hact := act_inBytes p v d
    have hstep : v.step p d.inBytes = v.step p d := congrArg Prod.snd hact
    obtain ⟨hresponses, hrun⟩ := ih (v.step p d)
    constructor
    · show (v.act p d.inBytes).1 :: (v.step p d.inBytes).responses p (ds.map Move.inBytes) = _
      rw [hact, hstep, hresponses]
      rfl
    · show (v.step p d.inBytes).run p (ds.map Move.inBytes) = _
      rw [hstep, hrun]
      rfl

end Venture

end StackArena
