/-
  Which faults end a program.

  A fatal fault is one that cannot be caught.  Of a request, in whatever form, none comes but the
  one for a heap that has nothing left (`ask_benign`); and none at all comes of a marker that is
  objected to.
-/
import StackArena.Proofs.Turns

namespace StackArena.Stack

variable {p : Platform} {gap : Nat} {s s' : Stack} {h h' : Host}

/-- A fault can be caught, or the heap had nothing left. -/
def Benign (f : Fault) : Prop :=
  f.isFatal = true → ∃ size alignment, f = .heapExhausted size alignment

theorem Benign.of_caught {f : Fault} (hf : f.isFatal = false) : Benign f := by
  intro hfatal
  rw [hf] at hfatal
  nomatch hfatal

theorem make_benign {capacity serial : Nat} {f : Fault}
    (hmake : Block.make p capacity serial h = .error f h') : Benign f := by
  cases Block.denied_of_error hmake with
  | empty => exact .of_caught rfl
  | tooLarge => exact .of_caught rfl
  | exhausted => exact fun _ => ⟨_, _, rfl⟩

theorem Build.add_benign {b : Build} {x y : Nat} {f : Fault} (hadd : b.add x y = .error f) :
    Benign f := by
  unfold Build.add at hadd
  split at hadd
  · nomatch hadd
  · cases b with
    | debug =>
      cases hadd
      exact .of_caught rfl
    | release => nomatch hadd

theorem Bump.benign {r : Request} {f : Fault} (hbump : Bump p r s h (.error f, s', h')) :
    Benign f := by
  cases hbump with
  | overdrawn hspan hout => exact Build.add_benign hout

theorem Grow.benign {required : Nat} {f : Fault}
    (hgrow : Grow p required s h (.error f, s', h')) : Benign f := by
  cases hgrow with
  | serialsOut hserial => exact Build.add_benign hserial
  | noBlock hserial hcache hmake => exact make_benign hmake

/-- A request ends the program only if the heap has nothing left. -/
theorem Serves.benign {r : Request} {f : Fault} (hserves : Serves p r s h (.error f, s', h')) :
    Benign f := by
  cases hserves with
  | misaligned => exact .of_caught rfl
  | bumped hbump => exact hbump.benign
  | oversized => exact .of_caught rfl
  | starved hspan hroom hgrow => exact hgrow.benign
  | full => exact .of_caught rfl
  | grown hspan hroom hgrow hbump => exact hbump.benign

/-- **A request in any form ends the program only if the heap has nothing left.**  An array that is
    too large for a word is declined before the stack is asked. -/
theorem ask_benign (hp : p.Sound gap) (hset : Settled gap s h) {form : Form} {r : Request}
    {f : Fault} (hasked : Action.after (form.ask p r) (s, h) = (.error f, s', h')) : Benign f := by
  have hhandled := ask_handled (p := p) hset form r
  generalize Action.after (form.ask p r) (s, h) = out at hhandled hasked
  cases hhandled with
  | @stack r' =>
    have hserves := allocate_ends (p := p) (r := r') hp hset
    rw [hasked] at hserves
    exact hserves.benign
  | block _ _ hbump =>
    rw [hasked] at hbump
    exact hbump.benign
  | nowhere _ hcaught => exact .of_caught (hcaught f (Prod.mk.inj hasked).1)

/-- What a debug build stops an unwind with can be caught. -/
theorem objection?_benign {m : Marker} {f : Fault} (hobjection : s.objection? m = some f) :
    Benign f := by
  unfold objection? blockObjection? at hobjection
  refine .of_caught ?_
  split at hobjection
  · cases hobjection
    rfl
  · split at hobjection
    · cases hobjection
      rfl
    · split at hobjection
      · rename_i hinner
        cases hobjection
        split at hinner
        · cases hinner
          rfl
        · split at hinner
          · cases hinner
            rfl
          · nomatch hinner
      · split at hobjection
        · cases hobjection
          rfl
        · nomatch hobjection

end StackArena.Stack
