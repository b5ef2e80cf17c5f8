/-
  As if it had never been asked for.

  A request to a tree of stacks and heaps comes to nothing if it is declined, or stops with a fault,
  or is rejected by the heap.  It has left a serial behind at most (`Missed`), and from there on the
  tree does whatever it would have done, under other serials.

    v  ── later ──▶  responses,     v.run later
    │ request                            ╎ serials
    v' ── later ──▶  responses',    v'.run later

  1. **Moves under other serials** — a move agrees with itself on trees of twins, if its markers are
     renumbered too (`Venture.Move.agree`), and so does a run (`Venture.Twins.run`).
  2. **Moves that miss** — a move that asks for something and comes to nothing is a miss for the
     stacks at the leaves, wherever in the tree it asked (`Venture.Move.missed`).
  3. **Serials left out** — after a miss the stacks are what they were with one serial of one stack
     left out, which no block and no marker of it goes by (`Missed.renumbered`).
-/
import StackArena.Proofs.Twins
import StackArena.Proofs.Ventures

namespace StackArena

open StackArena.Action Host Venture

/-! ## Responses under other serials -/

section

variable (ρ : Renumbering)

/-- A response under other serials. -/
def Venture.Response.renumber : Response → Response
  | position m => position (m.renumber ρ)
  | x => x

/-- The order of two markers does not depend on their serials, but for whether they are the same. -/
theorem Marker.compare?_renumber (m n : Marker) :
    (m.renumber ρ).compare? (n.renumber ρ) = m.compare? n := by
  unfold compare?
  rw [stack_renumber, stack_renumber]
  by_cases hstack : m.stack = n.stack
  · have hserial : (m.renumber ρ).serial = (n.renumber ρ).serial ↔ m.serial = n.serial := by
      show ρ.serial m.stack m.serial = ρ.serial n.stack n.serial ↔ _
      rw [hstack]
      exact (ρ.mono n.stack).injective.eq_iff
    simp only [ne_eq, hserial]
    rfl
  · rw [if_pos hstack, if_pos hstack]

end

variable {p : Platform} {gap n : Nat} {j j' : List Note} {ρ : Renumbering}

/-! ## Moves under other serials -/

section

variable {σ : Type} {P : Provider σ} {R : Nat → σ → σ → Prop}

/-- Asking in any way. -/
theorem Way.inquire_agree (hP : P.Agrees j j' R) (hR : ∀ n s u, R (n + 1) s u → R n s u)
    (r : Request) (w : Way) :
    Agree (Both (R (n + 1)) (Beside j j')) (Both (R n) (Beside j j'))
      (fun x y => y = x.renumber ρ) (w.inquire P r) (w.inquire P r) := by
  have htrial : ∀ x y, x = y → Response.ofTrial y = (Response.ofTrial x).renumber ρ := by
    rintro (_ | _) _ rfl <;> rfl
  obtain ⟨_ | _, _ | count⟩ := w
  · exact (hP.allocate n r).map fun x y heq => heq ▸ rfl
  · exact (hP.allocateArray n count r).map fun x y heq => heq ▸ rfl
  · exact ((hP.tryAllocate n r).map htrial).mono (Both.imp (hR n)) fun _ _ hst => hst
  · exact ((hP.tryAllocateArray n count r).map htrial).mono (Both.imp (hR n)) fun _ _ hst => hst

/-- Giving back in any way. -/
theorem Way.giveBack_agree (hP : P.Agrees j j' R) (address : Nat) (r : Request) (w : Way) :
    Agree (Both (R n) (Beside j j')) (Both (R n) (Beside j j')) Eq (w.giveBack P address r)
      (w.giveBack P address r) := by
  obtain ⟨_ | _, _ | count⟩ := w
  · exact (hP.deallocate n address r).map fun _ _ _ => rfl
  · exact (hP.deallocateArray n address count r).map fun _ _ _ => rfl
  · exact hP.tryDeallocate n address r
  · exact hP.tryDeallocateArray n address count r

end

/-- Actions on the parts that agree make actions on the whole that do. -/
theorem Tree.atPart_agree {t : Tree} (ht : t.Unbudgeted) (path : List Side)
    {a b : (u : Tree) → Action u.State Response}
    (hab : ∀ u : Tree, u.Unbudgeted → Agree (Both (u.Twins ρ (n + 1)) (Beside j j'))
      (Both (u.Twins ρ n) (Beside j j')) (fun x y => y = x.renumber ρ) (a u) (b u)) :
    Agree (Both (t.Twins ρ (n + 1)) (Beside j j')) (Both (t.Twins ρ n) (Beside j j'))
      (fun x y => y = x.renumber ρ) (t.atPart path a) (t.atPart path b) := by
  unfold atPart
  cases hpart : t.part? path with
  | none => exact .mono (.pure rfl) (Both.imp Twins.fewer) fun _ _ hst => hst
  | some q =>
    refine .zoom (part?_paired hpart).1 (fun x y s u hxy hsu => ?_)
      (hab q.shape (part?_unbudgeted ht hpart))
    exact (part?_paired hpart).2 x y s u hxy (Twins.fewer s u hsu)

namespace Venture

/-- **A chore** on a twin, with the markers under the new serials. -/
theorem Chore.agree (c : Chore) (markers : List Marker) (id : AllocatorId) :
    Agree (Stack.Twins ρ id (n + 1) j j') (Stack.Twins ρ id n j j') (fun x y => y = x.renumber ρ)
      (c.action p markers) (c.action p (markers.map (Marker.renumber ρ))) := by
  refine .mono ?_ Stack.Twins.fewer fun _ _ hst => hst
  cases c with
  | tryAllocate r =>
    refine Stack.tryAllocate_agree.map fun x y heq => ?_
    subst heq
    cases x <;> rfl
  | top =>
    refine Stack.look_agree fun s _ => .pure ?_
    exact congrArg Response.position (Stack.top_renumber s)
  | unwind k =>
    rw [action, action, List.getElem?_map]
    cases markers[k]? with
    | none => exact .pure rfl
    | some m => exact (Stack.unwind_agree m).map fun _ _ _ => rfl
  | unwindAll => exact Stack.unwindAll_agree.map fun _ _ _ => rfl
  | shrink => exact Stack.shrink_agree.map fun _ _ _ => rfl
  | reportLeaks => exact Stack.reportLeaks_agree.map fun x y heq => heq ▸ rfl

/-- **A move** on a tree of twins, with the markers under the new serials. -/
theorem Move.agree {t : Tree} (ht : t.Unbudgeted) (d : Move) (markers : List Marker) :
    Agree (Both (t.Twins ρ (n + 1)) (Beside j j')) (Both (t.Twins ρ n) (Beside j j'))
      (fun x y => y = x.renumber ρ) (d.action p t markers)
      (d.action p t (markers.map (Marker.renumber ρ))) := by
  have hfewer : ∀ st st' : t.State × Host, Both (t.Twins ρ (n + 1)) (Beside j j') st st' →
      Both (t.Twins ρ n) (Beside j j') st st' := Both.imp Tree.Twins.fewer
  cases d with
  | ask path w r =>
    exact Tree.atPart_agree ht path fun u hu =>
      w.inquire_agree (Tree.provider_agrees hu) (fun _ => Tree.Twins.fewer) r
  | giveBack path address w r =>
    refine Tree.atPart_agree ht path (a := fun u => .taken <$> w.giveBack (u.provider p) address r)
      (b := fun u => .taken <$> w.giveBack (u.provider p) address r) fun u hu => ?_
    refine .mono ?_ (Both.imp Tree.Twins.fewer) fun _ _ hst => hst
    exact (w.giveBack_agree (Tree.provider_agrees hu) address r).map fun x y heq => heq ▸ rfl
  | chore path c =>
    refine Tree.atPart_agree ht path fun u _ => ?_
    cases u with
    | stack => exact Tree.agree_stack (c.agree markers)
    | _ => exact .mono (.pure rfl) (Both.imp Tree.Twins.fewer) fun _ _ hst => hst
  | compare i k =>
    refine .mono (.pure ?_) hfewer fun _ _ hst => hst
    rw [List.getElem?_map, List.getElem?_map]
    cases markers[i]? with
    | none => rfl
    | some m =>
      cases markers[k]? with
      | none => rfl
      | some l => exact congrArg Response.order (m.compare?_renumber ρ l)
  | write region offset length byte =>
    refine .mono ?_ hfewer fun _ _ hst => hst
    exact (Agree.onHost (changeMemory_agree fun m => m.fill region offset length byte)).map
      fun _ _ _ => rfl
  | install next =>
    refine .mono ?_ hfewer fun _ _ hst => hst
    exact (Agree.onHost (install_agree next)).map fun x y heq => heq ▸ rfl
  | discard =>
    refine .mono ?_ hfewer fun _ _ hst => hst
    exact (Tree.discard_agree ht n).map fun _ _ _ => rfl

end Venture

/-! ## Runs under other serials -/

namespace Tree

/-- How many leaves there are depends on the shape alone. -/
theorem length_stackLeaves {t : Tree} (s u : t.State) :
    (t.stackLeaves s).length = (t.stackLeaves u).length := by
  induction t with
  | fallback first second ihfirst ihsecond =>
    show (first.stackLeaves s.1 ++ second.stackLeaves s.2).length
      = (first.stackLeaves u.1 ++ second.stackLeaves u.2).length
    rw [List.length_append, List.length_append, ihfirst s.1 u.1, ihsecond s.2 u.2]
  | _ => rfl

/-- A tree of stacks and heaps is its leaves: states are paired if the leaves of one are those of
    the other under a map. -/
theorem paired_of_map {R : Stack → Stack → Prop} {f : Stack → Stack} {t : Tree} (ht : t.Unbudgeted)
    {s u : t.State} (hmap : t.stackLeaves u = (t.stackLeaves s).map f)
    (hR : ∀ st ∈ t.stackLeaves s, R st (f st)) : t.Paired R s u := by
  induction t with
  | stack =>
    obtain ⟨rfl, -⟩ := List.cons.inj hmap
    exact hR s List.mem_cons_self
  | heap => trivial
  | budget => exact ht.elim
  | fallback first second ihfirst ihsecond =>
    obtain ⟨s, s'⟩ := s
    obtain ⟨u, u'⟩ := u
    have hboth := hmap.trans List.map_append
    have hlength := (first.length_stackLeaves u s).trans (List.length_map f).symm
    obtain ⟨hleft, hright⟩ := List.append_inj hboth hlength
    exact ⟨ihfirst ht.1 hleft fun st hst => hR st (List.mem_append_left _ hst),
      ihsecond ht.2 hright fun st hst => hR st (List.mem_append_right _ hst)⟩

/-- The leaves of twins are the same under the new serials. -/
theorem Twins.leaves_eq {t : Tree} {s u : t.State} (hsu : t.Twins ρ n s u) :
    t.stackLeaves u = (t.stackLeaves s).map (Stack.renumber ρ) := by
  induction t with
  | stack => exact congrArg (fun st => [st]) hsu.eq
  | heap => rfl
  | budget => rfl
  | fallback first second ihfirst ihsecond =>
    obtain ⟨s, s'⟩ := s
    obtain ⟨u, u'⟩ := u
    show first.stackLeaves u ++ second.stackLeaves u' = _
    rw [ihfirst hsu.1, ihsecond hsu.2]
    exact List.map_append.symm

end Tree

namespace Venture

variable {t : Tree} {v v' : Venture t}

/-- `Renumbered ρ j j' v v'`: two ventures that are the same under other serials; the journals were
    `j` and `j'` at some time and have had the same notes added since. -/
structure Renumbered (ρ : Renumbering) (j j' : List Note) (v v' : Venture t) : Prop where
  leaves : v'.leaves = v.leaves.map (Stack.renumber ρ)
  markers : v'.markers = v.markers.map (Marker.renumber ρ)
  host : Host.Beside j j' v.host v'.host

/-- `Twins ρ n j j' v v'`: ventures that are the same under other serials, for `n` moves to come. -/
structure Twins (ρ : Renumbering) (n : Nat) (j j' : List Note) (v v' : Venture t) : Prop where
  state : t.Twins ρ n v.state v'.state
  markers : v'.markers = v.markers.map (Marker.renumber ρ)
  host : Host.Beside j j' v.host v'.host

namespace Twins

theorem renumbered (hv : Twins ρ n j j' v v') : Renumbered ρ j j' v v' :=
  ⟨hv.state.leaves_eq, hv.markers, hv.host⟩

/-- What alike ends capture is the same under other serials. -/
theorem captured_eq {out out' : Except Fault Response}
    (hends : Ends (fun x y => y = x.renumber ρ) out out') :
    captured out' = (captured out).map (Marker.renumber ρ) := by
  cases hends with
  | ok heq =>
    subst heq
    rename_i x
    cases x <;> rfl
  | error => rfl

/-- **A move** leads from twins to twins, and comes to the same. -/
theorem step (ht : t.Unbudgeted) (hv : Twins ρ (n + 1) j j' v v') (d : Move) :
    Ends (fun x y => y = x.renumber ρ) (v.act p d).1 (v'.act p d).1 ∧
      Twins ρ n j j' (v.step p d) (v'.step p d) := by
  have hagree : Agree (Both (t.Twins ρ (n + 1)) (Beside j j')) (Both (t.Twins ρ n) (Beside j j'))
      (fun x y => y = x.renumber ρ) (d.action p t v.markers) (d.action p t v'.markers) :=
    hv.markers ▸ Move.agree ht d v.markers
  obtain ⟨hends, hstate, hhost⟩ := hagree.after (⟨hv.state, hv.host⟩ :
    Both (t.Twins ρ (n + 1)) (Beside j j') (v.state, v.host) (v'.state, v'.host))
  refine ⟨hends, hstate, ?_, hhost⟩
  exact (congrArg₂ (· ++ ·) hv.markers (captured_eq hends)).trans List.map_append.symm

/-- **A run** leads from twins to twins, and comes to the same. -/
theorem run (ht : t.Unbudgeted) {later : List Move} (hv : Twins ρ later.length j j' v v') :
    List.Forall₂ (Ends fun x y => y = x.renumber ρ) (v.responses p later) (v'.responses p later) ∧
      Twins ρ 0 j j' (v.run p later) (v'.run p later) := by
  induction later generalizing v v' with
  | nil => exact ⟨.nil, hv⟩
  | cons d later ih =>
    obtain ⟨hends, hnext⟩ := hv.step (p := p) ht d
    obtain ⟨hrest, hlast⟩ := ih hnext
    exact ⟨.cons hends hrest, hlast⟩

end Twins

end Venture

/-! ## Moves that miss -/

namespace Venture

/-- An address that came of a request is what the move came to. -/
theorem Response.eq_of_address? {out : Except Fault Response} {address : Nat}
    (hserved : out.map Response.address? = .ok (some address)) : out = .ok (.address address) := by
  rcases out with f | x
  · nomatch hserved
  · cases x with
    | address a =>
      cases hserved
      rfl
    | _ => nomatch hserved

/-- What is asked for at a part of a tree and comes to nothing is a miss for the tree. -/
theorem atPart_missed {t : Tree} (ht : t.Unbudgeted) (path : List Side) {s : t.State} {h : Host}
    (hfit : ∀ st ∈ t.stackLeaves s, st.Fit p gap h) {a : (u : Tree) → Action u.State Response}
    (ha : ∀ u : Tree, u.Unbudgeted → ∀ x : u.State, (∀ st ∈ u.stackLeaves x, st.Fit p gap h) →
      (∀ address, (Action.after (a u) (x, h)).1 ≠ .ok (.address address)) →
      Missed p (u.stackLeaves x) h (u.stackLeaves (Action.after (a u) (x, h)).2.1)
        (Action.after (a u) (x, h)).2.2)
    (hfailed : ∀ address, (Action.after (t.atPart path a) (s, h)).1 ≠ .ok (.address address)) :
    Missed p (t.stackLeaves s) h (t.stackLeaves (Action.after (t.atPart path a) (s, h)).2.1)
      (Action.after (t.atPart path a) (s, h)).2.2 := by
  unfold Tree.atPart at hfailed ⊢
  cases hpart : t.part? path with
  | none => exact .untouched
  | some q =>
    obtain ⟨left, right, hleaves, hput⟩ := Tree.part?_leaves hpart s
    rw [hpart] at hfailed
    dsimp only at hfailed ⊢
    rw [Action.after_zoom] at hfailed ⊢
    rw [hput, hleaves]
    refine (ha q.shape (Tree.part?_unbudgeted ht hpart) (q.get s) ?_ hfailed).append left right
    intro st hst
    refine hfit st ?_
    rw [hleaves]
    exact List.mem_append_left _ (List.mem_append_right _ hst)

/-- A request to the current block of a stack that misses has done nothing. -/
theorem Chore.missed (markers : List Marker) {r : Request} {s : Stack} {h : Host}
    (hfit : s.Fit p gap h) (hfailed : ∀ address,
      (Action.after (Chore.action p markers (.tryAllocate r)) (s, h)).1 ≠ .ok (.address address)) :
    Missed p [s] h [(Action.after (Chore.action p markers (.tryAllocate r)) (s, h)).2.1]
      (Action.after (Chore.action p markers (.tryAllocate r)) (s, h)).2.2 := by
  rw [action, Action.after_map] at hfailed ⊢
  rcases Stack.tryAllocate_ends (p := p) (r := r) (h := h) hfit.settled.wellFormed with
    hbump | ⟨-, hrun⟩
  · generalize Action.after (Stack.tryAllocate p r) (s, h) = last at hbump hfailed ⊢
    obtain ⟨out, s', h'⟩ := last
    have hnothing : ∀ address, out ≠ .ok (some address) := by
      rintro address rfl
      exact hfailed address rfl
    obtain ⟨rfl, rfl⟩ := hbump.missed hfit hnothing
    exact .untouched
  · rw [Action.after_of_error hrun]
    exact .untouched

/-- **A move that asks for something and comes to nothing** has left a serial behind at most. -/
theorem Move.missed (hp : p.Sound gap) {t : Tree} (ht : t.Unbudgeted) {d : Move} {r : Request}
    (hd : d.request? = some r)
    (hvalid : p.build = .debug ∨ Alignment.isValid r.alignment = true) {markers : List Marker}
    {s : t.State} {h : Host} (hfit : ∀ st ∈ t.stackLeaves s, st.Fit p gap h)
    (hfailed : ∀ address,
      (Action.after (d.action p t markers) (s, h)).1 ≠ .ok (.address address)) :
    Missed p (t.stackLeaves s) h (t.stackLeaves (Action.after (d.action p t markers) (s, h)).2.1)
      (Action.after (d.action p t markers) (s, h)).2.2 := by
  cases d with
  | ask path w e =>
    cases hd
    refine atPart_missed ht path hfit (a := fun u => w.inquire (u.provider p) r)
      (fun u hu x hfit hfailed => ?_) hfailed
    refine Tree.ask_missed hp hu hvalid hfit (w.after_ask (u.provider p) r (x, h)) ?_
    exact fun address hserved => hfailed address (Response.eq_of_address? hserved)
  | chore path c =>
    cases c with
    | tryAllocate e =>
      refine atPart_missed ht path hfit
        (a := Tree.onStack (Chore.action p markers (.tryAllocate e)))
        (fun u _ x hfit hfailed => ?_) hfailed
      cases u with
      | stack =>
        have hown := hfit x List.mem_cons_self
        exact Chore.missed markers hown hfailed
      | _ => exact .untouched
    | _ => cases hd
  | _ => cases hd

/-- It has captured nothing. -/
theorem Move.captured_of_request {t : Tree} {d : Move} {r : Request} (hd : d.request? = some r)
    (markers : List Marker) (st : t.State × Host) :
    captured (Action.after (d.action p t markers) st).1 = [] := by
  have hpart : ∀ path (a : (u : Tree) → Action u.State Response),
      (∀ u st, captured (Action.after (a u) st).1 = []) →
      captured (Action.after (t.atPart path a) st).1 = [] := by
    intro path a ha
    unfold Tree.atPart
    cases t.part? path with
    | none => rfl
    | some q =>
      obtain ⟨s, h⟩ := st
      dsimp only
      rw [Action.after_zoom]
      exact ha q.shape (q.get s, h)
  cases d with
  | ask path w e => exact hpart path _ fun u st => captured_inquire (u.provider p) w e st
  | chore path c =>
    refine hpart path _ fun u st => ?_
    cases c with
    | tryAllocate e =>
      cases u with
      | stack => exact captured_map _ (fun x => by cases x <;> rfl) st
      | _ => rfl
    | _ => cases hd
  | _ => cases hd

end Venture

/-! ## Serials left out -/

namespace Renumbering

/-- The serials as they are. -/
def same : Renumbering := ⟨fun _ k => k, fun _ => strictMono_id⟩

variable {id other : AllocatorId} {k l : Nat}

/-- The serials of other stacks are as they are. -/
theorem skip_of_ne (hne : other ≠ id) (k l : Nat) : (skip id k).serial other l = l :=
  if_neg fun hlate => hne hlate.1

/-- So are the earlier ones. -/
theorem skip_of_lt (hlt : l < k) (id other : AllocatorId) : (skip id k).serial other l = l :=
  if_neg fun hlate => Nat.not_le.2 hlt hlate.2

/-- The serial itself and those after it are the next ones. -/
theorem skip_of_le (hle : k ≤ l) (id : AllocatorId) : (skip id k).serial id l = l + 1 :=
  if_pos ⟨rfl, hle⟩

theorem skip_le_succ (id other : AllocatorId) (k l : Nat) : (skip id k).serial other l ≤ l + 1 := by
  show (if other = id ∧ k ≤ l then l + 1 else l) ≤ l + 1
  split <;> omega

/-- From the one that is left out on, serials are one after the other. -/
theorem skip_succ (hlate : other = id → k ≤ l) :
    (skip id k).serial other (l + 1) = (skip id k).serial other l + 1 := by
  by_cases hid : other = id
  · subst hid
    have hle := hlate rfl
    rw [skip_of_le hle, skip_of_le (Nat.le_succ_of_le hle)]
  · rw [skip_of_ne hid, skip_of_ne hid]

end Renumbering

/-- A marker whose serial is as it was is the same. -/
theorem Marker.renumber_eq {m : Marker} (hm : ρ.serial m.stack m.serial = m.serial) :
    m.renumber ρ = m := by
  rw [renumber, hm]

namespace Stack

variable {s : Stack}

/-- A stack whose blocks go by the serials that they had is the same but for the next one. -/
theorem renumber_eq (hs : s.WellFormed)
    (hfixed : ∀ blk ∈ s.blocks, ρ.serial s.id blk.serial = blk.serial) :
    s.renumber ρ = { s with nextSerial := ρ.serial s.id s.nextSerial } := by
  have hblock : ∀ blk ∈ s.blocks, blk.renumber ρ s.id = blk := by
    intro blk hblk
    rw [Block.renumber, hfixed blk hblk]
  have hlist : ∀ blks : List Block, blks ⊆ s.blocks → blks.map (Block.renumber ρ s.id) = blks :=
    fun blks hblks => (List.map_congr_left fun blk hblk => hblock blk (hblks hblk)).trans
      (List.map_id blks)
  have hbelow := hlist s.below fun blk hblk => mem_blocks_of_active (List.mem_cons_of_mem _ hblk)
  have hcache := hlist s.cache fun blk hblk => mem_blocks_of_cache hblk
  have hbottom : s.bottom.renumber ρ = s.bottom := by
    obtain ⟨newer, oldest, hactive, hbottom⟩ := hs.rooted
    have hold : oldest ∈ s.blocks := by
      refine mem_blocks_of_active ?_
      rw [hactive]
      exact List.mem_append_right newer List.mem_cons_self
    rw [hbottom]
    exact Marker.renumber_eq (hfixed oldest hold)
  rw [renumber, hblock s.current s.current_mem_blocks, hbelow, hcache, hbottom]

theorem renumber_same (hs : s.WellFormed) : s.renumber .same = s := renumber_eq hs fun _ _ => rfl

/-- Another stack is the same when a serial is left out of one. -/
theorem renumber_skip_of_ne (hs : s.WellFormed) {id : AllocatorId} (hne : s.id ≠ id) (k : Nat) :
    s.renumber (.skip id k) = s := by
  rw [renumber_eq hs fun _ _ => Renumbering.skip_of_ne hne _ _, Renumbering.skip_of_ne hne]

variable {markers : List Marker}

/-- The stack whose next serial is left out has taken that serial. -/
theorem Issued.renumber_skip (hissued : s.Issued markers) (hs : s.WellFormed) :
    s.renumber (.skip s.id s.nextSerial) = { s with nextSerial := s.nextSerial + 1 } := by
  rw [renumber_eq hs fun blk hblk => Renumbering.skip_of_lt (hissued.blocks blk hblk) _ _,
    Renumbering.skip_of_le (Nat.le_refl _)]

/-- No marker goes by it. -/
theorem Issued.marker_renumber_skip (hissued : s.Issued markers) {m : Marker} (hm : m ∈ markers) :
    m.renumber (.skip s.id s.nextSerial) = m := by
  refine Marker.renumber_eq ?_
  by_cases hstack : m.stack = s.id
  · exact Renumbering.skip_of_lt (hissued.markers m hm hstack) _ _
  · exact Renumbering.skip_of_ne hstack _ _

/-- `Numbered p s s'`: the stack is as it was, but may have taken a serial. -/
def Numbered (p : Platform) (s s' : Stack) : Prop :=
  ∃ k, (k = s.nextSerial ∨ p.build.add s.nextSerial 1 = .ok k) ∧ s' = { s with nextSerial := k }

end Stack

namespace Missed

variable {ss ss' : List Stack} {h h' : Host}

/-- After a miss all stacks are as they were, but for serials that they have taken. -/
theorem leaves (hmissed : Missed p ss h ss' h') : List.Forall₂ (Stack.Numbered p) ss ss' := by
  have hsame : ∀ us : List Stack, List.Forall₂ (Stack.Numbered p) us us :=
    fun us => List.forall₂_same.2 fun s _ => ⟨s.nextSerial, Or.inl rfl, rfl⟩
  cases hmissed with
  | untouched => exact hsame ss
  | @numbered left right s _ _ k hserial =>
    exact List.rel_append (hsame left) (.cons ⟨k, Or.inr hserial, rfl⟩ (hsame right))

/-- The host is as it was, but for a note that a stack grows. -/
theorem host (hmissed : Missed p ss h ss' h') :
    ∃ notes, h' = { h with journal := h.journal ++ notes } ∧
      ∀ note ∈ notes, ∃ id capacity total required,
        note = .event (.growing id capacity total required) := by
  cases hmissed with
  | untouched => exact ⟨[], by rw [List.append_nil], nofun⟩
  | numbered =>
    refine ⟨_, rfl, fun note hnote => ?_⟩
    rw [List.mem_singleton.1 hnote]
    exact ⟨_, _, _, _, rfl⟩

/-- So it stands beside the one before. -/
theorem beside (hmissed : Missed p ss h ss' h') : Host.Beside h.journal h'.journal h h' := by
  obtain ⟨notes, rfl, -⟩ := hmissed.host
  exact ⟨rfl, rfl, rfl, [], (List.append_nil _).symm, (List.append_nil _).symm⟩

/-- **A miss leaves a serial out at most**: under the serials that are left the stacks are what they
    were, and so are the markers; and the serials to come are one after the other. -/
theorem renumbered {markers : List Marker} (hmissed : Missed p ss h ss' h')
    (ho : Orderly p gap n markers ss h) (hn : n + 1 < Word.max) :
    ∃ ρ : Renumbering, ss' = ss.map (Stack.renumber ρ) ∧ markers.map (Marker.renumber ρ) = markers ∧
      ∀ s ∈ ss, (∀ k, s.nextSerial ≤ k → ρ.serial s.id (k + 1) = ρ.serial s.id k + 1) ∧
        ρ.serial s.id s.nextSerial ≤ s.nextSerial + 1 := by
  have hwell : ∀ s ∈ ss, s.WellFormed := fun s hs => (ho.abreast.settled s hs).wellFormed
  -- A list stays if the renumbering keeps each of its elements.
  have hstay : ∀ {α : Type} {f : α → α} {xs : List α}, (∀ x ∈ xs, f x = x) → xs.map f = xs :=
    fun hf => (List.map_congr_left hf).trans (List.map_id _)
  cases hmissed with
  | untouched =>
    refine ⟨.same, (hstay fun s hs => Stack.renumber_same (hwell s hs)).symm, ?_, fun s _ => ?_⟩
    · exact hstay fun m _ => Marker.renumber_eq rfl
    · exact ⟨fun _ _ => rfl, Nat.le_succ _⟩
  | @numbered left right s _ _ k hserial =>
    have hmem : s ∈ left ++ s :: right := List.mem_append_right left List.mem_cons_self
    obtain ⟨hle, hissued⟩ := ho.issued (Nat.lt_of_succ_lt hn) s hmem
    have hk : k = s.nextSerial + 1 := by
      refine Stack.nextSerial_eq (Or.inr ?_) hserial
      have hmax : Word.max + 1 = Word.count := by decide
      omega
    subst hk
    have hdistinct := ho.distinct
    rw [List.map_append, List.map_cons, List.nodup_middle, List.nodup_cons, List.mem_append,
      not_or] at hdistinct
    obtain ⟨⟨hleft, hright⟩, -⟩ := hdistinct
    -- The other stacks go by other identities, so the serial that is left out is none of theirs.
    have hothers : ∀ us : List Stack, us ⊆ left ++ s :: right → s.id ∉ us.map Stack.id →
        us.map (Stack.renumber (.skip s.id s.nextSerial)) = us := by
      refine fun us hus hnone => hstay fun u hu => ?_
      have hne : u.id ≠ s.id := fun hid => hnone (hid ▸ List.mem_map_of_mem hu)
      exact Stack.renumber_skip_of_ne (hwell u (hus hu)) hne _
    refine ⟨.skip s.id s.nextSerial, ?_, hstay fun m hm => hissued.marker_renumber_skip hm, ?_⟩
    · rw [List.map_append, List.map_cons, hissued.renumber_skip (hwell s hmem),
        hothers left (List.subset_append_left _ _) hleft,
        hothers right (fun u hu => List.mem_append_right _ (List.mem_cons_of_mem _ hu)) hright]
    · refine fun u hu => ⟨fun k hk => Renumbering.skip_succ fun hid => ?_,
        Renumbering.skip_le_succ _ _ _ _⟩
      obtain rfl := ho.eq_of_id hu hmem hid
      exact hk

end Missed

/-! ## The aftermath -/

namespace Venture

/-- What a recipe makes on a host, if it can be followed. -/
def made? (p : Platform) (recipe : Recipe) (h : Host) : Option (Venture recipe.tree) :=
  match recipe.make p h with
  | .ok (.ok s) h => some ⟨h, s, []⟩
  | _ => none

/-- `v.Reached p gap n`: what a recipe makes on a host whose regions lie `gap` apart has come there
    in `n` moves, and is not at its end. -/
def Reached (p : Platform) (gap n : Nat) {recipe : Recipe} (v : Venture recipe.tree) : Prop :=
  ∃ h start ds, h.memory.Spaced gap ∧ made? p recipe h = some start ∧ .discard ∉ ds ∧
    ds.length = n ∧ v = start.run p ds

/-- What has been reached is orderly. -/
theorem Reached.orderly (hp : p.Sound gap) {recipe : Recipe} (ht : recipe.tree.Unbudgeted)
    {v : Venture recipe.tree} (hv : v.Reached p gap n) :
    Orderly p gap n v.markers v.leaves v.host := by
  obtain ⟨h, start, ds, hspaced, hmade, hds, rfl, rfl⟩ := hv
  have hstart : Orderly p gap 0 start.markers start.leaves start.host := by
    unfold made? at hmade
    split at hmade
    · rename_i s h' hrun
      cases hmade
      exact recipe.make_orderly hp ht hspaced hrun
    · cases hmade
  have hall := orderly_run hp ht hstart hds
  rwa [Nat.zero_add] at hall

/-- `Intact p v v'`: all stacks are as they were, with their blocks, cursors, caches and books, and
    so are the markers and the host, with every byte of memory and everything that was made and
    freed.  Stacks may have taken a serial, and have told that they grow. -/
structure Intact {t : Tree} (p : Platform) (v v' : Venture t) : Prop where
  leaves : List.Forall₂ (Stack.Numbered p) v.leaves v'.leaves
  markers : v'.markers = v.markers
  host : ∃ notes, v'.host = { v.host with journal := v.host.journal ++ notes } ∧
    ∀ note ∈ notes, ∃ id capacity total required,
      note = .event (.growing id capacity total required)

/-- **A request that comes to nothing leaves no trace but a serial**, in whatever way it is made and
    wherever in a tree of stacks and heaps, declined or stopped.  A debug build may ask for any
    alignment, a release build for a power of two.
    1. All stacks and the whole memory are as they were, and nothing was made or freed.
    2. Whatever is done later comes to what it would have come to, under one renumbering that keeps
       the order of the serials; faults are the same up to the serials that they show.  The moves
       are fewer than there are words, so that no stack comes to the end of its serials. -/
theorem failed_as_if_never (hp : p.Sound gap) {recipe : Recipe} (ht : recipe.tree.Unbudgeted)
    {v : Venture recipe.tree} (hv : v.Reached p gap n) {d : Move} {r : Request}
    (hd : d.request? = some r)
    (hvalid : p.build = .debug ∨ Alignment.isValid r.alignment = true)
    (hfailed : ∀ address, (v.act p d).1 ≠ .ok (.address address)) :
    Intact p v (v.step p d) ∧ ∃ ρ : Renumbering, ∀ later : List Move,
      n + later.length + 1 < Word.max →
        List.Forall₂ (Ends fun x y => y = x.renumber ρ) (v.responses p later)
          ((v.step p d).responses p later) ∧
        Renumbered ρ v.host.journal (v.step p d).host.journal (v.run p later)
          ((v.step p d).run p later) := by
  have ho := hv.orderly hp ht
  have hmissed : Missed p v.leaves v.host (v.step p d).leaves (v.step p d).host :=
    Move.missed hp ht hd hvalid ho.fit hfailed
  have hmarkers : (v.step p d).markers = v.markers :=
    (congrArg (v.markers ++ ·) (Move.captured_of_request hd v.markers _)).trans
      (List.append_nil _)
  refine ⟨⟨hmissed.leaves, hmarkers, hmissed.host⟩, ?_⟩
  by_cases hn : n + 1 < Word.max
  · obtain ⟨ρ, hleaves, hrenumbered, hserials⟩ := hmissed.renumbered ho hn
    refine ⟨ρ, fun later hlater => ?_⟩
    have hmax : Word.max + 1 = Word.count := by decide
    have hstate : recipe.tree.Twins ρ later.length v.state (v.step p d).state := by
      refine Tree.paired_of_map ht hleaves fun s hs => ?_
      obtain ⟨hsteady, hnext⟩ := hserials s hs
      have hle := (ho.issued (by omega) s hs).1
      exact ⟨rfl, rfl, hsteady, by omega⟩
    have htwins : Twins ρ later.length v.host.journal (v.step p d).host.journal v
        (v.step p d) := ⟨hstate, by rw [hmarkers, hrenumbered], hmissed.beside⟩
    obtain ⟨hresponses, hlast⟩ := htwins.run ht
    exact ⟨hresponses, hlast.renumbered⟩
  · exact ⟨.same, fun later hlater => absurd hlater (by omega)⟩

/-- Two stacks, one behind the other. -/
def twoStacks : Recipe := .fallback (.stack (.sized .debug 64)) (.stack (.sized .debug 32))

/-- A request for which no block can be made. -/
def tooLarge : Move := .ask [] ⟨false, none⟩ ⟨2 ^ 63, 16⟩

/-- A request for which the second stack grows, and its position then. -/
def growAndLook : List Move := [.ask [] ⟨false, none⟩ ⟨100, 16⟩, .chore [.second] .top]

/-- The second stack takes a serial for the request that is too large.  It serves the next one at
    the same address all the same, and is in the same position then, under the serial after it. -/
theorem failed_as_if_never_too_large :
    ∃ v : Venture twoStacks.tree, v.Reached (Session.platform .debug []) 1 0 ∧
      (∀ address, (v.act (Session.platform .debug []) tooLarge).1 ≠ .ok (.address address)) ∧
      v.leaves.map Stack.nextSerial = [1, 1] ∧
      (v.step (Session.platform .debug []) tooLarge).leaves.map Stack.nextSerial = [1, 2] ∧
      Intact (Session.platform .debug []) v (v.step (Session.platform .debug []) tooLarge) ∧
      ∃ ρ : Renumbering, List.Forall₂ (Ends fun x y => y = x.renumber ρ)
        (v.responses (Session.platform .debug []) growAndLook)
        ((v.step (Session.platform .debug []) tooLarge).responses (Session.platform .debug [])
          growAndLook) := by
  have hp : (Session.platform .debug []).Sound 1 :=
    Session.platform_sound .debug (by nofun) (by decide)
  have hall : ((made? (Session.platform .debug []) twoStacks .initial).map fun v =>
      ((v.act (Session.platform .debug []) tooLarge).1.toOption.isNone,
        v.leaves.map Stack.nextSerial,
        (v.step (Session.platform .debug []) tooLarge).leaves.map Stack.nextSerial))
      = some (true, [1, 1], [1, 2]) := by decide +kernel
  obtain ⟨v, hmade, hboth⟩ := Option.map_eq_some_iff.1 hall
  obtain ⟨hstopped, hserials⟩ := Prod.mk.inj hboth
  obtain ⟨hbefore, hafter⟩ := Prod.mk.inj hserials
  have hfailed : ∀ address,
      (v.act (Session.platform .debug []) tooLarge).1 ≠ .ok (.address address) := by
    intro address hserved
    rw [hserved] at hstopped
    cases hstopped
  have hv : v.Reached (Session.platform .debug []) 1 0 :=
    ⟨.initial, v, [], .empty 1, hmade, List.not_mem_nil, rfl, rfl⟩
  have ht : twoStacks.tree.Unbudgeted := ⟨trivial, trivial⟩
  obtain ⟨hintact, ρ, hlater⟩ :=
    failed_as_if_never hp ht hv (r := ⟨2 ^ 63, 16⟩) rfl (Or.inl rfl) hfailed
  exact ⟨v, hv, hfailed, hbefore, hafter, hintact, ρ, (hlater growAndLook (by decide)).1⟩

end Venture

end StackArena
