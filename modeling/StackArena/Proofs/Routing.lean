/-
  Where memory goes when it is given back.

  An **estate** is a tree of stacks that may end in a heap, with its host and what it has handed
  out: a **lease** for each address.  Clients ask the tree in any way, give leases back to it in any
  way, and work with the stacks at its leaves directly.

  A lease of the heap is live until it is given back, one of a stack as long as its block is active.

    leases    address, request    layout: the chunk that came to be    homes: the blocks in use

  1. Every estate that a run reaches is in order (`Upheld`): its stacks are neighbours, the regions
     of a lease are where they were, and the leases of the heap are live chunks, no two at one
     address.
  2. In an estate in order every live lease is given back to the leaf that served it
     (`Upheld.giveBack_eq`): a stack owns its addresses, those at the end of a block included, and
     nothing in a live chunk.
  3. Whatever is handed out is live at once, and reaches its leaf when it is given back
     (`giveBack_reaches_server`).
-/
import StackArena.Proofs.Neighbours

namespace StackArena

/-! ## Leases -/

/-- `Lease`: memory that a tree has handed out. -/
structure Lease where
  address : Nat
  /-- What was asked for, in all. -/
  request : Request
  /-- The layout of the chunk, if the heap served it. -/
  layout? : Option Layout
  /-- The regions of the blocks in use that the address lay in, or at the end of; one of these
      blocks served it, if the heap did not. -/
  homes : List Nat
deriving DecidableEq, Repr

namespace Lease

/-- The lease of an address that a tree has just handed out: a chunk that came to be meanwhile is
    what was handed out. -/
def new (address : Nat) (r : Request) (h h' : Host) (leaves : List Stack) : Lease where
  address
  request := r
  layout? := h'.memory.chunks[h.memory.chunks.length]?.map Extent.layout
  homes := ((leaves.map Stack.current).filter fun blk => blk.extent.spans address).map Block.region

/-- Whether a lease that was not given back to the heap is live. -/
def live (leaves : List Stack) (ℓ : Lease) : Bool :=
  ℓ.layout?.isSome || leaves.any fun s => s.active.any fun blk => ℓ.homes.contains blk.region

/-- What a leaf has just handed out is live. -/
theorem live_new {p : Platform} {gap : Nat} {r r' : Request} {heaped : Bool} {ss ss' : List Stack}
    {h h' : Host} {address : Nat} (hp : p.Sound gap) (hn : Neighbours gap ss h)
    (ha : Answers p r heaped ss h (.ok (some address), ss', h')) :
    (new address r' h h' ss').live ss' = true := by
  rw [live, Bool.or_eq_true]
  cases ha with
  | refused hnothing => exact absurd rfl (hnothing address)
  | @stack left right s s' _ _ _ hserves =>
    have hset := hn.settled s (List.mem_append_right left List.mem_cons_self)
    have hfresh := hserves.fresh hp hset
    have hcursor := (hserves.moves hp hset).settled.wellFormed.current_le
    have hlimit := hfresh.limit_le
    have hmem : s' ∈ left ++ s' :: right := List.mem_append_right left List.mem_cons_self
    have hspans : s'.current.extent.spans address = true := by
      rw [Extent.spans, Bool.and_eq_true, decide_eq_true_iff, decide_eq_true_iff]
      refine ⟨hfresh.base_le, ?_⟩
      show address ≤ s'.current.base + s'.current.capacity
      omega
    refine Or.inr (List.any_eq_true.2 ⟨s', hmem, List.any_eq_true.2 ⟨_, s'.current_mem_active, ?_⟩⟩)
    rw [List.contains_iff_mem]
    exact List.mem_map_of_mem (List.mem_filter.2 ⟨List.mem_map_of_mem hmem, hspans⟩)
  | heap hheap hends =>
    refine Or.inl ?_
    cases hends with
    | served hlayout hplace =>
      show (((h.memory.chunks ++ [_])[h.memory.chunks.length]?).map Extent.layout).isSome = true
      rw [List.getElem?_concat_length]
      rfl
    | nothing hnothing => exact absurd rfl (hnothing address)

end Lease

/-! ## Estates and runs -/

/-- `Estate t`: an allocator of shape `t`, its host, and what it has handed out, latest first. -/
structure Estate (t : Tree) where
  host : Host
  state : t.State
  leases : List Lease

/-- `Errand`: one thing that clients do with an allocator. -/
inductive Errand where
  | ask (w : Way) (r : Request)
  /-- Give back a live lease, whose bytes a way and a request must come to. -/
  | giveBack (lease : Nat) (w : Way) (r : Request)
  /-- Work with the stack at a leaf. -/
  | direct (path : List Side) (d : Direct)
deriving DecidableEq, Repr

namespace Estate

variable {t : Tree}

/-- The stacks of an estate, from left to right. -/
def leaves (e : Estate t) : List Stack := t.stackLeaves e.state

/-- The tree is asked. -/
def ask (p : Platform) (w : Way) (r : Request) (e : Estate t) : Estate t :=
  match Action.after (w.ask (t.provider p) r) (e.state, e.host) with
  | (.ok (some address), s, h) =>
    let ℓ := Lease.new address ((w.request? r).getD r) e.host h (t.stackLeaves s)
    ⟨h, s, ℓ :: e.leases⟩
  | (_, s, h) => ⟨h, s, e.leases⟩

/-- A lease is given back to the tree; one of the heap has come to its end then. -/
def giveBack (p : Platform) (k : Nat) (w : Way) (r : Request) (e : Estate t) : Estate t :=
  match e.leases[k]? with
  | some ℓ =>
    if ℓ.live e.leaves ∧ w.request? r = some ℓ.request then
      let (_, s, h) := Action.after (w.giveBack (t.provider p) ℓ.address r) (e.state, e.host)
      ⟨h, s, if ℓ.layout?.isSome then e.leases.eraseIdx k else e.leases⟩
    else e
  | none => e

/-- The stack at a leaf is worked with. -/
def direct (p : Platform) (path : List Side) (d : Direct) (e : Estate t) : Estate t :=
  match t.part? path with
  | some ⟨.stack, get, put⟩ =>
    let (s, h) := d.run p (get e.state, e.host)
    ⟨h, put s e.state, e.leases⟩
  | _ => e

/-- One errand. -/
def step (p : Platform) (e : Estate t) : Errand → Estate t
  | .ask w r => e.ask p w r
  | .giveBack k w r => e.giveBack p k w r
  | .direct path d => e.direct p path d

/-- A run: errands one after the other. -/
def run (p : Platform) (e : Estate t) (es : List Errand) : Estate t := es.foldl (step p) e

/-- The estate that a recipe makes at the start of a program, if it can be followed. -/
def made? (p : Platform) (recipe : Recipe) : Option (Estate recipe.tree) :=
  match recipe.make p Host.initial with
  | .ok (.ok s) h => some ⟨h, s, []⟩
  | _ => none

/-- `e.Reachable p recipe`: a run leads to the estate from one that the recipe makes. -/
def Reachable (p : Platform) (recipe : Recipe) (e : Estate recipe.tree) : Prop :=
  ∃ start es, made? p recipe = some start ∧ e = start.run p es

/-! ## Estates in order -/

/-- `Upheld gap e`: the stacks are neighbours, and every lease has what it was given. -/
structure Upheld (gap : Nat) (e : Estate t) : Prop where
  neighbours : Neighbours gap e.leaves e.host
  housed : ∀ ℓ ∈ e.leases, ∀ n ∈ ℓ.homes, ∃ x, e.host.memory.extent? n = some x ∧
    x.base ≤ ℓ.address ∧ ℓ.address ≤ x.limit
  served : ∀ ℓ ∈ e.leases, ∀ l, ℓ.layout? = some l →
    ⟨ℓ.address, l, true⟩ ∈ e.host.memory.chunks ∧ Heap.layout ℓ.request = .ok l ∧
      t.hasHeap = true
  distinct : e.leases.Pairwise fun ℓ ℓ' => ℓ.layout?.isSome → ℓ'.layout?.isSome →
    ℓ.address ≠ ℓ'.address

variable {p : Platform} {gap : Nat} {e : Estate t}

/-- Leases are kept while regions stay where they are and chunks stay as they are. -/
theorem Upheld.carry (hu : e.Upheld gap) {s : t.State} {h : Host}
    (hn : Neighbours gap (t.stackLeaves s) h) (hages : e.host.memory.Ages h.memory)
    (hchunks : e.host.memory.chunks ⊆ h.memory.chunks) :
    (⟨h, s, e.leases⟩ : Estate t).Upheld gap := by
  refine ⟨hn, ?_, ?_, hu.distinct⟩
  · intro ℓ hℓ n hhome
    obtain ⟨x, hx, hlo, hhi⟩ := hu.housed ℓ hℓ n hhome
    obtain ⟨live, hx'⟩ := hages n x hx
    exact ⟨_, hx', hlo, hhi⟩
  · intro ℓ hℓ l hl
    obtain ⟨hmem, hrest⟩ := hu.served ℓ hℓ l hl
    exact ⟨hchunks hmem, hrest⟩

/-! ## Asking -/

/-- What has just been handed out is kept with the rest. -/
theorem Upheld.handed (hu : e.Upheld gap) {ℓ : Lease}
    (hhomes : ∀ n ∈ ℓ.homes, ∃ x, e.host.memory.extent? n = some x ∧ x.base ≤ ℓ.address ∧
      ℓ.address ≤ x.limit)
    (hserved : ∀ l, ℓ.layout? = some l → ⟨ℓ.address, l, true⟩ ∈ e.host.memory.chunks ∧
      Heap.layout ℓ.request = .ok l ∧ t.hasHeap = true)
    (hother : ∀ old ∈ e.leases, ℓ.layout?.isSome → old.layout?.isSome →
      ℓ.address ≠ old.address) :
    ({ e with leases := ℓ :: e.leases } : Estate t).Upheld gap := by
  refine ⟨hu.neighbours, ?_, ?_, List.pairwise_cons.2 ⟨hother, hu.distinct⟩⟩
  · intro old hold
    rcases List.mem_cons.1 hold with rfl | hold
    · exact hhomes
    · exact hu.housed old hold
  · intro old hold
    rcases List.mem_cons.1 hold with rfl | hold
    · exact hserved
    · exact hu.served old hold

/-- The blocks in use that an address lies in are where their regions are. -/
theorem Upheld.homes_new (hu : e.Upheld gap) (address : Nat) (r : Request) (h : Host) :
    ∀ n ∈ (Lease.new address r h e.host e.leaves).homes,
      ∃ x, e.host.memory.extent? n = some x ∧ x.base ≤ address ∧ address ≤ x.limit := by
  intro n hn
  obtain ⟨blk, hblk, rfl⟩ := List.mem_map.1 hn
  obtain ⟨hcurrent, hspans⟩ := List.mem_filter.1 hblk
  obtain ⟨s, hs, rfl⟩ := List.mem_map.1 hcurrent
  rw [Extent.spans, Bool.and_eq_true, decide_eq_true_iff, decide_eq_true_iff] at hspans
  exact ⟨_, (hu.neighbours.settled s hs).lodged.housed _ s.current_mem_blocks, hspans⟩

/-- **Asking keeps an estate in order.** -/
theorem Upheld.ask (hp : p.Sound gap) (hc : p.Parted) (ht : t.Routed) (hu : e.Upheld gap) (w : Way)
    (r : Request) : (e.ask p w r).Upheld gap := by
  obtain ⟨out, s', h', hrun, hanswers⟩ :=
    Tree.ask_answers hp ht.unbudgeted w r e.state e.host hu.neighbours.settled
  obtain ⟨hn, hages, hchunks⟩ := hanswers.neighbours hp hc hu.neighbours
  rw [Estate.ask, hrun]
  have hkept : (⟨h', s', e.leases⟩ : Estate t).Upheld gap := by
    refine hu.carry hn hages ?_
    rcases hchunks with hsame | ⟨base, l, happend, -⟩
    · exact fun c hmem => hsame ▸ hmem
    · exact fun c hmem => happend ▸ List.mem_append_left _ hmem
  rcases out with f | (_ | address)
  · exact hkept
  · exact hkept
  · refine hkept.handed (hkept.homes_new address _ e.host) ?_ ?_
    · intro l hl
      rcases hchunks with hsame | ⟨base, l', happend, hout, hlayout, hheap, -⟩
      · rw [Lease.new, hsame, List.getElem?_eq_none (Nat.le_refl _)] at hl
        nomatch hl
      · cases hout
        rw [Lease.new, happend, List.getElem?_concat_length] at hl
        cases hl
        refine ⟨?_, hlayout, hheap⟩
        show _ ∈ h'.memory.chunks
        rw [happend]
        exact List.mem_append_right _ List.mem_cons_self
    · intro old hold hnew hserved
      rcases hchunks with hsame | ⟨base, l', happend, hout, hlayout, hheap, hplace⟩
      · rw [Lease.new, hsame, List.getElem?_eq_none (Nat.le_refl _)] at hnew
        nomatch hnew
      · cases hout
        obtain ⟨l, hl⟩ := Option.isSome_iff_exists.1 hserved
        have hmem := (hu.served old hold l hl).1
        exact (hu.neighbours.parted.base_ne hc (Heap.layout_size hlayout) hplace hmem rfl).symm

/-! ## Giving back -/

/-- A live lease of a stack lies in an active block, or at the end of one. -/
theorem Upheld.covers (hu : e.Upheld gap) {ℓ : Lease} (hℓ : ℓ ∈ e.leases)
    (hlive : ℓ.live e.leaves = true) (hnone : ℓ.layout? = none) :
    t.covers e.state ℓ.address = true := by
  rw [Lease.live, hnone, Option.isSome_none, Bool.false_or, List.any_eq_true] at hlive
  obtain ⟨s, hs, hany⟩ := hlive
  obtain ⟨blk, hblk, hhome⟩ := List.any_eq_true.1 hany
  obtain ⟨x, hx, hlo, hhi⟩ := hu.housed ℓ hℓ blk.region (List.contains_iff_mem.1 hhome)
  have hblock := (hu.neighbours.settled s hs).lodged.housed blk (Stack.mem_blocks_of_active hblk)
  rw [hblock] at hx
  cases hx
  exact Tree.covers_iff.2 ⟨s, hs, Stack.covers_iff.2 ⟨blk, hblk, hlo, hhi⟩⟩

/-- A live lease of the heap lies in no active block, and at the end of none. -/
theorem Upheld.not_covers (hu : e.Upheld gap) {ℓ : Lease} (hℓ : ℓ ∈ e.leases) {l : Layout}
    (hl : ℓ.layout? = some l) : t.covers e.state ℓ.address = false := by
  obtain ⟨hmem, -⟩ := hu.served ℓ hℓ l hl
  rw [Bool.eq_false_iff]
  intro hcovers
  obtain ⟨s, hs, hown⟩ := Tree.covers_iff.1 hcovers
  obtain ⟨blk, hblk, hlo, hhi⟩ := Stack.covers_iff.1 hown
  have hblock := (hu.neighbours.settled s hs).lodged.housed blk (Stack.mem_blocks_of_active hblk)
  rcases hu.neighbours.parted.apart _ hmem rfl _ _ hblock rfl with hbelow | habove
  · have : blk.base + blk.capacity < ℓ.address := hbelow
    omega
  · have : ℓ.address + l.size < blk.base := habove
    omega

/-- **In an estate in order a live lease is given back to the leaf that served it**, in any way:
    nothing comes of it if that is a stack, and the heap takes back what it has served. -/
theorem Upheld.giveBack_eq (ht : t.Routed) (hu : e.Upheld gap) {ℓ : Lease} (hℓ : ℓ ∈ e.leases)
    (hlive : ℓ.live e.leaves = true) {w : Way} {r : Request} (hw : w.request? r = some ℓ.request) :
    w.giveBack (t.provider p) ℓ.address r (e.state, e.host)
      = .ok true (e.state, match ℓ.layout? with
        | none => e.host
        | some l => e.host.withoutChunk ℓ.address l) := by
  have hs : ∀ st ∈ t.stackLeaves e.state, st.WellFormed := fun st hst =>
    (hu.neighbours.settled st hst).wellFormed
  rw [Tree.giveBack_eq p t ℓ.address hw]
  cases hl : ℓ.layout? with
  | none =>
    exact Tree.giveBack_covered p ht w.fallible e.state e.host hs (hu.covers hℓ hlive hl) ℓ.request
  | some l =>
    obtain ⟨-, hlayout, hheap⟩ := hu.served ℓ hℓ l hl
    exact Tree.giveBack_uncovered p ht hheap w.fallible e.state e.host hs (hu.not_covers hℓ hl)
      hlayout

/-- No other lease of the heap is at the address of one. -/
theorem Upheld.address_ne (hu : e.Upheld gap) {k : Nat} {ℓ ℓ' : Lease}
    (hk : e.leases[k]? = some ℓ) (hother : ℓ' ∈ e.leases.eraseIdx k)
    (hserved : ℓ.layout?.isSome) (hserved' : ℓ'.layout?.isSome) : ℓ'.address ≠ ℓ.address := by
  obtain ⟨i, hi, hne, rfl⟩ := List.mem_eraseIdx_iff_getElem.1 hother
  obtain ⟨hk', rfl⟩ := List.getElem?_eq_some_iff.1 hk
  have hall := List.pairwise_iff_getElem.1 hu.distinct
  rcases Nat.lt_or_gt_of_ne hne with hlt | hgt
  · exact hall i k hi hk' hlt hserved' hserved
  · exact (hall k i hk' hi hgt hserved hserved').symm

/-- **Giving back keeps an estate in order.** -/
theorem Upheld.giveBack (ht : t.Routed) (hu : e.Upheld gap) (k : Nat) (w : Way) (r : Request) :
    (e.giveBack p k w r).Upheld gap := by
  rw [Estate.giveBack]
  cases hk : e.leases[k]? with
  | none => exact hu
  | some ℓ =>
    dsimp only
    split
    · rename_i hboth
      obtain ⟨hlive, hw⟩ := hboth
      have hℓ := List.mem_of_getElem? hk
      have hrun := hu.giveBack_eq (p := p) ht hℓ hlive hw
      rw [Action.after_of_ok hrun]
      cases hl : ℓ.layout? with
      | none => exact hu
      | some l =>
        refine ⟨hu.neighbours.of_chunks (hu.neighbours.parted.freeChunk ℓ.address), ?_, ?_,
          hu.distinct.sublist (List.eraseIdx_sublist e.leases k)⟩
        · intro old hold
          exact hu.housed old (List.mem_of_mem_eraseIdx hold)
        · intro old hold l' hl'
          obtain ⟨hmem, hrest⟩ := hu.served old (List.mem_of_mem_eraseIdx hold) l' hl'
          refine ⟨(Memory.mem_freeChunk rfl).2 ⟨hmem, ?_⟩, hrest⟩
          exact hu.address_ne hk hold (by rw [hl]; rfl) (by rw [hl']; rfl)
    · exact hu

/-! ## Working with a leaf -/

/-- **Working with a leaf keeps an estate in order.** -/
theorem Upheld.direct (hp : p.Sound gap) (hc : p.Parted) (hu : e.Upheld gap) (path : List Side)
    (d : Direct) : (e.direct p path d).Upheld gap := by
  unfold Estate.direct
  split
  · rename_i get put hpart
    obtain ⟨left, right, hleaves, hput⟩ := Tree.part?_stack hpart e.state
    have hn := hu.neighbours
    rw [Estate.leaves, hleaves] at hn
    have hset := hn.settled _ (List.mem_append_right left List.mem_cons_self)
    obtain ⟨hn', hages, hchunks⟩ := hn.change hp hc (d.change hp hset)
    have hkept : e.host.memory.chunks ⊆ (d.run p (get e.state, e.host)).2.memory.chunks := by
      rw [hchunks]
      exact List.Subset.refl _
    refine hu.carry ?_ hages hkept
    rw [hput]
    exact hn'
  · exact hu

/-! ## Every estate of a run -/

theorem Upheld.step (hp : p.Sound gap) (hc : p.Parted) (ht : t.Routed) {e : Estate t}
    (hu : e.Upheld gap) (errand : Errand) : (e.step p errand).Upheld gap := by
  cases errand with
  | ask w r => exact hu.ask hp hc ht w r
  | giveBack k w r => exact hu.giveBack ht k w r
  | direct path d => exact hu.direct hp hc path d

theorem Upheld.run (hp : p.Sound gap) (hc : p.Parted) (ht : t.Routed) {e : Estate t}
    (hu : e.Upheld gap) (es : List Errand) : (e.run p es).Upheld gap := by
  induction es generalizing e with
  | nil => exact hu
  | cons errand es ih => exact ih (hu.step hp hc ht errand)

/-- Every estate that a run reaches is in order. -/
theorem Reachable.upheld (hp : p.Sound gap) (hc : p.Parted) {recipe : Recipe}
    (ht : recipe.tree.Routed) {e : Estate recipe.tree} (he : e.Reachable p recipe) :
    e.Upheld gap := by
  obtain ⟨start, es, hmade, rfl⟩ := he
  refine Upheld.run hp hc ht ?_ es
  unfold made? at hmade
  split at hmade
  · rename_i s h hrun
    cases hmade
    have hn := recipe.make_neighbours hp hc ht.unbudgeted (.empty gap) .empty hrun
    exact ⟨hn, nofun, nofun, List.Pairwise.nil⟩
  · nomatch hmade

/-- **What a tree hands out is live at once.** -/
theorem live_of_asked (hp : p.Sound gap) (hc : p.Parted) {recipe : Recipe}
    (ht : recipe.tree.Routed) {e : Estate recipe.tree} (he : e.Reachable p recipe) {w : Way}
    {r : Request} {address : Nat} {s : recipe.tree.State} {h : Host}
    (hrun : Action.after (w.ask (recipe.tree.provider p) r) (e.state, e.host)
      = (.ok (some address), s, h)) :
    (Lease.new address ((w.request? r).getD r) e.host h (recipe.tree.stackLeaves s)).live
      (recipe.tree.stackLeaves s) = true := by
  have hn := (he.upheld hp hc ht).neighbours
  obtain ⟨out, s', h', hrun', hanswers⟩ := Tree.ask_answers hp ht.unbudgeted w r e.state e.host
    hn.settled
  cases hrun.symm.trans hrun'
  exact Lease.live_new hp hn hanswers

/-- **What is given back reaches the leaf that served it.**  In every estate that a run reaches, a
    live lease is taken back in every way that comes to its bytes, and no stack is changed.  If a
    stack served it, nothing happens at all; if the heap did, it takes back one chunk, which is
    still there, in the layout in which it was served. -/
theorem giveBack_reaches_server (hp : p.Sound gap) (hc : p.Parted) {recipe : Recipe}
    (ht : recipe.tree.Routed) {e : Estate recipe.tree} (he : e.Reachable p recipe) {ℓ : Lease}
    (hℓ : ℓ ∈ e.leases) (hlive : ℓ.live e.leaves = true) {w : Way} {r : Request}
    (hw : w.request? r = some ℓ.request) :
    (ℓ.layout? = none → w.giveBack (recipe.tree.provider p) ℓ.address r (e.state, e.host)
      = .ok true (e.state, e.host)) ∧
    ∀ l, ℓ.layout? = some l → w.giveBack (recipe.tree.provider p) ℓ.address r (e.state, e.host)
      = .ok true (e.state, e.host.withoutChunk ℓ.address l) ∧
      ⟨ℓ.address, l, true⟩ ∈ e.host.memory.chunks := by
  have hu := he.upheld hp hc ht
  have hrun := hu.giveBack_eq (p := p) ht hℓ hlive hw
  constructor
  · intro hnone
    rw [hnone] at hrun
    exact hrun
  · intro l hl
    rw [hl] at hrun
    exact ⟨hrun, (hu.served ℓ hℓ l hl).1⟩

/-- Two stacks in front of a heap. -/
def chain : Recipe :=
  .fallback (.stack (.sized .debug 64)) (.fallback (.stack (.sized .debug 32)) .heap)

/-- An array that fills the block of the first stack, one of no elements, which ends up at the end
    of that block, and a request that is too large for both stacks. -/
def threeRequests : List Errand :=
  [.ask ⟨true, some 8⟩ ⟨8, 8⟩, .ask ⟨false, some 0⟩ ⟨8, 8⟩, .ask ⟨false, none⟩ ⟨100, 16⟩]

/-- The array of no elements is given back to the stack, and the large piece, as an array, to the
    heap. -/
theorem giveBack_reaches_server_both :
    ∃ e : Estate chain.tree, e.Reachable (Session.platform .debug []) chain ∧
      e.leases = [⟨131616, ⟨100, 16⟩, some ⟨100, 16⟩, []⟩, ⟨65600, ⟨0, 8⟩, none, [0]⟩,
        ⟨65536, ⟨64, 8⟩, none, [0]⟩] ∧
      Way.giveBack (chain.tree.provider (Session.platform .debug [])) 65600 ⟨8, 8⟩ ⟨false, some 0⟩
        (e.state, e.host) = .ok true (e.state, e.host) ∧
      Way.giveBack (chain.tree.provider (Session.platform .debug [])) 131616 ⟨25, 16⟩
        ⟨true, some 4⟩ (e.state, e.host)
        = .ok true (e.state, e.host.withoutChunk 131616 ⟨100, 16⟩) := by
  have hp : (Session.platform .debug []).Sound 1 :=
    Session.platform_sound .debug (by nofun) (by decide)
  have hc := Session.platform_parted .debug []
  have ht : chain.tree.Routed := ⟨trivial, trivial, trivial⟩
  have hleases : ((made? (Session.platform .debug []) chain).map fun start =>
      let e := start.run (Session.platform .debug []) threeRequests
      (e.leases, e.leases.all (Lease.live e.leaves)))
      = some ([⟨131616, ⟨100, 16⟩, some ⟨100, 16⟩, []⟩, ⟨65600, ⟨0, 8⟩, none, [0]⟩,
        ⟨65536, ⟨64, 8⟩, none, [0]⟩], true) := by decide +kernel
  obtain ⟨start, hmade, hboth⟩ := Option.map_eq_some_iff.1 hleases
  dsimp only at hboth
  generalize hrun : start.run (Session.platform .debug []) threeRequests = e at hboth
  obtain ⟨hleases, hall⟩ := Prod.mk.inj hboth
  have he : e.Reachable (Session.platform .debug []) chain :=
    ⟨start, threeRequests, hmade, hrun.symm⟩
  have hlive := List.all_eq_true.1 hall
  have hserved : ⟨131616, ⟨100, 16⟩, some ⟨100, 16⟩, []⟩ ∈ e.leases := by
    rw [hleases]
    exact List.mem_cons_self
  have hend : ⟨65600, ⟨0, 8⟩, none, [0]⟩ ∈ e.leases := by
    rw [hleases]
    exact List.mem_cons_of_mem _ List.mem_cons_self
  refine ⟨e, he, hleases, ?_, ?_⟩
  · exact (giveBack_reaches_server hp hc ht he hend (hlive _ hend) (by decide)).1 rfl
  · exact ((giveBack_reaches_server hp hc ht he hserved (hlive _ hserved) (by decide)).2 _ rfl).1

end Estate

end StackArena
