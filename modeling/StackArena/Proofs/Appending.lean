/-
  Where a request is served that may grow the stack.

  The current block is asked first.  If it serves the request, nothing else has happened.  If it does
  not, exactly one block is put on top, and that one serves it: a request is never split, and no
  older block is asked.

  1. **Blocks** — what a block serves, it serves at the lowest address that is possible
     (`Block.Places`).
  2. **The cache** — the search takes the first block with room and leaves the others in their order
     (`takeCached?_eq_some`).
  3. **Growth** — `Chosen` says which block is put on top, and `Raised` what the stack is then.

  `allocate_appends` puts these together.  That the second attempt always succeeds is due to the
  slack that the room of a request has for its alignment (`Grow.holds`).
-/
import Mathlib.Order.Bounds.Defs
import StackArena.Proofs.Checks
import StackArena.Proofs.Climbing

namespace StackArena

/-! ## The lowest address in a block -/

namespace Block

/-- `blk.Places r a blk'`: the block has served a request at address `a`, and is `blk'` then. -/
structure Places (blk : Block) (r : Request) (a : Nat) (blk' : Block) : Prop where
  /-- There is no lower address above the cursor. -/
  lowest : IsLeast {x | blk.base + blk.cursor ≤ x ∧ r.alignment ∣ x} a
  /-- The cursor ends right after the request. -/
  ends : blk'.base + blk'.cursor = a + r.size
  within : blk'.cursor ≤ blk'.capacity
  rest : blk' = { blk with cursor := blk'.cursor }

/-- **A request that has a span is served at the lowest address.** -/
theorem places_of_span {blk : Block} {r : Request} {n : Nat} (hcursor : blk.cursor ≤ blk.capacity)
    (hvalid : Alignment.isValid r.alignment = true) (hspan : blk.span? r = some n) :
    blk.Places r (blk.base + blk.startOf n r) (blk.advance n) := by
  obtain ⟨hstart, hends⟩ := startOf_eq hspan
  refine ⟨⟨⟨?_, dvd_start hspan hvalid⟩, ?_⟩, ?_, ?_, rfl⟩
  · show blk.base + blk.cursor ≤ _
    omega
  · rintro x ⟨habove, hdvd⟩
    have hle := Alignment.add_padding_le hvalid habove hdvd
    omega
  · show blk.base + (blk.cursor + n) = _
    omega
  · show blk.cursor + n ≤ blk.capacity
    have hfree := (span?_spec hspan).2
    omega

end Block

namespace Stack

variable {p : Platform} {gap : Nat} {r : Request} {s s' : Stack} {h h' : Host}

/-! ## The search in the cache -/

/-- **The first block with room is taken**, and all others stay in their order. -/
theorem takeCached?_eq_some {required : Nat} {cache others : List Block} {blk : Block}
    (h : takeCached? required cache = some (blk, others)) :
    required ≤ blk.capacity ∧ ∃ before after, cache = before ++ blk :: after ∧
      others = before ++ after ∧ ∀ other ∈ before, other.capacity < required := by
  induction cache generalizing blk others with
  | nil => nomatch h
  | cons first rest ih =>
    by_cases hfits : required ≤ first.capacity
    · rw [takeCached?_cons hfits] at h
      cases h
      exact ⟨hfits, [], rest, rfl, rfl, fun other hother => (List.not_mem_nil hother).elim⟩
    · rw [takeCached?, if_neg hfits] at h
      obtain ⟨⟨found, left⟩, hrest, heq⟩ := Option.map_eq_some_iff.1 h
      cases heq
      obtain ⟨hroom, before, after, hcache, hothers, hsmall⟩ := ih hrest
      refine ⟨hroom, first :: before, after, congrArg (first :: ·) hcache,
        congrArg (first :: ·) hothers, ?_⟩
      intro other hother
      rcases List.mem_cons.1 hother with rfl | hother
      · exact Nat.lt_of_not_le hfits
      · exact hsmall other hother

/-- Nothing is taken from a cache whose blocks are all too small, and only from such a one. -/
theorem takeCached?_eq_none {required : Nat} {cache : List Block} :
    takeCached? required cache = none ↔ ∀ blk ∈ cache, blk.capacity < required := by
  induction cache with
  | nil => exact ⟨fun _ blk hblk => (List.not_mem_nil hblk).elim, fun _ => rfl⟩
  | cons first rest ih =>
    rw [List.forall_mem_cons, takeCached?]
    by_cases hfits : required ≤ first.capacity
    · rw [if_pos hfits]
      refine ⟨fun hnone => absurd hnone (Option.some_ne_none _), fun hsmall => ?_⟩
      exact absurd hfits (Nat.not_le.2 hsmall.1)
    · rw [if_neg hfits, Option.map_eq_none_iff, ih]
      exact (and_iff_right (Nat.lt_of_not_le hfits)).symm

/-! ## Growth -/

/-- `Chosen p required s h blk others h'`: `blk` is the block to put on top, with room for
    `required` bytes, `others` stay in the cache, and `h'` is the host then.  The most recently
    released block that is large enough is chosen, or else a new one is made. -/
inductive Chosen (p : Platform) (required : Nat) (s : Stack) (h : Host) :
    Block → List Block → Host → Prop
  | cached {before after : List Block} {blk : Block} (hcache : s.cache = before ++ blk :: after)
      (hsmall : ∀ other ∈ before, other.capacity < required) (hroom : required ≤ blk.capacity) :
      Chosen p required s h (blk.recycle s.nextSerial) (before ++ after) h
  | fresh {base : Nat} (hsmall : ∀ other ∈ s.cache, other.capacity < required)
      (hplace : p.placeRegion h.memory.outline
        (Block.layoutOf (s.growth.nextCapacity s.capacity required)) = some base)
      (hroom : required ≤ s.growth.nextCapacity s.capacity required) :
      Chosen p required s h (s.newBlock h required base) s.cache
        ((s.announced required h).withRegion p base
          (Block.layoutOf (s.growth.nextCapacity s.capacity required)))

/-- A block that is chosen is empty. -/
theorem Chosen.cursor_eq {required : Nat} {blk : Block} {others : List Block}
    (hchosen : Chosen p required s h blk others h') : blk.cursor = 0 := by
  cases hchosen with
  | cached => rfl
  | fresh => rfl

/-- A growth that succeeds puts the chosen block on top. -/
theorem Grow.chosen {required : Nat} (hgrow : Grow p required s h (.ok (), s', h')) :
    ∃ blk others n, Chosen p required s h blk others h' ∧
      p.build.add s.nextSerial 1 = .ok n ∧ s' = s.push blk others n := by
  cases hgrow with
  | reused hserial hcache =>
    obtain ⟨hroom, before, after, hsplit, rfl, hsmall⟩ := takeCached?_eq_some hcache
    exact ⟨_, _, _, .cached hsplit hsmall hroom, hserial, rfl⟩
  | made hserial hcache hplace hroom =>
    exact ⟨_, _, _, .fresh (takeCached?_eq_none.1 hcache) hplace hroom, hserial, rfl⟩

/-- `Raised p r s blk others a s'`: `s'` is `s` with `blk` on top, which has served a request at
    `a`, and with `others` in the cache.  All older blocks are as they were. -/
structure Raised (p : Platform) (r : Request) (s : Stack) (blk : Block) (others : List Block)
    (a : Nat) (s' : Stack) : Prop where
  places : blk.Places r a s'.current
  /-- The bytes up to the cursor are all that the books count more. -/
  outstanding : p.build.add s.outstanding s'.current.cursor = .ok s'.outstanding
  serial : p.build.add s.nextSerial 1 = .ok s'.nextSerial
  rest : s' = { s with
    current := s'.current
    below := s.active
    cache := others
    capacity := s.capacity + blk.capacity
    outstanding := s'.outstanding
    nextSerial := s'.nextSerial }

/-- The books count the bytes exactly, if they balance or the sum is a word. -/
theorem Raised.outstanding_eq {blk : Block} {others : List Block} {a : Nat}
    (hraised : Raised p r s blk others a s')
    (hbooks : p.build = .debug ∨ s.outstanding + s'.current.cursor < Word.count) :
    s'.outstanding = s.outstanding + s'.current.cursor := by
  rcases Build.add_eq_ok hraised.outstanding with ⟨-, heq⟩ | ⟨hrelease, hover⟩
  · exact heq
  · rcases hbooks with hdebug | hlt
    · rw [hdebug] at hrelease
      nomatch hrelease
    · omega

/-- What books that balance count more is a word. -/
theorem Raised.fits {blk : Block} {others : List Block} {a : Nat}
    (hraised : Raised p r s blk others a s') (hset : Settled gap s' h') (hb : s.Balanced) :
    s.outstanding + s'.current.cursor < Word.count := by
  have hle := hset.wellFormed.reserved_le_volume
  have hlt := hset.lodged.volume_lt hset.spaced
  have hsum : s'.reserved = s'.current.cursor + s.reserved := by
    rw [hraised.rest]
    rfl
  rw [hb]
  omega

/-! ## Requests -/

/-- **A request to the current block** of a stack is served at the lowest address, or declined with
    nothing done. -/
theorem tryAllocate_cases (hset : Settled gap s h) (hb : p.build = .debug → s.Balanced)
    (hvalid : Alignment.isValid r.alignment = true) :
    (s.current.span? r ≠ none ∧ ∃ a blk o h', tryAllocate p r (s, h)
        = .ok (some a) ({ s with current := blk, outstanding := o }, h') ∧
      s.current.Places r a blk) ∨
    (s.current.span? r = none ∧ tryAllocate p r (s, h) = .ok none (s, h)) := by
  rcases tryAllocate_ends (p := p) (r := r) (h := h) hset.wellFormed with hbump | ⟨hinvalid, -⟩
  · generalize hlast : Action.after (tryAllocate p r) (s, h) = last at hbump
    cases hbump with
    | declined hspan => exact Or.inr ⟨hspan, Action.ok_of_after hlast⟩
    | overdrawn hspan hout =>
      exact absurd (.overdrawn hspan hout) (Bump.ne_error_of_checked (h := h) hset hb)
    | served hspan hout =>
      refine Or.inl ⟨?_, _, _, _, _, Action.ok_of_after hlast,
        Block.places_of_span hset.wellFormed.current_le hvalid hspan⟩
      rw [hspan]
      nofun
  · nomatch hvalid.symm.trans hinvalid

/-- What the current block serves is served by it in the other form, too. -/
theorem allocate_of_tryAllocate {a : Nat} {st st' : Stack × Host}
    (hrun : tryAllocate p r st = .ok (some a) st') : allocate p r st = .ok a st' := by
  obtain ⟨u, st₁, hrequire, hbump⟩ := Action.bind_eq_ok hrun
  rw [allocate, Action.bind_of_ok hrequire, Action.bind_of_ok hbump]
  rfl

/-- **A request that the current block has no span for** is served by a block that is put on top. -/
theorem allocate_raises {a : Nat} (hp : p.Sound gap) (hset : Settled gap s h)
    (hvalid : Alignment.isValid r.alignment = true) (hnone : s.current.span? r = none)
    (hrun : allocate p r (s, h) = .ok a (s', h')) :
    ∃ blk others h₁,
      Chosen p (r.size + (max r.alignment Alignment.maxNatural - Alignment.maxNatural)) s h blk
        others h₁ ∧
      Raised p r s blk others a s' ∧
      h' = s'.painted h₁ (a - blk.base) r.size Config.newPattern := by
  have hserves := allocate_ends (r := r) hp hset
  rw [Action.after_map, Action.after_of_ok hrun] at hserves
  -- The current block has declined, so a growth has come before the address.
  rcases hserves.cases_some with hbump | ⟨required, s₁, h₁, -, hroom, hgrow, hbump⟩
  · cases hbump with
    | served hspan => nomatch hnone.symm.trans hspan
  · have hpushed := (hgrow.moves hp hset).settled.wellFormed
    obtain ⟨blk, others, n, hchosen, hserial, rfl⟩ := hgrow.chosen
    obtain ⟨-, rfl⟩ := Request.room?_eq_some hroom
    have hslack : r.alignment - Alignment.maxNatural
        = max r.alignment Alignment.maxNatural - Alignment.maxNatural := by omega
    refine ⟨blk, others, h₁, hslack ▸ hchosen, ?_⟩
    cases hbump with
    | @served taken o hspan hout =>
      -- The block was empty, so what was taken is its cursor.
      have hempty : blk.cursor + taken = taken := by rw [hchosen.cursor_eq, Nat.zero_add]
      refine ⟨⟨Block.places_of_span hpushed.current_le hvalid hspan, ?_, hserial, rfl⟩, ?_⟩
      · show p.build.add s.outstanding (blk.cursor + taken) = .ok o
        rw [hempty]
        exact hout
      · show _ = (s.push blk others n).painted h₁ (blk.base + _ - blk.base) r.size _
        rw [Nat.add_sub_cancel_left]

/-- **The block that is put on top always has the room.** -/
theorem allocate_ne_full (hp : p.Sound gap) (hset : Settled gap s h) (hs : s.Sturdy)
    (hb : p.build = .debug → s.Balanced) (hvalid : Alignment.isValid r.alignment = true)
    (st : Stack × Host) : allocate p r (s, h) ≠ .error .freshBlockFull st := by
  intro hrun
  have hserves := allocate_ends (r := r) hp hset
  rw [Action.after_map, Action.after_of_error hrun] at hserves
  cases hserves with
  | bumped hbump => exact Bump.ne_error_of_checked hset hb hbump
  | starved hspan hroom hgrow =>
    cases hgrow with
    | serialsOut hserial =>
      obtain ⟨hdebug, hover⟩ := Build.add_eq_error hserial
      rw [hdebug, Build.add_debug_of_le hover] at hserial
      cases hserial
    | noBlock hserial hcache hmake => cases Block.denied_of_error hmake
  | full hspan hroom hgrow hfull =>
    obtain ⟨n, hholds⟩ := hgrow.holds hp hs hvalid hroom
    nomatch hfull.symm.trans hholds
  | grown hspan hroom hgrow hbump =>
    exact Bump.ne_error_of_checked (hgrow.moves hp hset).settled
      (fun hdebug => hgrow.balanced (hb hdebug)) hbump

end Stack

namespace World

open Stack

variable {p : Platform} {gap i : Nat} {w : World} {t : Tenancy} {r : Request}

theorem Reachable.balanced_of_debug (hp : p.Sound gap) (hw : Reachable p w)
    (hat : w.at? i = some t) (hdebug : p.build = .debug) : t.stack.Balanced :=
  (hw.books hp hat).resolve_left (Build.eq_debug_iff.1 hdebug)

/-- **A request is served by the current block, or by one block that is put on top.**  Of every
    stack of every run, for every size and every power of two:
    1. Either the form that does not grow serves the request; then the other form comes to the same
       address and leads to the same stack and host, in which only the current block has changed.
       It serves the request at the lowest address above its cursor.
    2. Or the form that does not grow declines and does nothing.  If the other form ends with an
       address then, it has put one block on top, and all older blocks are as they were.  That block
       is the most recently released one of the cache with room for the size and the slack of the
       alignment, while all others stay in their order; if there is none, it is a new one of the
       capacity that the policy wants.  It serves the request at its lowest address; its cursor ends
       right after the request, and by that the books have grown.  A release build counts modulo
       2⁶⁴, which can only show if markers that are out of date have left the books too high.  The
       block that was put on top never turns out to be too small. -/
theorem allocate_appends (hp : p.Sound gap) (hw : Reachable p w) (hat : w.at? i = some t)
    (hvalid : Alignment.isValid r.alignment = true) :
    (∃ a blk o h',
      Stack.tryAllocate p r (t.stack, w.host)
        = .ok (some a) ({ t.stack with current := blk, outstanding := o }, h') ∧
      Stack.allocate p r (t.stack, w.host)
        = .ok a ({ t.stack with current := blk, outstanding := o }, h') ∧
      t.stack.current.Places r a blk) ∨
    (Stack.tryAllocate p r (t.stack, w.host) = .ok none (t.stack, w.host) ∧
      (∀ st, Stack.allocate p r (t.stack, w.host) ≠ .error .freshBlockFull st) ∧
      ∀ a s' h', Stack.allocate p r (t.stack, w.host) = .ok a (s', h') →
        ∃ blk others h₁,
          Chosen p (r.size + (max r.alignment Alignment.maxNatural - Alignment.maxNatural)) t.stack
            w.host blk others h₁ ∧
          Raised p r t.stack blk others a s' ∧
          (p.build = .debug ∨ t.stack.Balanced ∨
              t.stack.outstanding + s'.current.cursor < Word.count →
            s'.outstanding = t.stack.outstanding + s'.current.cursor) ∧
          h' = s'.painted h₁ (a - blk.base) r.size Config.newPattern) := by
  have hset := (hw.sound hp).settled i t hat
  have hb := hw.balanced_of_debug hp hat
  rcases tryAllocate_cases hset hb hvalid with ⟨-, a, blk, o, h', htry, hplaces⟩ | ⟨hnone, htry⟩
  · exact Or.inl ⟨a, blk, o, h', htry, allocate_of_tryAllocate htry, hplaces⟩
  · refine Or.inr ⟨htry, allocate_ne_full hp hset (hw.sturdy hp hat) hb hvalid, ?_⟩
    intro a s' h' hrun
    obtain ⟨blk, others, h₁, hchosen, hraised, hhost⟩ :=
      allocate_raises hp hset hvalid hnone hrun
    refine ⟨blk, others, h₁, hchosen, hraised, ?_, hhost⟩
    rintro (hdebug | hbalanced | hlt)
    · exact hraised.outstanding_eq (Or.inl hdebug)
    · have hserves := allocate_ends (r := r) hp hset
      rw [Action.after_map, Action.after_of_ok hrun] at hserves
      have hfits := hraised.fits (hserves.moves hp hset).settled hbalanced
      exact hraised.outstanding_eq (Or.inr hfits)
    · exact hraised.outstanding_eq (Or.inr hlt)

/-- Calls after which a stack has a small block in its cache and, released before it, a large one. -/
def smallBeforeLarge : List Call :=
  [.make (.sized .debug 64), .on 0 (.allocate .plain ⟨100, 1⟩),
    .on 0 (.allocate .plain ⟨2000, 1⟩), .on 0 .unwindAll]

/-- 1500 bytes at an alignment of 32 need room for 1516, so the small block is passed over and stays
    in the cache; the large one is put on top. -/
theorem allocate_appends_large :
    ∃ t, (run (Session.platform .debug []) initial smallBeforeLarge).at? 0 = some t ∧
      Alignment.isValid 32 = true ∧ t.stack.cache.map Block.capacity = [1024, 2000] ∧
      ∃ a s' h' blk others h₁,
        Stack.allocate (Session.platform .debug []) ⟨1500, 32⟩
          (t.stack, (run (Session.platform .debug []) initial smallBeforeLarge).host)
            = .ok a (s', h') ∧
        Chosen (Session.platform .debug []) 1516 t.stack
          (run (Session.platform .debug []) initial smallBeforeLarge).host blk others h₁ ∧
        Raised (Session.platform .debug []) ⟨1500, 32⟩ t.stack blk others a s' ∧
        s'.cache.map Block.capacity = [1024] ∧
        s'.outstanding = t.stack.outstanding + s'.current.cursor := by
  have hp : (Session.platform .debug []).Sound 1 :=
    Session.platform_sound .debug (by nofun) (by decide)
  have hvalid : Alignment.isValid 32 = true := by decide
  have hlook : ((run (Session.platform .debug []) initial smallBeforeLarge).at? 0).map (fun t =>
      let st := (t.stack, (run (Session.platform .debug []) initial smallBeforeLarge).host)
      let declined := Action.after (Stack.tryAllocate (Session.platform .debug []) ⟨1500, 32⟩) st
      let served := Action.after (Stack.allocate (Session.platform .debug []) ⟨1500, 32⟩) st
      (t.stack.cache.map Block.capacity, declined.1.toOption, served.1.toOption.isSome,
        served.2.1.cache.map Block.capacity))
      = some ([1024, 2000], some none, true, [1024]) := by decide +kernel
  obtain ⟨t, hat, hends⟩ := Option.map_eq_some_iff.1 hlook
  have hw : Reachable (Session.platform .debug [])
      (run (Session.platform .debug []) initial smallBeforeLarge) := ⟨smallBeforeLarge, rfl⟩
  have hrequest := allocate_appends hp hw hat (r := ⟨1500, 32⟩) hvalid
  generalize (run (Session.platform .debug []) initial smallBeforeLarge).host = h at hends hrequest
  simp only [Prod.mk.injEq] at hends
  obtain ⟨hcache, hdeclined, hserved, hleft⟩ := hends
  rcases hrequest with ⟨a, blk, o, h', htry, -⟩ | ⟨-, -, hgrown⟩
  · rw [Action.after_of_ok htry] at hdeclined
    cases hdeclined
  · cases hrun : Stack.allocate (Session.platform .debug []) ⟨1500, 32⟩ (t.stack, h) with
    | error f st =>
      rw [Action.after_of_error hrun] at hserved
      cases hserved
    | ok a st =>
      rw [Action.after_of_ok hrun] at hleft
      obtain ⟨blk, others, h₁, hchosen, hraised, hbooks, -⟩ := hgrown a st.1 st.2 hrun
      exact ⟨t, hat, hvalid, hcache, a, st.1, st.2, blk, others, h₁, hrun, hchosen, hraised, hleft,
        hbooks (Or.inl rfl)⟩

end World

end StackArena
