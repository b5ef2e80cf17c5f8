/-
  Which faults a client of a debug build can meet.

  A debug build checks every sum and difference of words, every offset and every range to be
  overwritten.  None of these checks ever fires: the cursors lie inside the blocks, the blocks lie
  apart inside the address space, and the books balance, so that each number is bounded by the
  address space.  Two things remain to be shown.

  1. **Sturdy** — every block starts at a multiple of `Alignment.maxNatural`, and the policy makes
     no empty block.  So a fresh block holds the request that it was made for: on such a base the
     padding is never more than the slack that the room of a request allows for
     (`Alignment.padding_le`).
  2. **Serials** — a serial is taken by nothing but an attempt to grow, so the serials last as long
     as the attempts can be counted in a word (`nextSerial_le_growths`).

  What is left are the contracts that a client can break, and the end of the heap: `Refused` lists
  them for requests, `objection?` for unwinds, and `faults_documented` says that there are no
  others.
-/
import StackArena.Proofs.Keeping

namespace StackArena

/-! ## Padding and slack -/

/-- An empty block that starts at a multiple of the largest natural alignment holds every request that
    it has the room for. -/
theorem Block.span?_of_room {blk : Block} {r : Request} {required : Nat}
    (hbase : Alignment.maxNatural ∣ blk.base) (hempty : blk.cursor = 0)
    (hvalid : Alignment.isValid r.alignment = true) (hroom : r.room? = some required)
    (hfits : required ≤ blk.capacity) : ∃ n, blk.span? r = some n := by
  have hpadding := Alignment.padding_le hbase hvalid
  obtain ⟨hlt, rfl⟩ := Request.room?_eq_some hroom
  rw [Block.span?, hempty, Nat.add_zero, Word.add?, if_pos (by omega), Option.filter_some,
    if_pos (by simp only [Nat.sub_zero, decide_eq_true_eq]; omega)]
  exact ⟨_, rfl⟩

namespace Stack

variable {p : Platform} {gap : Nat} {r : Request} {s s' : Stack} {h h' : Host}

/-! ## Sturdy stacks -/

/-- `Sturdy s`: every block starts at a multiple of the largest natural alignment, and no block that
    the policy asks for is empty. -/
structure Sturdy (s : Stack) : Prop where
  aligned : ∀ blk ∈ s.blocks, Alignment.maxNatural ∣ blk.base
  minBlock_pos : 0 < s.growth.minBlock

/-- A stack whose blocks all start where blocks started before stays sturdy. -/
theorem Sturdy.of_bases (hs : s.Sturdy) (hgrowth : s'.growth = s.growth)
    (hblocks : ∀ blk' ∈ s'.blocks, ∃ blk ∈ s.blocks, blk'.base = blk.base) : s'.Sturdy := by
  refine ⟨?_, hgrowth ▸ hs.minBlock_pos⟩
  intro blk' hblk'
  obtain ⟨blk, hblk, hbase⟩ := hblocks blk' hblk'
  rw [hbase]
  exact hs.aligned blk hblk

theorem Bump.sturdy {out : Except Fault (Option Nat)} (hs : s.Sturdy)
    (hbump : Bump p r s h (out, s', h')) : s'.Sturdy := by
  have hturned : ∀ {cursor outstanding : Nat},
      ({ s with current := { s.current with cursor }, outstanding } : Stack).Sturdy := by
    intro cursor outstanding
    refine hs.of_bases rfl fun blk hblk => ?_
    rcases List.mem_cons.1 hblk with rfl | hold
    · exact ⟨s.current, s.current_mem_blocks, rfl⟩
    · exact ⟨blk, List.mem_cons_of_mem _ hold, rfl⟩
  cases hbump with
  | declined => exact hs
  | overdrawn => exact hturned
  | served => exact hturned

theorem Grow.sturdy {required : Nat} {out : Except Fault Unit} (hp : p.Sound gap) (hs : s.Sturdy)
    (hgrow : Grow p required s h (out, s', h')) : s'.Sturdy := by
  cases hgrow with
  | @reused n blk others hserial hcache =>
    have hblocks := blocks_of_cached hcache
    refine hs.of_bases rfl fun other hother => ?_
    rcases List.mem_cons.1 hother with rfl | hold
    · exact ⟨blk, hblocks.subset List.mem_cons_self, rfl⟩
    · exact ⟨other, hblocks.subset (List.mem_cons_of_mem blk hold), rfl⟩
  | made hserial hcache hplace =>
    refine ⟨fun other hother => ?_, hs.minBlock_pos⟩
    rcases List.mem_cons.1 hother with rfl | hold
    · exact hp.aligned _ _ _ hplace
    · exact hs.aligned other hold
  | serialsOut => exact hs
  | noBlock => exact hs.of_bases rfl fun blk hblk => ⟨blk, hblk, rfl⟩

/-- Whatever happens to a stack leaves it sturdy. -/
theorem Change.sturdy (hp : p.Sound gap) {known : Marker → Prop} (hs : s.Sturdy)
    (hchange : Change p known s h s' h') : s'.Sturdy := by
  cases hchange with
  | still => exact hs
  | served hserves =>
    exact hserves.keeps (P := fun s' _ => s'.Sturdy) hs (fun hgrow => hgrow.sturdy hp hs)
      fun hs₁ hbump => hbump.sturdy hs₁
  | @unwound m =>
    obtain ⟨current, below, cache, capacity, outstanding, heq⟩ := unwound_eq m s
    refine hs.of_bases (by rw [heq]) fun blk hblk => ?_
    obtain ⟨old, hold, cursor, rfl⟩ := mem_blocks_of_unwound hblk
    exact ⟨old, hold, rfl⟩
  | shrunk =>
    refine hs.of_bases rfl fun blk hblk => ⟨blk, ?_, rfl⟩
    rcases List.mem_append.1 hblk with hactive | hnone
    · exact mem_blocks_of_active hactive
    · exact (List.not_mem_nil hnone).elim

/-- A new stack is sturdy: a configuration with empty blocks is refused. -/
theorem newborn_sturdy {c : Config} {base : Nat} (hp : p.Sound gap) (hvalid : c.validate = .ok ())
    (hplace : p.placeRegion h.memory.outline (Block.layoutOf c.initialBlock) = some base) :
    (newborn c h base).Sturdy := by
  constructor
  · intro blk hblk
    rw [List.mem_singleton.1 hblk]
    exact hp.aligned _ _ _ hplace
  · refine Nat.pos_of_ne_zero fun hzero => ?_
    have hmin : c.minBlock = 0 := hzero
    unfold Config.validate at hvalid
    rw [hmin] at hvalid
    split at hvalid
    · nomatch hvalid
    · split at hvalid
      · nomatch hvalid
      · nomatch hvalid

/-! ## Requests of a stack that is prepared -/

/-- `Prepared gap s h`: a settled and sturdy stack with balanced books, and with serials left. -/
structure Prepared (gap : Nat) (s : Stack) (h : Host) : Prop where
  settled : Settled gap s h
  balanced : s.Balanced
  sturdy : s.Sturdy
  serials : s.nextSerial + 1 < Word.count

/-- `Refused p s h r f`: why a debug build does not serve a request that may grow the stack, and
    the fault that says so. -/
inductive Refused (p : Platform) (s : Stack) (h : Host) (r : Request) : Fault → Prop
  /-- The alignment is no power of two. -/
  | misaligned (hinvalid : Alignment.isValid r.alignment = false) :
      Refused p s h r (.badAlignment r.alignment)
  /-- The request and its slack are no word together. -/
  | oversized (hspan : s.current.span? r = none) (hroom : r.room? = none) :
      Refused p s h r (.requestOverflow r.size r.alignment)
  /-- The next block would be larger than any object. -/
  | tooLarge {required : Nat} (hspan : s.current.span? r = none) (hroom : r.room? = some required)
      (hcache : takeCached? required s.cache = none)
      (hlarge : Nat.pow 2 63 - Alignment.maxNatural < s.growth.nextCapacity s.capacity required) :
      Refused p s h r (.blockTooLarge (s.growth.nextCapacity s.capacity required))
  /-- The heap has nothing left for the next block, and the program ends. -/
  | exhausted {required : Nat} (hspan : s.current.span? r = none)
      (hroom : r.room? = some required) (hcache : takeCached? required s.cache = none)
      (hplace : p.placeRegion h.memory.outline
        (Block.layoutOf (s.growth.nextCapacity s.capacity required)) = none) :
      Refused p s h r (.heapExhausted (s.growth.nextCapacity s.capacity required)
        Alignment.maxNatural)

/-- **In a step no check fires**: the books can hold whatever the block has given. -/
theorem Bump.ne_error {f : Fault} (hset : Settled gap s h) (hb : s.Balanced) :
    ¬Bump p r s h (.error f, s', h') := by
  intro hbump
  cases hbump with
  | overdrawn hspan hout =>
    have hfits := hb.fits hset (hset.wellFormed.span_le hspan)
    have hover := (Build.add_eq_error hout).2
    omega

/-- A step in the current block does not stop if the books balance where sums are checked. -/
theorem Bump.ne_error_of_checked {f : Fault} (hset : Settled gap s h)
    (hb : p.build = .debug → s.Balanced) : ¬Bump p r s h (.error f, s', h') := by
  intro hbump
  cases hbump with
  | overdrawn hspan hout =>
    have hdebug := (Build.add_eq_error hout).1
    exact Bump.ne_error hset (hb hdebug) (.overdrawn hspan hout)

/-- The policy of a sturdy stack asks for no empty block. -/
theorem Sturdy.nextCapacity_ne_zero (hs : s.Sturdy) (required : Nat) :
    s.growth.nextCapacity s.capacity required ≠ 0 := by
  intro hzero
  have hpos := hs.minBlock_pos
  have hsmall : s.growth.nextCapacity s.capacity required < Growth.largest := by
    rw [hzero]
    decide
  have hwanted := Growth.wanted_le_nextCapacity hsmall
  omega

/-- **A growth fails** only for want of a block. -/
theorem Grow.refused {required : Nat} {f : Fault} (hprep : Prepared gap s h)
    (hspan : s.current.span? r = none) (hroom : r.room? = some required)
    (hgrow : Grow p required s h (.error f, s', h')) : Refused p s h r f := by
  cases hgrow with
  | serialsOut hserial => exact absurd hprep.serials (Nat.not_lt.2 (Build.add_eq_error hserial).2)
  | noBlock hserial hcache hmake =>
    cases Block.denied_of_error hmake with
    | empty hzero => exact absurd hzero (hprep.sturdy.nextCapacity_ne_zero required)
    | tooLarge hlarge => exact .tooLarge hspan hroom hcache hlarge
    | exhausted hplace => exact .exhausted hspan hroom hcache hplace

/-- **A fresh block holds the request** that it was put on top for. -/
theorem Grow.holds {required : Nat} (hp : p.Sound gap) (hs : s.Sturdy)
    (hvalid : Alignment.isValid r.alignment = true) (hroom : r.room? = some required)
    (hgrow : Grow p required s h (.ok (), s', h')) : ∃ n, s'.current.span? r = some n := by
  have haligned := (hgrow.sturdy hp hs).aligned _ s'.current_mem_blocks
  obtain ⟨blk, others, n, rfl, hempty, -, -, hfits⟩ := hgrow.push_eq
  exact Block.span?_of_room haligned hempty hvalid hroom hfits

/-- **A request stops** for no reason but those of `Refused`. -/
theorem refused_of_allocate {f : Fault} {st : Stack × Host} (hp : p.Sound gap)
    (hdebug : p.build = .debug) (hprep : Prepared gap s h)
    (hrun : allocate p r (s, h) = .error f st) : Refused p s h r f := by
  cases hvalid : Alignment.isValid r.alignment with
  | false =>
    cases (allocate_misaligned s h hdebug hvalid).symm.trans hrun
    exact .misaligned hvalid
  | true =>
    have hserves := allocate_ends (r := r) hp hprep.settled
    rw [Action.after_map, Action.after_of_error hrun] at hserves
    cases hserves with
    | misaligned _ hinvalid => exact .misaligned hinvalid
    | bumped hbump => exact absurd hbump (Bump.ne_error hprep.settled hprep.balanced)
    | oversized hspan hroom => exact .oversized hspan hroom
    | starved hspan hroom hgrow => exact hgrow.refused hprep hspan hroom
    | full _ hroom hgrow hfull =>
      obtain ⟨n, hholds⟩ := hgrow.holds hp hprep.sturdy hvalid hroom
      cases hfull.symm.trans hholds
    | grown _ _ hgrow hbump =>
      have hset := (hgrow.moves hp hprep.settled).settled
      exact absurd hbump (Bump.ne_error hset (hgrow.balanced hprep.balanced))

/-- A request to the current block stops for its alignment only. -/
theorem misaligned_of_tryAllocate {f : Fault} {st : Stack × Host} (hset : Settled gap s h)
    (hb : s.Balanced) (hrun : tryAllocate p r (s, h) = .error f st) :
    f = .badAlignment r.alignment ∧ Alignment.isValid r.alignment = false := by
  rcases tryAllocate_ends (p := p) (r := r) (h := h) hset.wellFormed with hbump | ⟨hinvalid, hstop⟩
  · rw [Action.after_of_error hrun] at hbump
    exact absurd hbump (Bump.ne_error hset hb)
  · cases hstop.symm.trans hrun
    exact ⟨rfl, hinvalid⟩

/-- An unwind of a debug build stops for an objection only, with nothing done. -/
theorem objection?_of_unwind {m : Marker} {f : Fault} {st : Stack × Host}
    (hdebug : p.build = .debug) (hs : s.WellFormed) (hrun : unwind p m (s, h) = .error f st) :
    s.objection? m = some f ∧ st = (s, h) := by
  cases hobjection : s.objection? m with
  | none => cases (unwind_of_accepted h hs (Or.inr hobjection)).symm.trans hrun
  | some f' =>
    cases (unwind_of_objection h hdebug hobjection).symm.trans hrun
    exact ⟨rfl, rfl⟩

/-! ## Attempts to grow -/

/-- Whether the stack tries to grow for a request. -/
def outgrownBy (s : Stack) (r : Request) : Bool :=
  Alignment.isValid r.alignment && (s.current.span? r).isNone && r.room?.isSome

/-- A request takes a serial only if the stack tries to grow for it. -/
theorem nextSerial_allocate (hp : p.Sound gap) (hdebug : p.build = .debug)
    (hset : Settled gap s h) :
    (Action.after (some <$> allocate p r) (s, h)).2.1.nextSerial
      ≤ s.nextSerial + (s.outgrownBy r).toNat := by
  cases hvalid : Alignment.isValid r.alignment with
  | false =>
    rw [Action.after_map, Action.after_of_error (allocate_misaligned s h hdebug hvalid)]
    exact Nat.le_add_right _ _
  | true =>
    have htries : ∀ {required : Nat}, s.current.span? r = none → r.room? = some required →
        (s.outgrownBy r).toNat = 1 := by
      intro required hspan hroom
      rw [outgrownBy, hvalid, hspan, hroom]
      rfl
    have hserves := allocate_ends (r := r) hp hset
    generalize Action.after (some <$> allocate p r) (s, h) = done at hserves ⊢
    cases hserves with
    | misaligned => exact Nat.le_add_right _ _
    | bumped hbump => exact Nat.le_trans (Nat.le_of_eq hbump.nextSerial_eq) (Nat.le_add_right _ _)
    | oversized => exact Nat.le_add_right _ _
    | starved hspan hroom hgrow =>
      rw [htries hspan hroom]
      exact hgrow.nextSerial_le
    | full hspan hroom hgrow =>
      rw [htries hspan hroom]
      exact hgrow.nextSerial_le
    | grown hspan hroom hgrow hbump =>
      rw [htries hspan hroom, hbump.nextSerial_eq]
      exact hgrow.nextSerial_le

end Stack

namespace Tenancy

open Stack

variable {p : Platform} {gap : Nat} {t : Tenancy} {h : Host}

/-- Whether the stack tries to grow in an operation. -/
def outgrown (t : Tenancy) : Op → Bool
  | .allocate form r => form.grows && (form.request? r).any t.stack.outgrownBy
  | _ => false

theorem nextSerial_ask (hp : p.Sound gap) (hdebug : p.build = .debug)
    (hset : Settled gap t.stack h) (form : Form) (r : Request) :
    (Action.after (form.ask p r) (t.stack, h)).2.1.nextSerial
      ≤ t.stack.nextSerial + (t.outgrown (.allocate form r)).toNat := by
  have hhandled := ask_handled (p := p) hset form r
  generalize Action.after (form.ask p r) (t.stack, h) = done at hhandled ⊢
  cases hhandled with
  | stack hrequest hgrows =>
    rw [outgrown, hgrows, hrequest]
    exact nextSerial_allocate hp hdebug hset
  | block _ _ hbump =>
    exact Nat.le_trans (Nat.le_of_eq hbump.nextSerial_eq) (Nat.le_add_right _ _)
  | nowhere => exact Nat.le_add_right _ _

/-- **An operation takes a serial only if the stack tries to grow in it.** -/
theorem nextSerial_act (hp : p.Sound gap) (hdebug : p.build = .debug)
    (hset : Settled gap t.stack h) (markers : List Marker) (op : Op) :
    (t.act p markers h op).1.stack.nextSerial ≤ t.stack.nextSerial + (t.outgrown op).toNat := by
  have hle := Nat.le_add_right t.stack.nextSerial (t.outgrown op).toNat
  rcases t.act_leaves (p := p) (h := h) hset.wellFormed markers op with hstack |
    ⟨form, r, rfl, hstack⟩ | ⟨m, -, -, hstack⟩ | hstack
  · rw [hstack]
    exact hle
  · rw [hstack]
    exact nextSerial_ask hp hdebug hset form r
  · rw [hstack, nextSerial_unwound]
    exact hle
  · rw [hstack]
    exact hle

end Tenancy

namespace World

open Stack

variable {p : Platform} {gap k n : Nat} {w : World} {t : Tenancy}

/-- Whether the stack in slot `k` tries to grow in a call. -/
def outgrown (w : World) (k : Nat) : Call → Bool
  | .on slot op => slot == k && (w.at? slot).any fun t => t.outgrown op
  | _ => false

/-- How many times the stack in slot `k` tries to grow in a run. -/
def growths (p : Platform) (k : Nat) (w : World) : List Call → Nat
  | [] => 0
  | c :: cs => (w.outgrown k c).toNat + growths p k (w.step p c) cs

/-- A call takes a serial only if the stack tries to grow in it. -/
theorem nextSerial_step (hp : p.Sound gap) (hdebug : p.build = .debug) (hw : w.Sound gap)
    (hserials : ∀ t, w.at? k = some t → t.stack.nextSerial ≤ n + 1) (c : Call) :
    ∀ t, (w.step p c).at? k = some t →
      t.stack.nextSerial ≤ n + (w.outgrown k c).toNat + 1 := by
  have hold : ∀ t, w.at? k = some t → t.stack.nextSerial ≤ n + (w.outgrown k c).toNat + 1 :=
    fun t hat => Nat.le_trans (hserials t hat) (by omega)
  have hstep := step_spec p w c
  intro t' hat'
  generalize w.step p c = w' at hstep hat'
  cases hstep with
  | idle => exact hold t' hat'
  | hosted => exact hold t' hat'
  | made =>
    rcases at?_enroll.1 hat' with hat | ⟨-, rfl⟩
    · exact hold t' hat
    · exact Nat.le_add_left 1 _
  | @operated i op t hat =>
    rcases (at?_set (lt_of_at? hat)).1 hat' with ⟨rfl, heq⟩ | ⟨-, hat⟩
    · cases heq
      have htries : w.outgrown k (.on k op) = t.outgrown op := by
        rw [outgrown, hat, beq_self_eq_true, Bool.true_and, Option.any_some]
      have hact := Tenancy.nextSerial_act hp hdebug (hw.settled k t hat) w.markers op
      have hle := hserials t hat
      rw [htries]
      omega
    · exact hold t' hat
  | discarded hat => exact hold t' (at?_of_emptied (lt_of_at? hat) hat').2

/-- **The serials of a stack are counted by its attempts to grow.** -/
theorem nextSerial_le_growths (hp : p.Sound gap) (hdebug : p.build = .debug) (hw : w.Sound gap)
    (hserials : ∀ t, w.at? k = some t → t.stack.nextSerial ≤ n + 1) (cs : List Call) :
    ∀ t, (run p w cs).at? k = some t → t.stack.nextSerial ≤ n + growths p k w cs + 1 := by
  induction cs generalizing w n with
  | nil => exact hserials
  | cons c cs ih =>
    rw [growths, ← Nat.add_assoc]
    exact ih (hw.step hp c) (nextSerial_step hp hdebug hw hserials c)

theorem Reachable.sturdy (hp : p.Sound gap) (hw : Reachable p w) (hat : w.at? k = some t) :
    t.stack.Sturdy := by
  refine hw.induct (P := fun t => t.stack.Sturdy) hp ?_ ?_ k t hat
  · intro c h base hvalid hplace
    exact newborn_sturdy hp hvalid hplace
  · intro w i t op hw hat hs
    exact (Tenancy.act_change hp (hw.settled i t hat) w.markers op).sturdy hp hs

/-- A stack that has not tried to grow too often is prepared for whatever comes. -/
theorem prepared_of_growths (hp : p.Sound gap) (hdebug : p.build = .debug) {cs : List Call}
    (hat : (run p initial cs).at? k = some t) (hfew : growths p k initial cs < Nat.pow 2 63) :
    Prepared gap t.stack (run p initial cs).host := by
  have hw : Reachable p (run p initial cs) := ⟨cs, rfl⟩
  have hserials := nextSerial_le_growths (k := k) (n := 0) hp hdebug (Sound.initial gap)
    (fun t hat => absurd hat (not_at?_initial k t)) cs t hat
  have hwords : Nat.pow 2 63 + 2 < Word.count := by decide
  have hbooks := (hw.books hp hat).resolve_left (Build.eq_debug_iff.1 hdebug)
  exact ⟨(hw.sound hp).settled k t hat, hbooks, hw.sturdy hp hat, by omega⟩

/-- **There are no other faults.**  In a debug build, at any point of a run in which a stack has
    tried to grow fewer than 2⁶³ times, no check of word arithmetic, of an offset or of a range
    fires in an operation on the stack, and what can stop one is this:
    1. a request that may grow the stack, the reasons of `Refused`: an alignment that is no power of
       two, a room that is no word, a block that would be too large, or the end of the heap;
    2. a request to the current block, an alignment that is no power of two;
    3. an unwind, an objection to its marker, and then nothing is done; so it is with a guard that
       is left armed, and one that was let go is left without a fault;
    4. an unwind to the bottom, trimming, and the questions for the owner of an address and for the
       free bytes, nothing.

    Whatever is unwound to, a block is left. -/
theorem faults_documented (hp : p.Sound gap) (hdebug : p.build = .debug) {cs : List Call}
    (hat : (run p initial cs).at? k = some t) (hfew : growths p k initial cs < Nat.pow 2 63) :
    (∀ r f st, Stack.allocate p r (t.stack, (run p initial cs).host) = .error f st →
      Refused p t.stack (run p initial cs).host r f) ∧
    (∀ r f st, Stack.tryAllocate p r (t.stack, (run p initial cs).host) = .error f st →
      f = .badAlignment r.alignment ∧ Alignment.isValid r.alignment = false) ∧
    (∀ m f st, Stack.unwind p m (t.stack, (run p initial cs).host) = .error f st →
      t.stack.objection? m = some f ∧ st = (t.stack, (run p initial cs).host)) ∧
    (∀ g f st, Guard.leave p g (t.stack, (run p initial cs).host) = .error f st →
      g.armed = true ∧ t.stack.objection? g.marker = some f) ∧
    (∃ st, Stack.unwindAll p (t.stack, (run p initial cs).host) = .ok () st) ∧
    (∃ st, Stack.shrink (t.stack, (run p initial cs).host) = .ok () st) ∧
    (∀ address, ∃ own, t.stack.owns p.build address = .ok own) ∧
    (∃ free, t.stack.capacityLeft p.build = .ok free) ∧
    ∀ depth, t.stack.surplus depth < t.stack.active.length := by
  have hprep := prepared_of_growths hp hdebug hat hfew
  have hs := hprep.settled.wellFormed
  refine ⟨?_, ?_, ?_, ?_, ?_, ⟨_, shrink_apply t.stack _⟩, ?_, ?_, ?_⟩
  · intro r f st hrun
    exact refused_of_allocate hp hdebug hprep hrun
  · intro r f st hrun
    exact misaligned_of_tryAllocate hprep.settled hprep.balanced hrun
  · intro m f st hrun
    exact objection?_of_unwind hdebug hs hrun
  · intro g f st hrun
    unfold Guard.leave at hrun
    split at hrun
    · rename_i harmed
      exact ⟨harmed, (objection?_of_unwind hdebug hs hrun).1⟩
    · nomatch hrun
  · exact ⟨_, unwind_of_accepted _ hs (Or.inr (bottom_accepted hs))⟩
  · exact fun address => ⟨_, owns_eq p.build hs address⟩
  · exact ⟨_, p.build.sub_of_le hs.current_le⟩
  · intro depth
    exact Nat.lt_succ_of_le (t.stack.surplus_le depth)

/-- Calls after which a stack has tried to grow twice, once for a request of more bytes than any
    block may have, and has been asked for an alignment that is none. -/
def grownAndRefused : List Call :=
  [.make (.sized .debug 64), .on 0 (.allocate .plain ⟨100, 32⟩),
    .on 0 (.allocate .plain ⟨Nat.pow 2 63, 1⟩), .on 0 (.allocate .plain ⟨8, 3⟩), .on 0 .unwindAll]

/-- The two attempts are counted, and what is left is a stack that stops for nothing else. -/
theorem faults_documented_refused :
    growths (Session.platform .debug []) 0 initial grownAndRefused = 2 ∧
      ∃ t, (run (Session.platform .debug []) initial grownAndRefused).at? 0 = some t ∧
        (∀ r f st, Stack.allocate (Session.platform .debug []) r
          (t.stack, (run (Session.platform .debug []) initial grownAndRefused).host)
            = .error f st →
          Refused (Session.platform .debug []) t.stack
            (run (Session.platform .debug []) initial grownAndRefused).host r f) ∧
        ∃ free, t.stack.capacityLeft .debug = .ok free := by
  have hp : (Session.platform .debug []).Sound 1 :=
    Session.platform_sound .debug (by nofun) (by decide)
  have htwice : growths (Session.platform .debug []) 0 initial grownAndRefused = 2 := by
    decide +kernel
  have hsome : ((run (Session.platform .debug []) initial grownAndRefused).at? 0).isSome := by
    decide +kernel
  obtain ⟨t, hat⟩ := Option.isSome_iff_exists.1 hsome
  obtain ⟨hallocate, -, -, -, -, -, -, hfree, -⟩ :=
    faults_documented hp rfl hat (by rw [htwice]; decide)
  exact ⟨htwice, t, hat, hallocate, hfree⟩

end World

end StackArena
