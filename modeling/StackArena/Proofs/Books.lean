/-
  Books that balance.

  The outstanding bytes of a stack are never counted again: an unwind copies them from its marker.
  They are right all the same, because every marker that was ever captured knows what is reserved
  below its block (`Knows`), and that stays true while anything happens to any stack.

  1. A change keeps the books of its stack balanced, if it unwinds to nothing but markers that know
     the stack and are accepted.
  2. A world is accounted for (`Account`) when all its stacks have balanced books and all its
     markers know all its stacks; a call keeps it so, in a debug build or with care.
  3. By induction on the run, the books of every stack are right in every state.
-/
import StackArena.Proofs.Census
import StackArena.Proofs.Shifts

namespace StackArena

namespace Stack

variable {p : Platform} {gap : Nat} {s s' : Stack} {h h' : Host}

/-! ## Changes keep the books balanced -/

theorem reserved_advance (s : Stack) (n : Nat) : (s.advance n).reserved = s.reserved + n := by
  show s.current.cursor + n + (s.below.map Block.cursor).sum = s.reserved + n
  rw [reserved, active, List.map_cons, List.sum_cons]
  omega

/-- The bytes that are taken from free ones can be added to books that balance. -/
theorem Balanced.fits (hb : s.Balanced) (hset : Settled gap s h) {n : Nat}
    (hn : s.current.cursor + n ≤ s.current.capacity) : s.outstanding + n < Word.count := by
  have hbelow : (s.advance n).reserved ≤ s.volume :=
    (hset.wellFormed.turn s.outstanding hn).reserved_le_volume
  have hlt := hset.lodged.volume_lt hset.spaced
  rw [reserved_advance] at hbelow
  rw [hb]
  omega

theorem Bump.balanced {r : Request} {out : Except Fault (Option Nat)} (hset : Settled gap s h)
    (hb : s.Balanced) (hbump : Bump p r s h (out, s', h')) : s'.Balanced := by
  cases hbump with
  | declined => exact hb
  | overdrawn hspan hout =>
    have hfits := hb.fits hset (hset.wellFormed.span_le hspan)
    have hover := (Build.add_eq_error hout).2
    omega
  | @served n o hspan hout =>
    have hfits := hb.fits hset (hset.wellFormed.span_le hspan)
    rw [p.build.add_of_lt hfits] at hout
    cases hout
    show s.outstanding + n = (s.advance n).reserved
    rw [reserved_advance, hb]

theorem Grow.balanced {required : Nat} {out : Except Fault Unit} (hb : s.Balanced)
    (hgrow : Grow p required s h (out, s', h')) : s'.Balanced := by
  cases out with
  | error f => rcases hgrow.of_error with rfl | ⟨n, -, rfl⟩ <;> exact hb
  | ok u =>
    obtain ⟨blk, others, n, rfl, hempty, -⟩ := hgrow.push_eq
    show s.outstanding = blk.cursor + s.reserved
    rw [hempty, Nat.zero_add]
    exact hb

theorem Serves.balanced {r : Request} {out : Except Fault (Option Nat)} (hp : p.Sound gap)
    (hset : Settled gap s h) (hb : s.Balanced) (hserves : Serves p r s h (out, s', h')) :
    s'.Balanced := by
  have hboth : Settled gap s' h' ∧ s'.Balanced := by
    refine hserves.keeps (P := fun s' h' => Settled gap s' h' ∧ s'.Balanced) ⟨hset, hb⟩ ?_ ?_
    · intro required out s₁ h₁ hgrow
      exact ⟨(hgrow.moves hp hset).settled, hgrow.balanced hb⟩
    · rintro s₁ h₁ out s₂ h₂ ⟨hset₁, hb₁⟩ hbump
      exact ⟨(hbump.moves hset₁).settled, hbump.balanced hset₁ hb₁⟩
  exact hboth.2

/-- **An accepted unwind balances the books**, if its marker knows the stack: the count of the
    marker is what the cursors say in the end. -/
theorem unwound_balanced {m : Marker} (hm : s.Knows m) (hok : s.objection? m = none) :
    (s.unwound m).Balanced := by
  obtain ⟨⟨hstack, newer, blk, older, hsplit, hdepth, hserial, hoffset⟩, hcount⟩ :=
    objection?_eq_none_iff.1 hok
  obtain ⟨hcurrent, hbelow⟩ := unwound_of_split hsplit hdepth
  have hbooks := (hm hstack).2 newer blk older hsplit hserial
  have hreserved : (s.unwound m).reserved = min m.offset blk.cursor +
      (older.map Block.cursor).sum := by
    rw [reserved, active, hcurrent, hbelow, List.map_cons, List.sum_cons]
  show min m.outstanding s.outstanding = (s.unwound m).reserved
  rw [hreserved, Nat.min_eq_left hoffset, Nat.min_eq_left hcount, hbooks]

/-- A change keeps the books balanced if the unwinds that it may be do. -/
theorem Change.balanced_of (hp : p.Sound gap) (hset : Settled gap s h) (hb : s.Balanced)
    {known : Marker → Prop}
    (hunwound : ∀ m, known m → p.build = .release ∨ s.objection? m = none →
      (s.unwound m).Balanced)
    (hchange : Change p known s h s' h') : s'.Balanced := by
  cases hchange with
  | still => exact hb
  | served hserves => exact hserves.balanced hp hset hb
  | @unwound m hknown hok => exact hunwound m hknown hok
  | shrunk => exact hb

/-- A change keeps the books balanced if the markers that it may unwind to know the stack and a
    release build is not given any that the checks object to. -/
theorem Change.balanced (hp : p.Sound gap) (hset : Settled gap s h) (hb : s.Balanced)
    {known : Marker → Prop} (hknows : ∀ m, known m → s.Knows m)
    (hcare : ∀ m, known m → p.build = .debug ∨ s.objection? m = none)
    (hchange : Change p known s h s' h') : s'.Balanced := by
  refine hchange.balanced_of hp hset hb ?_
  intro m hknown hok
  refine unwound_balanced (hknows m hknown) ?_
  rcases hcare m hknown with hdebug | hnone
  · exact hok.resolve_left (Build.eq_debug_iff.1 hdebug)
  · exact hnone

end Stack

namespace Tenancy

variable {p : Platform} {markers : List Marker} {t : Tenancy} {h : Host}

/-! ## The markers of a tenancy -/

theorem guards_request (form : Form) (r : Request) :
    (t.request p form r h).1.guards = t.guards := by
  rw [request]
  split <;> rfl

/-- The guard of a tenancy after an operation has the marker of a guard before it, or one that the
    operation captured. -/
theorem guards_act {op : Op} {g : Guard} (hg : g ∈ (t.act p markers h op).1.guards) :
    (∃ g₀ ∈ t.guards, g₀.marker = g.marker) ∨ g.marker ∈ t.captures op := by
  have hsame : (t.act p markers h op).1.guards = t.guards →
      (∃ g₀ ∈ t.guards, g₀.marker = g.marker) ∨ g.marker ∈ t.captures op := by
    intro heq
    rw [heq] at hg
    exact Or.inl ⟨g, hg, rfl⟩
  cases op with
  | allocate form r => exact hsame (guards_request form r)
  | top => exact hsame rfl
  | unwind k =>
    refine hsame ?_
    rw [act]
    cases markers[k]? <;> rfl
  | unwindAll => exact hsame rfl
  | shrink => exact hsame rfl
  | reportLeaks => exact hsame rfl
  | enter =>
    rcases List.mem_cons.1 hg with rfl | hold
    · exact Or.inr List.mem_cons_self
    · exact Or.inl ⟨g, hold, rfl⟩
  | disarm =>
    rw [act] at hg
    cases hguards : t.guards with
    | nil =>
      rw [hguards] at hg
      exact Or.inl ⟨g, by rwa [← hguards], rfl⟩
    | cons first outer =>
      rw [hguards] at hg
      rcases List.mem_cons.1 hg with rfl | hold
      · exact Or.inl ⟨first, List.mem_cons_self, rfl⟩
      · exact Or.inl ⟨g, List.mem_cons_of_mem _ hold, rfl⟩
  | retreat =>
    refine hsame ?_
    rw [act]
    cases hguards : t.guards <;> exact hguards
  | leave =>
    rw [act] at hg
    cases hguards : t.guards with
    | nil =>
      rw [hguards] at hg
      exact Or.inl ⟨g, by rwa [← hguards], rfl⟩
    | cons first outer =>
      rw [hguards] at hg
      exact Or.inl ⟨g, List.mem_cons_of_mem _ hg, rfl⟩

/-- An operation unwinds to a captured marker, or to that of a guard. -/
theorem target?_mem {op : Op} {m : Marker} (hm : t.target? markers op = some m) :
    m ∈ markers ∨ ∃ g ∈ t.guards, g.marker = m := by
  cases op with
  | unwind k => exact Or.inl (List.mem_of_getElem? hm)
  | retreat =>
    obtain ⟨g, hg, rfl⟩ := Option.map_eq_some_iff.1 hm
    exact Or.inr ⟨g, List.mem_of_mem_head? hg, rfl⟩
  | leave =>
    obtain ⟨g, hg, rfl⟩ := Option.map_eq_some_iff.1 hm
    exact Or.inr ⟨g, List.mem_of_mem_head? (Option.filter_eq_some_iff.1 hg).1, rfl⟩
  | _ => nomatch hm

end Tenancy

/-! ## Accounts of a world -/

namespace World

open Stack

/-- `Account n w`: after `n` calls the books of all stacks balance, their serials are in order and
    not more than the calls, and every marker captured so far knows every stack. -/
structure Account (n : Nat) (w : World) : Prop where
  balanced : ∀ i t, w.at? i = some t → t.stack.Balanced
  ordered : ∀ i t, w.at? i = some t → t.stack.Ordered
  serials : ∀ i t, w.at? i = some t → t.stack.nextSerial ≤ n + 1
  guarded : ∀ i t, w.at? i = some t → ∀ g ∈ t.guards, g.marker ∈ w.markers
  issued : ∀ m ∈ w.markers, m.stack.value ≤ w.host.lastId
  knows : ∀ m ∈ w.markers, ∀ i t, w.at? i = some t → t.stack.Knows m

variable {p : Platform} {gap n : Nat} {w : World}

theorem Account.initial : Account 0 initial :=
  ⟨fun i t h => absurd h (not_at?_initial i t), fun i t h => absurd h (not_at?_initial i t),
   fun i t h => absurd h (not_at?_initial i t), fun i t h => absurd h (not_at?_initial i t),
   fun _ hm => (List.not_mem_nil hm).elim, fun _ hm => (List.not_mem_nil hm).elim⟩

theorem Account.mono {n' : Nat} (ha : w.Account n) (hle : n ≤ n') : w.Account n' :=
  ⟨ha.balanced, ha.ordered,
   fun i t hat => Nat.le_trans (ha.serials i t hat) (Nat.add_le_add_right hle 1),
   ha.guarded, ha.issued, ha.knows⟩

/-- What the books of a stack are after an operation on it. -/
theorem Account.act (hp : p.Sound gap) (hw : w.Sound gap) (ha : w.Account n) {i : Nat}
    {t : Tenancy} (hat : w.at? i = some t) {op : Op}
    (hcare : p.build = .debug ∨ (n + 2 < Word.count ∧
      ∀ s m, w.target? (.on i op) = some (s, m) → s.objection? m = none)) :
    (t.act p w.markers w.host op).1.stack.Balanced ∧
      Shift t.stack (t.act p w.markers w.host op).1.stack ∧
      (t.act p w.markers w.host op).1.stack.nextSerial ≤ n + 1 + 1 := by
  have hset := hw.settled i t hat
  have hordered := ha.ordered i t hat
  have hserials := ha.serials i t hat
  have hchange := Tenancy.act_change hp hset w.markers op
  have hroom : p.build = .debug ∨ t.stack.nextSerial + 1 < Word.count := by
    rcases hcare with hdebug | ⟨hlt, -⟩
    · exact Or.inl hdebug
    · exact Or.inr (by omega)
  refine ⟨?_, hchange.shift hroom, ?_⟩
  · refine hchange.balanced hp hset (ha.balanced i t hat) ?_ ?_
    · rintro m (htarget | rfl)
      · rcases Tenancy.target?_mem htarget with hmem | ⟨g, hg, rfl⟩
        · exact ha.knows m hmem i t hat
        · exact ha.knows g.marker (ha.guarded i t hat g hg) i t hat
      · exact knows_bottom hset.wellFormed hordered
    · rintro m (htarget | rfl)
      · rcases hcare with hdebug | ⟨-, haccepted⟩
        · exact Or.inl hdebug
        · refine Or.inr (haccepted t.stack m ?_)
          rw [target?, hat]
          show (t.target? w.markers op).map _ = _
          rw [htarget]
          rfl
      · exact Or.inr (bottom_accepted hset.wellFormed)
  · have hle := hchange.nextSerial_le
    omega

/-- A new stack knows the markers of the others, and they know its own: none is of its owner. -/
theorem Account.made (hw : w.Sound gap) (ha : w.Account n) {c : Config} {base : Nat} :
    (w.enroll (newborn c w.host base)
      ((identified w.host).withRegion p base (Block.layoutOf c.initialBlock))).Account (n + 1) := by
  have hnew : ∀ m ∈ w.markers, (newborn c w.host base).Knows m := by
    intro m hm hstack
    have hle := ha.issued m hm
    rw [hstack] at hle
    exact absurd hle (Nat.not_succ_le_self _)
  have hold : ∀ j u, w.at? j = some u → u.stack.Knows (newborn c w.host base).bottom := by
    intro j u hu hstack
    have hle := hw.counted j u hu
    rw [← hstack] at hle
    exact absurd hle (Nat.not_succ_le_self _)
  have hbalanced : (newborn c w.host base).Balanced := rfl
  have hordered := newborn_ordered c w.host base
  constructor
  · exact forall_at?_enroll ha.balanced hbalanced
  · exact forall_at?_enroll ha.ordered hordered
  · exact forall_at?_enroll (fun j u hu => Nat.le_succ_of_le (ha.serials j u hu))
      (Nat.le_add_left 1 (n + 1))
  · refine forall_at?_enroll ?_ fun g hg => (List.not_mem_nil hg).elim
    intro j u hu g hg
    exact List.mem_append_left _ (ha.guarded j u hu g hg)
  · intro m hm
    rcases List.mem_append.1 hm with hm | hm
    · exact Nat.le_succ_of_le (ha.issued m hm)
    · rw [List.mem_singleton.1 hm]
      exact Nat.le_refl _
  · intro m hm
    rcases List.mem_append.1 hm with hm | hm
    · exact forall_at?_enroll (ha.knows m hm) (hnew m hm)
    · rw [List.mem_singleton.1 hm]
      exact forall_at?_enroll hold (knows_top hordered hbalanced)

/-- Before an operation every stack knows what the operation captures, too. -/
theorem Account.knows_captured (hw : w.Sound gap) (ha : w.Account n) {i : Nat} {t : Tenancy}
    (hat : w.at? i = some t) {op : Op} {m : Marker} (hm : m ∈ w.markers ++ t.captures op) {j : Nat}
    {u : Tenancy} (hu : w.at? j = some u) : u.stack.Knows m := by
  rcases List.mem_append.1 hm with hm | hm
  · exact ha.knows m hm j u hu
  · rw [Tenancy.eq_top_of_captures hm]
    by_cases hji : j = i
    · rw [hji, hat] at hu
      rw [← Option.some.inj hu]
      exact knows_top (ha.ordered i t hat) (ha.balanced i t hat)
    · intro hstack
      exact absurd hstack (hw.distinct i j t u hat hu (Ne.symm hji))

theorem Account.operated (hp : p.Sound gap) (hw : w.Sound gap) (ha : w.Account n) {i : Nat}
    {t : Tenancy} (hat : w.at? i = some t) {op : Op}
    (hcare : p.build = .debug ∨ (n + 2 < Word.count ∧
      ∀ s m, w.target? (.on i op) = some (s, m) → s.objection? m = none)) :
    Account (n + 1) ⟨(t.act p w.markers w.host op).2,
      w.slots.set i (some (t.act p w.markers w.host op).1), w.markers ++ t.captures op⟩ := by
  obtain ⟨hbalanced, hshift, hserials⟩ := ha.act hp hw hat hcare
  have hmoves := act_moves hp hw hat op
  have hguards := @Tenancy.guards_act p w.markers t w.host op
  generalize t.act p w.markers w.host op = done at hbalanced hshift hserials hmoves hguards ⊢
  obtain ⟨t', h'⟩ := done
  have hlt := lt_of_at? hat
  constructor
  · exact forall_at?_set hlt hbalanced fun j u _ hu => ha.balanced j u hu
  · exact forall_at?_set hlt (hshift.ordered (ha.ordered i t hat)) fun j u _ hu => ha.ordered j u hu
  · exact forall_at?_set hlt hserials fun j u _ hu => Nat.le_succ_of_le (ha.serials j u hu)
  · refine forall_at?_set hlt ?_ ?_
    · intro g hg
      rcases hguards hg with ⟨g₀, hg₀, hsame⟩ | hnew
      · rw [← hsame]
        exact List.mem_append_left _ (ha.guarded i t hat g₀ hg₀)
      · exact List.mem_append_right _ hnew
    · intro j u _ hu g hg
      exact List.mem_append_left _ (ha.guarded j u hu g hg)
  · intro m hm
    show m.stack.value ≤ h'.lastId
    rw [hmoves.lastId_eq]
    rcases List.mem_append.1 hm with hm | hm
    · exact ha.issued m hm
    · rw [Tenancy.eq_top_of_captures hm]
      exact hw.counted i t hat
  · intro m hm
    exact forall_at?_set hlt (hshift.knows (ha.knows_captured hw hat hm hat))
      fun j u _ hu => ha.knows_captured hw hat hm hu

theorem Account.discarded (hw : w.Sound gap) (ha : w.Account n) {i : Nat} {t : Tenancy}
    (hat : w.at? i = some t) :
    Account (n + 1) ⟨(Action.after (Stack.discard p) (t.stack, w.host)).2.2,
      w.slots.set i none, w.markers⟩ := by
  obtain ⟨out, s', h', hrun, -, hlast, -⟩ := discard_ends p (s := t.stack) hw.spaced
  rw [hrun]
  have hold : ∀ {j u}, (⟨h', w.slots.set i none, w.markers⟩ : World).at? j = some u →
      w.at? j = some u := fun hu => (at?_of_emptied (lt_of_at? hat) hu).2
  refine ⟨fun j u hu => ha.balanced j u (hold hu), fun j u hu => ha.ordered j u (hold hu),
    fun j u hu => Nat.le_succ_of_le (ha.serials j u (hold hu)),
    fun j u hu => ha.guarded j u (hold hu), ?_, fun m hm j u hu => ha.knows m hm j u (hold hu)⟩
  intro m hm
  show m.stack.value ≤ h'.lastId
  rw [hlast]
  exact ha.issued m hm

/-- **A call keeps a world accounted for**, in a debug build or with care. -/
theorem Account.step (hp : p.Sound gap) (hw : w.Sound gap) (ha : w.Account n) (c : Call)
    (hcare : p.build = .debug ∨ (n + 2 < Word.count ∧
      ∀ s m, w.target? c = some (s, m) → s.objection? m = none)) :
    (w.step p c).Account (n + 1) := by
  have hstep := step_spec p w c
  generalize w.step p c = w' at hstep ⊢
  cases hstep with
  | idle => exact ha.mono (Nat.le_succ n)
  | hosted hmemory hlast =>
    have hmono := ha.mono (Nat.le_succ n)
    exact ⟨hmono.balanced, hmono.ordered, hmono.serials, hmono.guarded,
      fun m hm => Nat.le_trans (ha.issued m hm) hlast, hmono.knows⟩
  | made => exact ha.made hw
  | operated hat => exact ha.operated hp hw hat hcare
  | discarded hat => exact ha.discarded hw hat

/-! ## The books of a run -/

/-- A run keeps a world accounted for. -/
theorem Account.run (hp : p.Sound gap) (hw : w.Sound gap) (ha : w.Account n) {cs : List Call}
    (hcare : p.build = .debug ∨ (n + cs.length < Word.max ∧ Careful p w cs)) :
    (run p w cs).Account (n + cs.length) := by
  induction cs generalizing w n with
  | nil => exact ha
  | cons c cs ih =>
    rw [List.length_cons] at hcare ⊢
    rw [Nat.add_comm cs.length 1, ← Nat.add_assoc] at hcare ⊢
    -- A call takes one serial at most, so the serials last as long as there are words.
    refine ih (hw.step hp c) (ha.step hp hw c ?_) ?_
    · rcases hcare with hdebug | ⟨hlt, haccepted, -⟩
      · exact Or.inl hdebug
      · refine Or.inr ⟨?_, haccepted⟩
        have hmax : Word.max + 1 = Word.count := by decide
        omega
    · exact hcare.imp_right fun hrun => ⟨hrun.1, hrun.2.2⟩

/-- In a debug build every reachable world is accounted for. -/
theorem Reachable.account (hp : p.Sound gap) (hdebug : p.build = .debug) (hw : Reachable p w) :
    ∃ n, w.Account n := by
  obtain ⟨cs, rfl⟩ := hw
  exact ⟨_, Account.initial.run hp (Sound.initial gap) (Or.inl hdebug)⟩

/-- Unless it is a release build, the books of every stack balance. -/
theorem Reachable.books (hp : p.Sound gap) (hw : Reachable p w) {i : Nat} {t : Tenancy}
    (hat : w.at? i = some t) : p.build = .release ∨ t.stack.Balanced := by
  by_cases hrelease : p.build = .release
  · exact Or.inl hrelease
  · obtain ⟨n, haccount⟩ := hw.account hp (Build.eq_debug_iff.2 hrelease)
    exact Or.inr (haccount.balanced i t hat)

/-- **The books are right.**  In every state of every run of a debug build, and of every run of a
    release build in which the checks would have accepted each marker that an unwind was given, the
    outstanding bytes of a stack are the cursors of its active blocks together, its capacity is
    theirs together, no cursor has passed the end of its block, and there is a block.  (The serials
    of a release build start over after as many calls as there are words.) -/
theorem books_right (hp : p.Sound gap) {cs : List Call}
    (hcare : p.build = .debug ∨ (cs.length < Word.max ∧ Careful p initial cs)) {i : Nat}
    {t : Tenancy} (hat : (run p initial cs).at? i = some t) :
    t.stack.outstanding = (t.stack.active.map Block.cursor).sum ∧
      t.stack.capacity = (t.stack.active.map Block.capacity).sum ∧
      (∀ blk ∈ t.stack.active, blk.cursor ≤ blk.capacity) ∧ 1 ≤ t.stack.blockCount := by
  have hs := (((Sound.initial gap).run hp cs).settled i t hat).wellFormed
  have hcare' : p.build = .debug ∨ (0 + cs.length < Word.max ∧ Careful p initial cs) := by
    rwa [Nat.zero_add]
  have haccount := Account.initial.run hp (Sound.initial gap) hcare'
  exact ⟨haccount.balanced i t hat, hs.capacity_eq,
    fun blk hblk => hs.cursor_le blk (mem_blocks_of_active hblk), Nat.le_add_left 1 _⟩

/-- Calls that grow a stack, unwind it to a marker of its first block, and make a request there. -/
def thereAndBack : List Call :=
  [.make (.sized .release 64), .on 0 (.allocate .plain ⟨10, 1⟩), .on 0 .top,
    .on 0 (.allocate .plain ⟨100, 32⟩), .on 0 (.unwind 1), .on 0 (.allocate .fallible ⟨20, 8⟩)]

/-- The marker is one that the checks would accept, so the books of a release build are right. -/
theorem books_right_unwound :
    ∃ t, (run (Session.platform .release []) initial thereAndBack).at? 0 = some t ∧
      t.stack.outstanding = 36 ∧
      t.stack.outstanding = (t.stack.active.map Block.cursor).sum ∧ 1 ≤ t.stack.blockCount := by
  have hp : (Session.platform .release []).Sound 1 :=
    Session.platform_sound .release (by nofun) (by decide)
  have hcareful : Careful (Session.platform .release []) initial thereAndBack := by decide +kernel
  have hend : ((run (Session.platform .release []) initial thereAndBack).at? 0).map
      (fun t => t.stack.outstanding) = some 36 := by decide +kernel
  obtain ⟨t, hat, hout⟩ := Option.map_eq_some_iff.1 hend
  obtain ⟨hbooks, -, -, hcount⟩ := books_right hp (Or.inr ⟨by decide, hcareful⟩) hat
  exact ⟨t, hat, hout, hbooks, hcount⟩

end World

end StackArena
