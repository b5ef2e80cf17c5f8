/-
  Whether two providers as one keep what they state.

  A provider states the largest alignment that it honours: whatever it serves at a power of two up
  to that limit is a multiple of it (`Honours`).  Two providers as one state the larger of the two
  limits, but which of them serves a request has nothing to do with limits: the first is asked, and
  where it declines, the second.

  1. **Always** — stacks and the heap serve multiples of every power of two, and so does every tree
     of stacks that may end in a heap, at every point of a run (`Estate.Reachable.honours`).
  2. **Exactly when** — of any two providers, the two as one honour their limit just when either
     serves a multiple also where it is asked beyond its own limit (`fallback_honours_iff`); so they
     do if the limits are the same.
  3. **Not always** — a budget ignores the alignment, and keeps its word only if it states a limit
     of one.  In front of a heap it is asked for what only the heap honours, and serves it
     (`fallback_breaks_limit`).
-/
import StackArena.Proofs.Routing

namespace StackArena

namespace Provider

variable {σ τ : Type} {P : Provider σ} {Q : Provider τ} {s : σ} {u : τ} {h : Host}

/-! ## Limits that are honoured -/

/-- `P.Honours s h`: in whatever way the provider is asked in its state, what it serves at an
    alignment up to its limit is a multiple of it. -/
def Honours (P : Provider σ) (s : σ) (h : Host) : Prop :=
  ∀ (w : Way) (e : Request) (address : Nat) (st : σ × Host),
    Alignment.isValid e.alignment = true → e.alignment ≤ (P.limits s).maxAlignment →
    Action.after (w.ask P e) (s, h) = (.ok (some address), st) → e.alignment ∣ address

/-- A limit of one is always honoured. -/
theorem honours_of_le_one (hlimit : (P.limits s).maxAlignment ≤ 1) : P.Honours s h := by
  intro w e address st hvalid hle _
  have hpos := Alignment.pos_of_isValid hvalid
  have hone : e.alignment = 1 := by omega
  rw [hone]
  exact Nat.one_dvd address

/-! ## Two providers as one -/

/-- What the first provider serves, the two serve as one. -/
theorem ask_fallback_of_some {w : Way} {e : Request} {address : Nat} {s' : σ} {h' : Host}
    (hfirst : Action.after (w.trial.ask P e) (s, h) = (.ok (some address), s', h')) :
    Action.after (w.ask (P.fallback Q) e) ((s, u), h) = (.ok (some address), (s', u), h') := by
  rw [ask_fallback, hfirst]

/-- What the first provider declines, the two serve as the second does. -/
theorem ask_fallback_of_none {w : Way} {e : Request} {s' : σ} {u' : τ} {h' h'' : Host}
    {out : Except Fault (Option Nat)}
    (hfirst : Action.after (w.trial.ask P e) (s, h) = (.ok none, s', h'))
    (hsecond : Action.after (w.ask Q e) (u, h') = (out, u', h'')) :
    Action.after (w.ask (P.fallback Q) e) ((s, u), h) = (out, (s', u'), h'') := by
  rw [ask_fallback, hfirst]
  dsimp only
  rw [hsecond]

/-- **One of the two has served** what the two serve as one. -/
theorem served_of_fallback {w : Way} {e : Request} {address : Nat} {st : (σ × τ) × Host}
    (hrun : Action.after (w.ask (P.fallback Q) e) ((s, u), h) = (.ok (some address), st)) :
    (∃ st', Action.after (w.trial.ask P e) (s, h) = (.ok (some address), st')) ∨
    ∃ s' h' st', Action.after (w.trial.ask P e) (s, h) = (.ok none, s', h') ∧
      Action.after (w.ask Q e) (u, h') = (.ok (some address), st') := by
  rw [ask_fallback] at hrun
  rcases hfirst : Action.after (w.trial.ask P e) (s, h) with ⟨(fault | (_ | served)), s', h'⟩
  · rw [hfirst] at hrun
    cases hrun
  · rw [hfirst] at hrun
    rcases hsecond : Action.after (w.ask Q e) (u, h') with ⟨out, u', h''⟩
    dsimp only at hrun
    rw [hsecond] at hrun
    cases hrun
    exact Or.inr ⟨s', h', _, rfl, hsecond⟩
  · rw [hfirst] at hrun
    cases hrun
    exact Or.inl ⟨_, rfl⟩

end Provider

/-! ## Stacks and the heap -/

/-- `ServesAligned p`: a chunk starts at a multiple of the alignment of its layout. -/
def Platform.ServesAligned (p : Platform) : Prop :=
  ∀ o l base, Alignment.isValid l.alignment = true → p.placeChunk o l = some base →
    l.alignment ∣ base

/-- The chunks of a session start where they should. -/
theorem Session.platform_servesAligned (b : Build) (skews : List Nat) :
    (Session.platform b skews).ServesAligned := by
  intro o l base hvalid hplace
  have hpos := Alignment.pos_of_isValid hvalid
  have hdvd : l.alignment ∣ max l.alignment Alignment.maxNatural := by
    rcases Alignment.dvd_natural hvalid with hsmall | hlarge
    · rw [Nat.max_eq_right (Nat.le_of_dvd (by decide) hsmall)]
      exact hsmall
    · rw [Nat.max_eq_left (Nat.le_of_dvd hpos hlarge)]
  have hchunk : Placement.chunk o l = some base := hplace
  simp only [Placement.chunk, Placement.fitting?] at hchunk
  split at hchunk
  · cases hchunk
    exact hdvd.trans (Nat.dvd_mul_left _ _)
  · cases hchunk

/-- The heap serves in the alignment that it is asked for, if that is a power of two. -/
theorem Heap.layout_alignment {r : Request} {l : Layout} (hlayout : layout r = .ok l) :
    l.alignment = r.alignment ∧ Alignment.isValid l.alignment = true := by
  rw [layout, Request.layout, Request.layout?] at hlayout
  split at hlayout
  · rename_i hsome
    split at hsome
    · rename_i hok
      cases hsome
      cases hlayout
      exact ⟨rfl, (Bool.and_eq_true_iff.1 hok).1⟩
    · cases hsome
  · split at hlayout
    · cases hlayout
    · cases hlayout

/-- What one of the leaves serves is a multiple of the alignment. -/
theorem Answers.dvd {p : Platform} {gap : Nat} {r : Request} {heaped : Bool} {ss ss' : List Stack}
    {h h' : Host} {address : Nat} (hp : p.Sound gap) (hc : p.ServesAligned)
    (hset : ∀ st ∈ ss, st.Settled gap h) (hvalid : Alignment.isValid r.alignment = true)
    (ha : Answers p r heaped ss h (.ok (some address), ss', h')) : r.alignment ∣ address := by
  cases ha with
  | refused hnothing => exact absurd rfl (hnothing address)
  | @stack left right s s' _ _ _ hserves =>
    have hown := hset s (List.mem_append_right left List.mem_cons_self)
    exact (hserves.fresh hp hown).aligned hvalid
  | heap _ hends =>
    cases hends with
    | served hlayout hplace =>
      obtain ⟨hsame, hvalid'⟩ := Heap.layout_alignment hlayout
      exact hsame ▸ hc _ _ _ hvalid' hplace
    | nothing hnothing => exact absurd rfl (hnothing address)

/-- **A tree of stacks that may end in a heap honours its limit**, and every other. -/
theorem Tree.honours {p : Platform} {gap : Nat} (hp : p.Sound gap) (hc : p.ServesAligned) {t : Tree}
    (ht : t.Routed) {s : t.State} {h : Host} (hset : ∀ st ∈ t.stackLeaves s, st.Settled gap h) :
    (t.provider p).Honours s h := by
  intro w e address st hvalid _ hrun
  obtain ⟨out, s', h', hrun', hanswers⟩ := ask_answers hp ht.unbudgeted w e s h hset
  cases hrun.symm.trans hrun'
  have hsame := w.alignment_request e
  exact hsame ▸ hanswers.dvd hp hc hset (hsame.symm ▸ hvalid)

namespace Estate

/-- It does so at every point of a run. -/
theorem Reachable.honours {p : Platform} {gap : Nat} (hp : p.Sound gap) (hparted : p.Parted)
    (hc : p.ServesAligned) {recipe : Recipe} (ht : recipe.tree.Routed) {e : Estate recipe.tree}
    (he : e.Reachable p recipe) : (recipe.tree.provider p).Honours e.state e.host :=
  Tree.honours hp hc ht (he.upheld hp hparted ht).neighbours.settled

end Estate

/-! ## When the larger limit is honoured -/

namespace Provider

variable {σ τ : Type} {P : Provider σ} {Q : Provider τ} {s : σ} {u : τ} {h : Host}

/-- **When two providers as one honour their limit.**  If both honour their own limits, the second
    also where the first has declined, then the two as one do just when each side serves a multiple
    of the alignment also
    1. of what the first is asked for beyond its limit, and serves;
    2. of what the second is asked for beyond its limit, where the first declines. -/
theorem fallback_honours_iff (hfirst : P.Honours s h)
    (hsecond : ∀ (w : Way) e s' h',
      Action.after (w.trial.ask P e) (s, h) = (.ok none, s', h') → Q.Honours u h') :
    (P.fallback Q).Honours (s, u) h ↔
      (∀ (w : Way) e address st, Alignment.isValid e.alignment = true →
        (P.limits s).maxAlignment < e.alignment → e.alignment ≤ (Q.limits u).maxAlignment →
        Action.after (w.trial.ask P e) (s, h) = (.ok (some address), st) →
        e.alignment ∣ address) ∧
      (∀ (w : Way) e address s' h' st, Alignment.isValid e.alignment = true →
        (Q.limits u).maxAlignment < e.alignment → e.alignment ≤ (P.limits s).maxAlignment →
        Action.after (w.trial.ask P e) (s, h) = (.ok none, s', h') →
        Action.after (w.ask Q e) (u, h') = (.ok (some address), st) →
        e.alignment ∣ address) := by
  have hlimit : ((P.fallback Q).limits (s, u)).maxAlignment
      = max (P.limits s).maxAlignment (Q.limits u).maxAlignment := rfl
  constructor
  · intro hboth
    constructor
    · intro w e address st hvalid _ hle hserved
      exact hboth w e address _ hvalid (by omega) (ask_fallback_of_some hserved)
    · intro w e address s' h' st hvalid _ hle hdeclined hserved
      exact hboth w e address _ hvalid (by omega) (ask_fallback_of_none hdeclined hserved)
  · rintro ⟨hbeyond, hbeyond'⟩ w e address st hvalid hle hrun
    rcases served_of_fallback hrun with ⟨st', hserved⟩ | ⟨s', h', st', hdeclined, hserved⟩
    · rcases Nat.lt_or_ge (P.limits s).maxAlignment e.alignment with hlarge | hsmall
      · exact hbeyond w e address st' hvalid hlarge (by omega) hserved
      · exact hfirst w.trial e address st' hvalid hsmall hserved
    · rcases Nat.lt_or_ge (Q.limits u).maxAlignment e.alignment with hlarge | hsmall
      · exact hbeyond' w e address s' h' st' hvalid hlarge (by omega) hdeclined hserved
      · exact hsecond w e s' h' hdeclined w e address st' hvalid hsmall hserved

/-- A stack in front of a heap. -/
def stackAndHeap : Recipe := .fallback (.stack (.sized .debug 64)) .heap

/-- Requests that leave the stack with little room. -/
def nearlyFull : List Errand := [.ask ⟨false, none⟩ ⟨50, 1⟩, .ask ⟨true, some 3⟩ ⟨8, 16⟩]

/-- The two have one limit, so the stack in front of the heap honours it. -/
theorem fallback_honours_stack :
    ∃ e : Estate stackAndHeap.tree, e.Reachable (Session.platform .debug []) stackAndHeap ∧
      e.leases.length = 2 ∧
      ((Stack.provider (Session.platform .debug [])).fallback
        (Heap.provider (Session.platform .debug []))).Honours e.state e.host := by
  have hp : (Session.platform .debug []).Sound 1 :=
    Session.platform_sound .debug (by nofun) (by decide)
  have hc := Session.platform_servesAligned .debug []
  have htwo : ((Estate.made? (Session.platform .debug []) stackAndHeap).map fun start =>
      (start.run (Session.platform .debug []) nearlyFull).leases.length) = some 2 := by
    decide +kernel
  obtain ⟨start, hmade, hlength⟩ := Option.map_eq_some_iff.1 htwo
  have he : (start.run (Session.platform .debug []) nearlyFull).Reachable
      (Session.platform .debug []) stackAndHeap := ⟨start, nearlyFull, hmade, rfl⟩
  generalize start.run (Session.platform .debug []) nearlyFull = e at hlength he
  have ht : stackAndHeap.tree.Routed := ⟨trivial, trivial⟩
  have hset : ∀ st ∈ stackAndHeap.tree.stackLeaves e.state, st.Settled 1 e.host :=
    (he.upheld hp (Session.platform_parted .debug []) ht).neighbours.settled
  have hfirst : (Tree.stack.provider (Session.platform .debug [])).Honours
      (e.state : Stack × Unit).1 e.host :=
    Tree.honours (t := .stack) hp hc trivial fun st hst => hset st (List.mem_append_left _ hst)
  have hsecond : ∀ h', (Tree.heap.provider (Session.platform .debug [])).Honours () h' :=
    fun h' => Tree.honours (t := .heap) hp hc trivial fun st hst => (List.not_mem_nil hst).elim
  refine ⟨e, he, hlength, (fallback_honours_iff hfirst fun _ _ _ h' _ => hsecond h').2 ⟨?_, ?_⟩⟩
  · intro w r address st _ hbeyond hle
    exact absurd hbeyond (Nat.not_lt.2 hle)
  · intro w r address s' h' st _ hbeyond hle
    exact absurd hbeyond (Nat.not_lt.2 hle)

/-- The limits of a budget that promises nothing but single bytes. -/
def bytewise : Limits := ⟨64, 64, 1⟩

/-- Such a budget, which looks bytes up in its buffer, in front of a heap. -/
def budgetAndHeap : Recipe := .fallback (.budget 64 bytewise .looksUp) .heap

/-- **The larger limit need not be honoured.**  A budget of single bytes honours its limit whatever
    has happened, and so does the heap.  The two as one state the limit of the heap.  After one byte
    was served, they serve eight bytes at an alignment of sixteen: those come from the budget, right
    after that byte. -/
theorem fallback_breaks_limit :
    (∀ b h, b.limits = bytewise → (Budget.provider (Session.platform .debug [])).Honours b h) ∧
    (∀ h, (Heap.provider (Session.platform .debug [])).Honours () h) ∧
    ∃ e : Estate budgetAndHeap.tree, e.Reachable (Session.platform .debug []) budgetAndHeap ∧
      (e.state : Budget × Unit).1.limits = bytewise ∧
      16 ≤ ((budgetAndHeap.tree.provider (Session.platform .debug [])).limits
        e.state).maxAlignment ∧
      ∃ address st, Action.after (Way.ask (budgetAndHeap.tree.provider
        (Session.platform .debug [])) ⟨8, 16⟩ ⟨false, none⟩) (e.state, e.host)
          = (.ok (some address), st) ∧ ¬16 ∣ address := by
  have hp : (Session.platform .debug []).Sound 1 :=
    Session.platform_sound .debug (by nofun) (by decide)
  have hc := Session.platform_servesAligned .debug []
  have hend : ((Estate.made? (Session.platform .debug []) budgetAndHeap).map fun start =>
      let e := start.run (Session.platform .debug []) [.ask ⟨false, none⟩ ⟨1, 1⟩]
      ((e.state : Budget × Unit).1.limits,
        ((budgetAndHeap.tree.provider (Session.platform .debug [])).limits e.state).maxAlignment,
        (Action.after (Way.ask (budgetAndHeap.tree.provider (Session.platform .debug []))
          ⟨8, 16⟩ ⟨false, none⟩) (e.state, e.host)).1.toOption))
      = some (bytewise, 16, some (some 65537)) := by decide +kernel
  obtain ⟨start, hmade, hall⟩ := Option.map_eq_some_iff.1 hend
  dsimp only at hall
  have he : (start.run (Session.platform .debug []) [.ask ⟨false, none⟩ ⟨1, 1⟩]).Reachable
      (Session.platform .debug []) budgetAndHeap := ⟨start, _, hmade, rfl⟩
  generalize start.run (Session.platform .debug []) [.ask ⟨false, none⟩ ⟨1, 1⟩] = e at hall he
  obtain ⟨hlimits, hrest⟩ := Prod.mk.inj hall
  obtain ⟨hmax, hserved⟩ := Prod.mk.inj hrest
  refine ⟨?_, ?_, e, he, hlimits, Nat.le_of_eq hmax.symm, 65537, ?_⟩
  · intro b h hb
    refine honours_of_le_one ?_
    show b.limits.maxAlignment ≤ 1
    rw [hb]
    exact Nat.le_refl _
  · intro h
    exact Tree.honours (t := .heap) hp hc trivial fun st hst => (List.not_mem_nil hst).elim
  · rcases hrun : Action.after (Way.ask (budgetAndHeap.tree.provider (Session.platform .debug []))
      ⟨8, 16⟩ ⟨false, none⟩) (e.state, e.host) with ⟨fault | served, st⟩
    · rw [hrun] at hserved
      cases hserved
    · rw [hrun] at hserved
      cases hserved
      exact ⟨st, rfl, by decide⟩

end Provider

end StackArena
