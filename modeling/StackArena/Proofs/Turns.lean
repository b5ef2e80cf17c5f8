/-
  What a call does to one stack.

  1. **Ends** — how far requests in every form get (`Handled`) and how they end (`Asked`), and how
     unwinds do (`unwind_ends`).
  2. **Changes** — what can happen to a stack (`Change`): nothing but the journal and the handler is
     touched, a request is made, an accepted unwind is made, or the cache is trimmed.
  3. **Turns** — what an operation does to the stack and to the live grants together (`Turn`).

  `act_turn` goes through the operations once and for all; what every operation keeps of a tenancy
  is proved over the cases of `Turn`, and what it keeps of a stack over those of `Change`.
-/
import StackArena.Proofs.Serving
import StackArena.Proofs.World

namespace StackArena

/-- Whether a stack may grow for a request in the form. -/
def Form.grows : Form → Bool
  | plain | array _ => true
  | fallible | offered | offeredArray _ => false

namespace Stack

/-! ## Requests in every form -/

/-- `Asked p form r s h end`: the ends of a request in a form.  The stack is asked, or it is not
    even asked. -/
inductive Asked (p : Platform) (form : Form) (r : Request) (s : Stack) (h : Host) :
    Except Fault (Option Nat) × Stack × Host → Prop
  | asked {r' : Request} {out : Except Fault (Option Nat) × Stack × Host}
      (hrequest : form.request? r = some r') (hserves : Serves p r' s h out) :
      Asked p form r s h out
  | refused {out : Except Fault (Option Nat)} (hnothing : ∀ address, out ≠ .ok (some address)) :
      Asked p form r s h (out, s, h)

/-- `Handled p form r s h end`: how far a request in a form gets, and what comes of it. -/
inductive Handled (p : Platform) (form : Form) (r : Request) (s : Stack) (h : Host) :
    Except Fault (Option Nat) × Stack × Host → Prop
  /-- It is made of the stack, which may grow for it. -/
  | stack {r' : Request} (hrequest : form.request? r = some r') (hgrows : form.grows = true) :
      Handled p form r s h (Action.after (some <$> allocate p r') (s, h))
  /-- It is made of the current block. -/
  | block {r' : Request} {out : Except Fault (Option Nat) × Stack × Host}
      (hrequest : form.request? r = some r') (hgrows : form.grows = false)
      (hbump : Bump p r' s h out) : Handled p form r s h out
  /-- It is turned down before, with a fault that can be caught or with none. -/
  | nowhere {out : Except Fault (Option Nat)} (hnothing : ∀ address, out ≠ .ok (some address))
      (hcaught : ∀ f, out = .error f → f.isFatal = false) : Handled p form r s h (out, s, h)

section

variable {p : Platform} {gap : Nat} {s : Stack} {h : Host}

/-- A request to the stack as a provider is one to the current block. -/
theorem offer_bumps {r : Request} (hset : Settled gap s h)
    (hvalid : Alignment.isValid r.alignment = true) :
    Bump p r s h (Action.after (Except.toOption <$> offer p r) (s, h)) := by
  rw [Action.after_map, offer, hvalid, Bool.not_true, if_neg Bool.false_ne_true, Action.after_bind,
    tryAllocate, Build.require_of_holds _ (Or.inr hvalid), Action.check_bind]
  have hbump := bump_ends (r := r) h hset.wellFormed (Or.inr hvalid : p.build = .release ∨ _)
  generalize Action.after (bump p r) (s, h) = out at hbump ⊢
  cases hbump with
  | declined hspan =>
    have hleft : s.capacityLeft p.build = .ok (s.current.capacity - s.current.cursor) :=
      p.build.sub_of_le hset.wellFormed.current_le
    have hrest : (do
        let s ← Action.self
        let available ← s.capacityLeft p.build
        return .error (.exhausted r.size available) : Action Stack (Except AllocError Nat)) (s, h)
        = .ok (.error (.exhausted r.size (s.current.capacity - s.current.cursor))) (s, h) := by
      rw [Action.self_bind, hleft]
      rfl
    dsimp only
    rw [Action.after_of_ok hrest]
    exact .declined hspan
  | overdrawn hspan hout => exact .overdrawn hspan hout
  | served hspan hout => exact .served hspan hout

/-- A request whose alignment is refused before does nothing. -/
theorem offer_refused {r : Request} (hinvalid : Alignment.isValid r.alignment = false) :
    Action.after (Except.toOption <$> offer p r) (s, h) = (.ok none, s, h) := by
  have hrun : offer p r (s, h) = .ok (.error (.invalidAlignment r.alignment)) (s, h) := by
    rw [offer, hinvalid]
    rfl
  rw [Action.after_map, Action.after_of_ok hrun]
  rfl

/-- **A request in any form is handled** by the stack, which may grow for it; or by the current
    block; or nowhere. -/
theorem ask_handled (hset : Settled gap s h) (form : Form) (r : Request) :
    Handled p form r s h (Action.after (form.ask p r) (s, h)) := by
  have hoffer : ∀ {form : Form} {r' : Request}, form.request? r = some r' → form.grows = false →
      Handled p form r s h (Action.after (Except.toOption <$> offer p r') (s, h)) := by
    intro form r' hrequest hgrows
    cases hvalid : Alignment.isValid r'.alignment with
    | true => exact .block hrequest hgrows (offer_bumps hset hvalid)
    | false =>
      rw [offer_refused hvalid]
      exact .nowhere (fun address => by nofun) (fun f => by nofun)
  cases form with
  | plain => exact .stack rfl rfl
  | fallible =>
    rcases tryAllocate_ends (p := p) (r := r) (h := h) hset.wellFormed with hbump | ⟨-, hrun⟩
    · exact .block rfl rfl hbump
    · rw [Form.ask, Action.after_of_error hrun]
      exact .nowhere (fun address => by nofun) fun f hf => by cases hf; rfl
  | offered => exact hoffer rfl rfl
  | array count =>
    cases htotal : Word.mul? count r.size with
    | some total =>
      have hsize : arraySize count r.size = .ok total := by rw [arraySize, htotal]
      have hrun : (Form.array count).ask p r = some <$> allocate p ⟨total, r.alignment⟩ := by
        simp only [Form.ask, provider, hsize]
      rw [hrun]
      exact .stack (by rw [Form.request?, htotal]; rfl) rfl
    | none =>
      have hsize : arraySize count r.size = .error (.sizeOverflow count r.size) := by
        rw [arraySize, htotal]
      have hrun : (Form.array count).ask p r (s, h)
          = .error (.declined (.sizeOverflow count r.size)) (s, h) := by
        simp only [Form.ask, provider, hsize]
        rfl
      rw [Action.after_of_error hrun]
      exact .nowhere (fun address => by nofun) fun f hf => by cases hf; rfl
  | offeredArray count =>
    cases htotal : Word.mul? count r.size with
    | some total =>
      have hsize : arraySize count r.size = .ok total := by rw [arraySize, htotal]
      have hrun : (Form.offeredArray count).ask p r
          = Except.toOption <$> offer p ⟨total, r.alignment⟩ := by
        simp only [Form.ask, provider, hsize]
      rw [hrun]
      exact hoffer (by rw [Form.request?, htotal]; rfl) rfl
    | none =>
      have hsize : arraySize count r.size = .error (.sizeOverflow count r.size) := by
        rw [arraySize, htotal]
      have hrun : (Form.offeredArray count).ask p r (s, h) = .ok none (s, h) := by
        simp only [Form.ask, provider, hsize]
        rfl
      rw [Action.after_of_ok hrun]
      exact .nowhere (fun address => by nofun) (fun f => by nofun)

/-- **A request in any form** ends in one of the ways of `Asked`. -/
theorem ask_ends (hp : p.Sound gap) (hset : Settled gap s h) (form : Form) (r : Request) :
    Asked p form r s h (Action.after (form.ask p r) (s, h)) := by
  have hhandled := ask_handled (p := p) hset form r
  generalize Action.after (form.ask p r) (s, h) = out at hhandled ⊢
  cases hhandled with
  | stack hrequest => exact .asked hrequest (allocate_ends hp hset)
  | block hrequest _ hbump => exact .asked hrequest (.bumped hbump)
  | nowhere hnothing => exact .refused hnothing

/-! ## Unwinds, checked or not -/

/-- An unwind is made in full, or a debug build stops before it. -/
theorem unwind_ends (p : Platform) (m : Marker) (h : Host) (hs : s.WellFormed) :
    (Action.after (unwind p m) (s, h) = (.ok (), s.unwound m, s.swept m h) ∧
      (p.build = .release ∨ s.objection? m = none)) ∨
    ∃ f, Action.after (unwind p m) (s, h) = (.error f, s, h) ∧ p.build = .debug ∧
      s.objection? m = some f := by
  by_cases hok : p.build = .release ∨ s.objection? m = none
  · exact Or.inl ⟨Action.after_of_ok (unwind_of_accepted h hs hok), hok⟩
  · obtain ⟨hbuild, hsome⟩ := not_or.1 hok
    obtain ⟨f, hf⟩ := Option.ne_none_iff_exists'.1 hsome
    have hdebug := Build.eq_debug_iff.2 hbuild
    exact Or.inr ⟨f, Action.after_of_error (unwind_of_objection h hdebug hf), hdebug, hf⟩

/-! ## The four changes -/

/-- `Change p known s h s' h'`: what one operation does to its stack; `known` are the markers that
    it may unwind to. -/
inductive Change (p : Platform) (known : Marker → Prop) (s : Stack) (h : Host) :
    Stack → Host → Prop
  | still {h' : Host} (hstill : h.Still h') : Change p known s h s h'
  | served {r : Request} {out : Except Fault (Option Nat)} {s' : Stack} {h' : Host}
      (hserves : Serves p r s h (out, s', h')) : Change p known s h s' h'
  | unwound {m : Marker} (hknown : known m)
      (hok : p.build = .release ∨ s.objection? m = none) :
      Change p known s h (s.unwound m) (s.swept m h)
  | shrunk : Change p known s h { s with cache := [] }
      ((s.toldShrunk h).withoutBlocks s.cache.reverse)

/-- Every change moves its stack. -/
theorem Change.moves (hp : p.Sound gap) (hset : Settled gap s h) {known : Marker → Prop}
    {s' : Stack} {h' : Host} (hchange : Change p known s h s' h') : Moves gap s h s' h' := by
  cases hchange with
  | still hstill =>
    exact hset.moves_of_regions hset.wellFormed rfl hstill.2 (fun n => by rw [hstill.1])
      (fun blk hblk => ⟨blk, hblk, rfl, rfl⟩) hset.lodged.distinct
  | served hserves => exact hserves.moves hp hset
  | unwound => exact unwound_moves hset
  | shrunk => exact shrink_moves hset

end

end Stack

namespace Tenancy

open Stack

variable {p : Platform} {gap : Nat} {t : Tenancy} {h : Host}

/-- Whatever an operation captures is the position of the stack. -/
theorem eq_top_of_captures {op : Op} {m : Marker} (hm : m ∈ t.captures op) : m = t.stack.top := by
  cases op with
  | top => exact List.mem_singleton.1 hm
  | enter => exact List.mem_singleton.1 hm
  | _ => exact (List.not_mem_nil hm).elim

/-! ## The turns of a tenancy -/

/-- `Turn p known t h t' h'`: what one operation does to a tenancy; `known` are the markers that it
    may unwind to. -/
inductive Turn (p : Platform) (known : Marker → Prop) (t : Tenancy) (h : Host) :
    Tenancy → Host → Prop
  /-- Nothing, or something with the guards or the journal. -/
  | still {guards : List Guard} {h' : Host} (hstill : h.Still h') :
      Turn p known t h { t with guards } h'
  /-- A request is made and comes to nothing. -/
  | missed {r : Request} {out : Except Fault (Option Nat)} {s' : Stack} {h' : Host}
      (hserves : Serves p r t.stack h (out, s', h')) : Turn p known t h { t with stack := s' } h'
  /-- A request is served. -/
  | granted {r : Request} {address : Nat} {s' : Stack} {h' : Host}
      (hserves : Serves p r t.stack h (.ok (some address), s', h')) :
      Turn p known t h { t with
        stack := s'
        live := ⟨t.served, s'.current.region, address, r⟩ :: t.live
        served := t.served + 1 } h'
  /-- An unwind is made. -/
  | unwound {guards : List Guard} {m : Marker} (hknown : known m)
      (hok : p.build = .release ∨ t.stack.objection? m = none) :
      Turn p known t h { t with
        stack := t.stack.unwound m
        guards
        live := t.live.filter (t.stack.unwound m).holds } (t.stack.swept m h)
  /-- A debug build stops before an unwind, or a guard that was let go makes none. -/
  | stopped {guards : List Guard} :
      Turn p known t h { t with guards, live := t.live.filter t.stack.holds } h
  /-- The cache is trimmed. -/
  | shrunk : Turn p known t h { t with stack := { t.stack with cache := [] } }
      ((t.stack.toldShrunk h).withoutBlocks t.stack.cache.reverse)

/-- An unwind of a tenancy is made, or stops. -/
theorem release_turn {known : Marker → Prop} {m : Marker} (guards : List Guard)
    (hs : t.stack.WellFormed) (hknown : known m) :
    Turn p known t h (({ t with guards } : Tenancy).release (Stack.unwind p m) h).1
      (({ t with guards } : Tenancy).release (Stack.unwind p m) h).2 := by
  rcases unwind_ends p m h hs with ⟨hrun, hok⟩ | ⟨f, hrun, -, -⟩
  · rw [release, hrun]
    exact .unwound hknown hok
  · rw [release, hrun]
    exact .stopped

/-- What an operation may unwind to does no harm to be more. -/
theorem Turn.mono {known known' : Marker → Prop} (himp : ∀ m, known m → known' m) {t' : Tenancy}
    {h' : Host} (hturn : Turn p known t h t' h') : Turn p known' t h t' h' := by
  cases hturn with
  | still hstill => exact .still hstill
  | missed hserves => exact .missed hserves
  | granted hserves => exact .granted hserves
  | unwound hknown hok => exact .unwound (himp _ hknown) hok
  | stopped => exact .stopped
  | shrunk => exact .shrunk

/-- The marker that an operation unwinds to, if it is an unwind: the bottom, or its target. -/
def aim? (markers : List Marker) (t : Tenancy) : Op → Option Marker
  | .unwindAll => some t.stack.bottom
  | op => t.target? markers op

theorem target?_of_aim? {markers : List Marker} {op : Op} {m : Marker}
    (haim : t.aim? markers op = some m) : t.target? markers op = some m ∨ m = t.stack.bottom := by
  cases op with
  | unwindAll => exact Or.inr (Option.some.inj haim).symm
  | _ => exact Or.inl haim

/-- **Every operation is one of these turns**, and unwinds to nothing but its own aim. -/
theorem act_turn (hp : p.Sound gap) (hset : Settled gap t.stack h) (markers : List Marker)
    (op : Op) :
    Turn p (fun m => t.aim? markers op = some m) t h (t.act p markers h op).1
      (t.act p markers h op).2 := by
  have hs := hset.wellFormed
  have hquiet : ∀ {known h'}, h.Still h' → Turn p known t h { t with guards := t.guards } h' :=
    fun hstill => .still hstill
  have hnothing : ∀ known, Turn p known t h t h := fun known => hquiet (Host.Still.refl h)
  cases op with
  | allocate form r =>
    have hasked := ask_ends hp hset form r
    rw [act, request]
    generalize Action.after (form.ask p r) (t.stack, h) = out at hasked ⊢
    obtain ⟨out, s', h'⟩ := out
    -- Only an address that is served makes a grant.
    cases hasked with
    | @asked r' _ hrequest hserves =>
      rw [hrequest]
      split
      · rename_i heq
        cases heq
        exact .granted hserves
      · rename_i heq
        cases heq
        exact .missed hserves
    | refused hrefused =>
      split
      · rename_i address _ _ heq
        cases heq
        exact absurd rfl (hrefused address)
      · rename_i heq
        cases heq
        exact hnothing _
  | top => exact hnothing _
  | unwind k =>
    cases hm : markers[k]? with
    | none =>
      simp only [act, hm]
      exact hnothing _
    | some m =>
      simp only [act, hm]
      exact release_turn t.guards hs hm
  | unwindAll => exact release_turn t.guards hs rfl
  | shrink =>
    rw [act, keep, Action.after_of_ok (shrink_apply t.stack h)]
    exact .shrunk
  | reportLeaks =>
    obtain ⟨out, h', hrun, hstill⟩ := reportLeaks_ends p t.stack h
    rw [act, keep, hrun]
    exact hquiet hstill
  | enter => exact .still (Host.Still.refl h)
  | disarm =>
    cases hg : t.guards with
    | nil =>
      simp only [act, hg]
      exact hnothing _
    | cons g outer =>
      simp only [act, hg]
      exact .still (Host.Still.refl h)
  | retreat =>
    cases hg : t.guards with
    | nil =>
      simp only [act, hg]
      exact hnothing _
    | cons g outer =>
      simp only [act, hg]
      exact release_turn t.guards hs (by simp only [aim?, target?, hg]; rfl)
  | leave =>
    cases hg : t.guards with
    | nil =>
      simp only [act, hg]
      exact hnothing _
    | cons g outer =>
      simp only [act, hg, Guard.leave]
      by_cases harmed : g.armed = true
      · rw [if_pos harmed]
        refine release_turn outer hs ?_
        simp only [aim?, target?, hg, List.head?_cons, Option.filter_some, harmed, if_true]
        rfl
      · rw [if_neg harmed]
        exact .stopped

/-- **A turn changes its stack** in one of the four ways. -/
theorem Turn.change {known : Marker → Prop} {t' : Tenancy} {h' : Host}
    (hturn : Turn p known t h t' h') : Change p known t.stack h t'.stack h' := by
  cases hturn with
  | still hstill => exact .still hstill
  | missed hserves => exact .served hserves
  | granted hserves => exact .served hserves
  | unwound hknown hok => exact .unwound hknown hok
  | stopped => exact .still (Host.Still.refl h)
  | shrunk => exact .shrunk

theorem act_change (hp : p.Sound gap) (hset : Settled gap t.stack h) (markers : List Marker)
    (op : Op) :
    Change p (fun m => t.target? markers op = some m ∨ m = t.stack.bottom) t.stack h
      (t.act p markers h op).1.stack (t.act p markers h op).2 :=
  ((act_turn hp hset markers op).mono fun _ => target?_of_aim?).change

end Tenancy

end StackArena
