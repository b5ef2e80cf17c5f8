/-
  The ledger of regions.

  Whatever makes a region or frees one notes the fact in the journal.  `h.Records made freed h'`
  says that the journal tells of exactly these regions from `h` to `h'`, and that memory agrees: the
  regions that were made are those that have come to be, the freed ones are on record as gone,
  every other one is as it was, and so are the chunks of the heap.

  1. Records are put together one after the other, as the steps of an operation are.
  2. What each operation of a stack records, and where the regions of the stack are then: a request
     frees nothing and makes at most one, an unwind makes nothing, and nothing is freed either where
     released blocks are kept; trimming frees the cache, and the end of the stack what is left.
  3. A report records nothing as long as the handlers are discreet: that they make and free regions
     is not for them to write.
-/
import StackArena.Proofs.Turns

namespace StackArena

/-! ## Notes about regions -/

/-- The region that was made, if a note says so. -/
def Note.made? : Note → Option Nat
  | .made n _ => some n
  | _ => none

/-- The region that was freed, if a note says so. -/
def Note.freed? : Note → Option Nat
  | .freed n => some n
  | _ => none

/-- The regions that notes say were made, in order. -/
def regionsMade (notes : List Note) : List Nat := notes.filterMap Note.made?

/-- The regions that notes say were freed, in order. -/
def regionsFreed (notes : List Note) : List Nat := notes.filterMap Note.freed?

/-- A note that is not about a region being made or freed. -/
def Note.Plain (n : Note) : Prop := n.made? = none ∧ n.freed? = none

theorem regionsMade_append (notes more : List Note) :
    regionsMade (notes ++ more) = regionsMade notes ++ regionsMade more := List.filterMap_append

theorem regionsFreed_append (notes more : List Note) :
    regionsFreed (notes ++ more) = regionsFreed notes ++ regionsFreed more := List.filterMap_append

/-! ## What is recorded -/

/-- Region `n` was made and is freed. -/
def Memory.Gone (m : Memory) (n : Nat) : Prop := ∃ x, m.extent? n = some x ∧ x.live = false

namespace Host

/-- `h.Records made freed h'`: from `h` to `h'` the regions `made` were made and the regions `freed`
    were freed, each list in order. -/
structure Records (h : Host) (made freed : List Nat) (h' : Host) : Prop where
  journal : ∃ notes, h'.journal = h.journal ++ notes ∧ regionsMade notes = made ∧
    regionsFreed notes = freed
  made_iff : ∀ n, n ∈ made ↔ h.memory.extent? n = none ∧ h'.memory.extent? n ≠ none
  kept : ∀ n x, n ∉ freed → h.memory.extent? n = some x → h'.memory.extent? n = some x
  gone : ∀ n x, n ∈ freed → h.memory.extent? n = some x →
    h'.memory.extent? n = some { x with live := false }
  chunks_eq : h'.memory.chunks = h.memory.chunks

variable {h h₁ h₂ h₃ : Host} {made made' freed freed' : List Nat}

/-- What is recorded as made or freed, memory ages by. -/
theorem Records.ages (hr : h₁.Records made freed h₂) : h₁.memory.Ages h₂.memory := by
  intro n x hx
  by_cases hfreed : n ∈ freed
  · exact ⟨false, hr.gone n x hfreed hx⟩
  · exact ⟨x.live, hr.kept n x hfreed hx⟩

/-- What is gone stays so. -/
theorem Records.still_gone (hr : h₁.Records made freed h₂) {n : Nat} (hn : h₁.memory.Gone n) :
    h₂.memory.Gone n := by
  obtain ⟨x, hx, hlive⟩ := hn
  by_cases hfreed : n ∈ freed
  · exact ⟨_, hr.gone n x hfreed hx, rfl⟩
  · exact ⟨x, hr.kept n x hfreed hx, hlive⟩

/-- Notes about other things, while the regions stay as they are. -/
theorem Records.of_plain {h h' : Host} {notes : List Note}
    (hjournal : h'.journal = h.journal ++ notes) (hplain : ∀ n ∈ notes, n.Plain)
    (hextent : ∀ n, h'.memory.extent? n = h.memory.extent? n)
    (hchunks : h'.memory.chunks = h.memory.chunks) : h.Records [] [] h' := by
  refine ⟨⟨notes, hjournal, ?_, ?_⟩, ?_, ?_, nofun, hchunks⟩
  · exact List.filterMap_eq_nil_iff.2 fun n hn => (hplain n hn).1
  · exact List.filterMap_eq_nil_iff.2 fun n hn => (hplain n hn).2
  · intro n
    rw [hextent]
    simp
  · intro n x _ hx
    rw [hextent]
    exact hx

theorem Records.refl (h : Host) : h.Records [] [] h :=
  .of_plain (List.append_nil _).symm (by nofun) (fun _ => rfl) rfl

/-- One after the other. -/
theorem Records.trans (hfirst : h₁.Records made freed h₂) (hsecond : h₂.Records made' freed' h₃) :
    h₁.Records (made ++ made') (freed ++ freed') h₃ := by
  obtain ⟨notes, hjournal, hmade, hfreed⟩ := hfirst.journal
  obtain ⟨more, hjournal', hmade', hfreed'⟩ := hsecond.journal
  refine ⟨⟨notes ++ more, ?_, ?_, ?_⟩, ?_, ?_, ?_, hsecond.chunks_eq.trans hfirst.chunks_eq⟩
  · rw [hjournal', hjournal, List.append_assoc]
  · rw [regionsMade_append, hmade, hmade']
  · rw [regionsFreed_append, hfreed, hfreed']
  · intro n
    rw [List.mem_append, hfirst.made_iff, hsecond.made_iff]
    constructor
    · rintro (⟨hnone, hthere⟩ | ⟨hnone, hthere⟩)
      · exact ⟨hnone, hsecond.ages.ne_none hthere⟩
      · exact ⟨not_not.1 fun hold => hfirst.ages.ne_none hold hnone, hthere⟩
    · rintro ⟨hnone, hthere⟩
      by_cases hmiddle : h₂.memory.extent? n = none
      · exact Or.inr ⟨hmiddle, hthere⟩
      · exact Or.inl ⟨hnone, hmiddle⟩
  · intro n x hn hx
    obtain ⟨hn₁, hn₂⟩ := not_or.1 (mt List.mem_append.2 hn)
    exact hsecond.kept n x hn₂ (hfirst.kept n x hn₁ hx)
  · intro n x hn hx
    by_cases hn₁ : n ∈ freed
    · have hx₂ := hfirst.gone n x hn₁ hx
      by_cases hn₂ : n ∈ freed'
      · have hx₃ := hsecond.gone n _ hn₂ hx₂
        exact hx₃
      · exact hsecond.kept n _ hn₂ hx₂
    · have hn₂ := (List.mem_append.1 hn).resolve_left hn₁
      exact hsecond.gone n x hn₂ (hfirst.kept n x hn₁ hx)

theorem Records.then_nothing (hfirst : h₁.Records made freed h₂) (hsecond : h₂.Records [] [] h₃) :
    h₁.Records made freed h₃ := by
  have hall := hfirst.trans hsecond
  rwa [List.append_nil, List.append_nil] at hall

/-- Making a region is recorded. -/
theorem records_withRegion (h : Host) (p : Platform) (base : Nat) (l : Layout) :
    h.Records [h.memory.nextRegion] [] (h.withRegion p base l) := by
  refine ⟨⟨_, rfl, rfl, rfl⟩, ?_, ?_, nofun, rfl⟩
  · intro n
    rw [List.mem_singleton]
    constructor
    · rintro rfl
      refine ⟨h.memory.extent?_nextRegion, ?_⟩
      show (h.memory.addRegion base l (p.scrap h.memory.nextRegion)).extent? h.memory.nextRegion ≠ none
      rw [Memory.extent?_addRegion_self]
      nofun
    · rintro ⟨hnone, hthere⟩
      obtain ⟨x, hx⟩ := Option.ne_none_iff_exists'.1 hthere
      rcases Memory.extent?_addRegion_cases hx with hold | ⟨hnew, -⟩
      · rw [hold] at hnone
        nomatch hnone
      · exact hnew
  · intro n x _ hx
    exact Memory.extent?_addRegion_of_some base l _ hx

/-- Freeing a region is recorded. -/
theorem records_withoutRegion (h : Host) (number : Nat) :
    h.Records [] [number] (h.withoutRegion number) := by
  have hself := h.memory.extent?_freeRegion_self number
  refine ⟨⟨_, rfl, rfl, rfl⟩, ?_, ?_, ?_, rfl⟩
  · intro n
    refine ⟨nofun, ?_⟩
    rintro ⟨hnone, hthere⟩
    apply absurd _ hthere
    by_cases hn : n = number
    · subst hn
      show (h.memory.freeRegion n).extent? n = none
      rw [hself, hnone]
      rfl
    · rw [Stack.extent?_withoutRegion_ne hn]
      exact hnone
  · intro n x hn hx
    rw [Stack.extent?_withoutRegion_ne (List.ne_of_not_mem_cons hn)]
    exact hx
  · intro n x hn hx
    obtain rfl := List.mem_singleton.1 hn
    show (h.memory.freeRegion n).extent? n = _
    rw [hself, hx]
    rfl

theorem records_withoutBlocks (h : Host) (blks : List Block) :
    h.Records [] (blks.map Block.region) (h.withoutBlocks blks) := by
  induction blks generalizing h with
  | nil => exact .refl h
  | cons blk rest ih => exact (h.records_withoutRegion blk.region).trans (ih _)

end Host

/-! ## Discreet handlers -/

/-- What is done about a report does not write that regions were made or freed. -/
def Conduct.Discreet : Conduct → Prop
  | .done | .refuse _ => True
  | .write n rest => n.Plain ∧ rest.Discreet
  | .install _ rest => ∀ previous, (rest previous).Discreet
  | .report _ _ rest => rest.Discreet
  | .consult rest => ∀ memo, (rest memo).Discreet
  | .keep _ rest => rest.Discreet

/-- The named handlers of a platform are discreet. -/
def Platform.Discreet (p : Platform) : Prop :=
  ∀ name who amount, (p.conduct name who amount).Discreet

theorem Session.platform_discreet (b : Build) (skews : List Nat) :
    (Session.platform b skews).Discreet := by
  intro name who amount
  show (Session.conduct name who amount).Discreet
  unfold Session.conduct
  split
  · exact fun _ => trivial
  · exact fun _ _ => trivial
  · trivial
  · trivial

/-- An action that records nothing, however it ends. -/
def HostAction.Mute {α : Type} (a : HostAction α) : Prop :=
  ∀ h : Host, h.Records [] [] (HostAction.end a h)

namespace Host

open HostAction

theorem note_mute {n : Note} (hn : n.Plain) : Mute (note n) := fun _ =>
  .of_plain rfl (by simpa using hn) (fun _ => rfl) rfl

theorem install_mute (next : Handler) : Mute (install next) := fun _ =>
  .of_plain (List.append_nil _).symm nofun (fun _ => rfl) rfl

theorem keep_mute (memo : Memo) : Mute (keep memo) := fun _ =>
  .of_plain (List.append_nil _).symm nofun (fun _ => rfl) rfl

theorem mute_bind {α β : Type} {a : HostAction α} {f : α → HostAction β} (ha : Mute a)
    (hf : ∀ x, Mute (f x)) : Mute (a >>= f) :=
  end_bind (R := fun h h' => h.Records [] [] h')
    (fun hfirst hrest => hfirst.then_nothing hrest) ha hf

/-- Of a discreet conduct nothing is recorded, if nothing is of the reports in it. -/
theorem carryOut_mute {report : AllocatorInfo → Nat → HostAction Unit}
    (hreport : ∀ who amount, Mute (report who amount)) {c : Conduct} (hc : c.Discreet) :
    Mute (carryOut report c) := by
  induction c with
  | done => exact fun h => .refl h
  | write n rest ih =>
    obtain ⟨hn, hrest⟩ := hc
    exact mute_bind (note_mute hn) fun _ => ih hrest
  | install next rest ih =>
    exact mute_bind (install_mute next) fun previous => ih previous (hc previous)
  | report who amount rest ih => exact mute_bind (hreport who amount) fun _ => ih hc
  | consult rest ih => exact fun h => ih h.hook.memo (hc _) h
  | keep memo rest ih => exact mute_bind (keep_mute memo) fun _ => ih hc
  | refuse text => exact fun h => .refl h

theorem call_mute {p : Platform} (hp : p.Discreet) (depth : Nat) (handler : Handler)
    (who : AllocatorInfo) (amount : Nat) : Mute (call p depth handler who amount) := by
  induction depth generalizing handler who amount with
  | zero => exact fun h => .refl h
  | succ depth ih =>
    have hconduct : (p.conductOf handler who amount).Discreet := by
      cases handler with
      | standard => exact ⟨⟨rfl, rfl⟩, trivial⟩
      | named name => exact hp name who amount
    refine mute_bind (note_mute ⟨rfl, rfl⟩) fun _ => carryOut_mute ?_ hconduct
    intro who amount h
    exact ih h.handler who amount h

/-- A leak report records nothing. -/
theorem reportLeak_mute {p : Platform} (hp : p.Discreet) (who : AllocatorInfo) (amount : Nat) :
    Mute (reportLeak p who amount) := fun h => call_mute hp p.reportDepth h.handler who amount h

end Host

namespace Stack

variable {p : Platform} {gap : Nat} {s s' : Stack} {h h' : Host}

/-! ## Requests -/

theorem records_painted (s : Stack) (h : Host) (offset length : Nat) (byte : UInt8) :
    h.Records [] [] (s.painted h offset length byte) := by
  have hjournal : (s.painted h offset length byte).journal = h.journal ++ [] := by
    rw [journal_painted, List.append_nil]
  have hchunks : (s.painted h offset length byte).memory.chunks = h.memory.chunks := by
    rw [painted]
    split <;> rfl
  exact .of_plain hjournal (fun _ hnote => absurd hnote List.not_mem_nil)
    (fun n => s.extent?_painted h offset length n byte) hchunks

theorem Bump.records {r : Request} {out : Except Fault (Option Nat)}
    (hbump : Bump p r s h (out, s', h')) : h.Records [] [] h' ∧ s'.regions = s.regions := by
  cases hbump with
  | declined => exact ⟨.refl h, rfl⟩
  | overdrawn => exact ⟨.refl h, rfl⟩
  | served => exact ⟨s.records_painted h _ _ _, rfl⟩

/-- A growth takes a region from the cache, or makes one, or does nothing to regions. -/
theorem Grow.records {required : Nat} {out : Except Fault Unit}
    (hgrow : Grow p required s h (out, s', h')) :
    ∃ made, h.Records made [] h' ∧ made.length ≤ 1 ∧ s'.regions.Perm (made ++ s.regions) := by
  have hannounced : h.Records [] [] (s.announced required h) :=
    .of_plain rfl (by simp [Note.Plain, Note.made?, Note.freed?]) (fun _ => rfl) rfl
  cases hgrow with
  | @reused n blk others hserial hcache =>
    refine ⟨[], .refl h, Nat.zero_le _, ?_⟩
    exact (blocks_of_cached hcache).map Block.region
  | @made n base hserial hcache hplace hroom =>
    refine ⟨[h.memory.nextRegion], hannounced.trans (Host.records_withRegion _ p base _),
      Nat.le_refl _, ?_⟩
    exact .refl _
  | serialsOut => exact ⟨[], .refl h, Nat.zero_le _, .refl _⟩
  | noBlock => exact ⟨[], hannounced, Nat.zero_le _, .refl _⟩

theorem Serves.records {r : Request} {out : Except Fault (Option Nat)}
    (hserves : Serves p r s h (out, s', h')) :
    ∃ made, h.Records made [] h' ∧ made.length ≤ 1 ∧ s'.regions.Perm (made ++ s.regions) := by
  refine hserves.keeps (P := fun s' h' => ∃ made, h.Records made [] h' ∧ made.length ≤ 1 ∧
    s'.regions.Perm (made ++ s.regions)) ?_ (fun hgrow => hgrow.records) ?_
  · exact ⟨[], .refl h, Nat.zero_le _, .refl _⟩
  · rintro s₁ h₁ out s₂ h₂ ⟨made, hrecords, hone, hperm⟩ hbump
    obtain ⟨hstep, hsame⟩ := hbump.records
    refine ⟨made, ?_, hone, ?_⟩
    · exact hrecords.then_nothing hstep
    · rw [hsame]
      exact hperm

/-- **A request in any form** frees nothing and makes at most one region. -/
theorem ask_records {form : Form} {r : Request} {out : Except Fault (Option Nat)} (hp : p.Sound gap)
    (hset : Settled gap s h) (hasked : Action.after (form.ask p r) (s, h) = (out, s', h')) :
    ∃ made, h.Records made [] h' ∧ made.length ≤ 1 ∧ s'.regions.Perm (made ++ s.regions) := by
  have hends := ask_ends hp hset form r
  rw [hasked] at hends
  cases hends with
  | asked hrequest hserves => exact hserves.records
  | refused => exact ⟨[], .refl h, Nat.zero_le _, .refl _⟩

/-! ## Unwinds -/

/-- A block that is dropped goes to the cache or is freed. -/
theorem dropCurrent_records (h : Host) (hbelow : s.below ≠ []) :
    ∃ freed, h.Records [] freed (s.clearedCurrent h) ∧
      s.regions.Perm (s.dropCurrent.regions ++ freed) ∧ (s.retention = .cache → freed = []) := by
  have hpainted := s.records_painted h 0 s.current.cursor Config.freedPattern
  have hregions : s.regions = s.current.region :: (s.below ++ s.cache).map Block.region := rfl
  unfold clearedCurrent
  cases hret : s.retention with
  | cache =>
    refine ⟨[], hpainted, ?_, fun _ => rfl⟩
    rw [List.append_nil]
    exact (dropCurrent_kept hbelow hret).symm.map Block.region
  | release =>
    refine ⟨[s.current.region], hpainted.trans (Host.records_withoutRegion _ _), ?_, nofun⟩
    rw [hregions, regions, dropCurrent_released hbelow hret]
    exact (List.perm_append_singleton _ _).symm

theorem dropped_records {n : Nat} (h : Host) (hn : n ≤ s.below.length) :
    ∃ freed, h.Records [] freed (cleared n s h) ∧
      s.regions.Perm ((dropped n s).regions ++ freed) ∧ (s.retention = .cache → freed = []) := by
  induction n generalizing s h with
  | zero => exact ⟨[], .refl h, by rw [List.append_nil]; exact .refl _, fun _ => rfl⟩
  | succ n ih =>
    have hlength := s.length_below_dropCurrent
    obtain ⟨freed, hfirst, hperm, hnone⟩ :=
      dropCurrent_records h (List.ne_nil_of_length_pos (Nat.zero_lt_of_lt hn))
    obtain ⟨more, hrest, hperm', hnone'⟩ := ih (s := s.dropCurrent) (s.clearedCurrent h) (by omega)
    refine ⟨freed ++ more, hfirst.trans hrest, ?_, ?_⟩
    · have hall := hperm.trans (hperm'.append_right freed)
      rw [List.append_assoc] at hall
      exact hall.trans (List.perm_append_comm.append_left _)
    · intro hret
      rw [hnone hret, hnone' (s.retention_dropCurrent.trans hret), List.append_nil]

/-- What an unwind does to the host makes nothing; what the stack has not any more is freed, and that
    is nothing where released blocks are kept. -/
theorem swept_records (s : Stack) (h : Host) (m : Marker) :
    ∃ freed, h.Records [] freed (s.swept m h) ∧ s.regions.Perm ((s.unwound m).regions ++ freed) ∧
      (s.retention = .cache → freed = []) := by
  obtain ⟨freed, hdrop, hperm, hnone⟩ := dropped_records h (s.surplus_le m.depth)
  have htold : (cleared (s.surplus m.depth) s h).Records [] [] (s.lessened m.depth h) := by
    unfold lessened
    split
    · exact .of_plain rfl (by simp [Note.Plain, Note.made?, Note.freed?]) (fun _ => rfl) rfl
    · exact .refl _
  have hpainted : (s.lessened m.depth h).Records [] [] (s.swept m h) := records_painted _ _ _ _ _
  exact ⟨freed, (hdrop.then_nothing htold).then_nothing hpainted, hperm, hnone⟩

/-- **An unwind** makes nothing; what the stack has not any more it has freed, and that is nothing
    where released blocks are kept. -/
theorem unwind_records {m : Marker} {out : Except Fault Unit} (hs : s.WellFormed)
    (hrun : Action.after (unwind p m) (s, h) = (out, s', h')) :
    ∃ freed, h.Records [] freed h' ∧ s.regions.Perm (s'.regions ++ freed) ∧
      (s.retention = .cache → freed = []) := by
  rcases unwind_ends p m h hs with ⟨hdone, -⟩ | ⟨f, hstop, -⟩
  · cases hdone.symm.trans hrun
    exact swept_records s h m
  · cases hstop.symm.trans hrun
    exact ⟨[], .refl h, by rw [List.append_nil], fun _ => rfl⟩

/-! ## Trimming, reports and the end -/

/-- **Trimming** frees the cached regions, the oldest first. -/
theorem shrink_records (s : Stack) (h : Host) : h.Records [] (s.cache.reverse.map Block.region)
    ((s.toldShrunk h).withoutBlocks s.cache.reverse) := by
  have htold : h.Records [] [] (s.toldShrunk h) := by
    unfold toldShrunk
    split
    · exact .of_plain rfl (by simp [Note.Plain, Note.made?, Note.freed?]) (fun _ => rfl) rfl
    · exact .refl h
  exact htold.trans (Host.records_withoutBlocks _ _)

/-- **A report** records nothing. -/
theorem reportLeaks_records (hp : p.Discreet) {out : Except Fault Nat}
    (hrun : Action.after (reportLeaks p) (s, h) = (out, s', h')) : s' = s ∧ h.Records [] [] h' := by
  have hmute := Host.reportLeak_mute hp s.info s.outstanding h
  rcases reportLeaks_cases p s h with
    ⟨-, hquiet⟩ | ⟨-, ⟨h₁, hreport, hdone⟩ | ⟨f, h₁, hreport, hstop⟩⟩
  · rw [Action.after_of_ok hquiet] at hrun
    cases hrun
    exact ⟨rfl, .refl _⟩
  · rw [Action.after_of_ok hdone] at hrun
    rw [HostAction.end_of_ok hreport] at hmute
    cases hrun
    exact ⟨rfl, hmute⟩
  · rw [Action.after_of_error hstop] at hrun
    rw [HostAction.end_of_error hreport] at hmute
    cases hrun
    exact ⟨rfl, hmute⟩

/-- **The end of a stack** frees the regions that it still has, unless a fatal fault comes first. -/
theorem discard_records (hp : p.Discreet) (s : Stack) (h : Host) {out : Except Fault Unit}
    (hrun : Action.after (discard p) (s, h) = (out, s', h'))
    (hcaught : ∀ f, out = .error f → f.isFatal = false) :
    h.Records [] ((s.active.reverse ++ s.cache.reverse).map Block.region) h' := by
  obtain ⟨reported, h₁, hreport, -, ⟨f, -, hfatal, hstop⟩ | ⟨-, hdone⟩⟩ := discard_cases p s h
  · cases hstop.symm.trans hrun
    rw [hcaught f rfl] at hfatal
    nomatch hfatal
  · cases hdone.symm.trans hrun
    exact (reportLeaks_records hp hreport).2.trans (Host.records_withoutBlocks _ _)

end Stack

end StackArena
