/-
  A tree serves from its first willing leaf.

  A fallback asks its first side on trial and its second side in the form of the whole; the sides
  may be fallbacks themselves.  Together that is a flat search: the leaves are asked from left to
  right, each on trial, and only the last one in the form of the whole.

    fallback (fallback a b) (fallback c d)     a?  b?  c?  then d, in the form of the whole

  1. **Leaves** — the leaves are parts of the tree (`Tree.leafParts`), and putting one back leaves
     the others as they are (`Tree.leafParts_apart`).
  2. **By itself** — a stack or a heap at a leaf serves a request on trial, or declines and is as it
     was, and so is the host (`Tree.leaf_definite`).
  3. **The search** — `Search` says what comes of a request to the tree; by induction on the tree,
     one case for each side that may serve (`Tree.search`).  The form that may not be declined comes
     to the last leaf if all others decline (`Tree.allocate_of_declines`).
  4. **Growth** — a stack that is asked on trial keeps its blocks (`Stack.holdings`), so along any
     requests to the tree all stacks do but the one at the last leaf (`Venture.holdings_run`).
-/
import StackArena.Proofs.Aftermath
import StackArena.Proofs.Exhaustion

namespace StackArena

namespace Tree

/-! ## The leaves as parts -/

/-- A part of the first side is one of the whole. -/
def Part.inFirst {first : Tree} (second : Tree) (q : Part first) :
    Part (fallback first second) where
  shape := q.shape
  get s := q.get s.1
  put x s := (q.put x s.1, s.2)

/-- A part of the second side is one of the whole. -/
def Part.inSecond (first : Tree) {second : Tree} (q : Part second) :
    Part (fallback first second) where
  shape := q.shape
  get s := q.get s.2
  put x s := (s.1, q.put x s.2)

/-- The leaves of a tree as parts of it, from left to right. -/
def leafParts : (t : Tree) → List (Part t)
  | stack => [⟨stack, id, fun s _ => s⟩]
  | heap => [⟨heap, id, fun s _ => s⟩]
  | budget => [⟨budget, id, fun s _ => s⟩]
  | fallback first second =>
    first.leafParts.map (Part.inFirst second) ++ second.leafParts.map (Part.inSecond first)

/-- Every leaf is where a path leads, and no fallback. -/
theorem part?_of_leaf {t : Tree} {q : Part t} (hq : q ∈ t.leafParts) :
    (∃ path, t.part? path = some q) ∧ ∀ first second, q.shape ≠ fallback first second := by
  induction t with
  | fallback first second ihfirst ihsecond =>
    rcases List.mem_append.1 hq with hleft | hright
    · obtain ⟨leaf, hmem, rfl⟩ := List.mem_map.1 hleft
      obtain ⟨⟨path, hpath⟩, hleaf⟩ := ihfirst hmem
      refine ⟨⟨.first :: path, ?_⟩, hleaf⟩
      rw [part?, hpath]
      rfl
    · obtain ⟨leaf, hmem, rfl⟩ := List.mem_map.1 hright
      obtain ⟨⟨path, hpath⟩, hleaf⟩ := ihsecond hmem
      refine ⟨⟨.second :: path, ?_⟩, hleaf⟩
      rw [part?, hpath]
      rfl
  | _ =>
    rw [leafParts, List.mem_singleton] at hq
    subst hq
    exact ⟨⟨[], rfl⟩, fun first second hshape => by cases hshape⟩

/-- Where the leaves of the second side are split, so are those of the whole, with the first side on
    the left. -/
theorem leafParts_of_second (first : Tree) {second : Tree} {before rest : List (Part second)}
    (hleaves : second.leafParts = before ++ rest) :
    (fallback first second).leafParts
      = (first.leafParts.map (Part.inFirst second) ++ before.map (Part.inSecond first)) ++
        rest.map (Part.inSecond first) := by
  rw [leafParts, hleaves, List.map_append, List.append_assoc]

/-- There is a last leaf. -/
theorem exists_last (t : Tree) : ∃ before last, t.leafParts = before ++ [last] := by
  induction t with
  | fallback first second _ ihsecond =>
    obtain ⟨before, last, hleaves⟩ := ihsecond
    exact ⟨_, last.inSecond first, leafParts_of_second first hleaves⟩
  | _ => exact ⟨[], _, rfl⟩

/-- `q.Apart d`: putting one of the parts back does not show in the other. -/
def Part.Apart {t : Tree} (q d : Part t) : Prop :=
  (∀ x s, d.get (q.put x s) = d.get s) ∧ ∀ x s, q.get (d.put x s) = q.get s

/-- Any two leaves are apart. -/
theorem leafParts_pairwise (t : Tree) : t.leafParts.Pairwise Part.Apart := by
  induction t with
  | fallback first second ihfirst ihsecond =>
    refine List.pairwise_append.2 ⟨?_, ?_, ?_⟩
    · refine List.pairwise_map.2 (ihfirst.imp fun hapart => ⟨?_, ?_⟩)
      · exact fun x s => hapart.1 x s.1
      · exact fun x s => hapart.2 x s.1
    · refine List.pairwise_map.2 (ihsecond.imp fun hapart => ⟨?_, ?_⟩)
      · exact fun x s => hapart.1 x s.2
      · exact fun x s => hapart.2 x s.2
    · -- Leaves of different sides look into different halves of the state.
      intro q hq d hd
      obtain ⟨q, -, rfl⟩ := List.mem_map.1 hq
      obtain ⟨d, -, rfl⟩ := List.mem_map.1 hd
      exact ⟨fun _ _ => rfl, fun _ _ => rfl⟩
  | _ => exact List.pairwise_singleton _ _

/-- A leaf that is put back is there. -/
theorem get_put_of_leaf {t : Tree} {q : Part t} (hq : q ∈ t.leafParts) (x : q.shape.State)
    (s : t.State) : q.get (q.put x s) = x := by
  induction t with
  | fallback first second ihfirst ihsecond =>
    rcases List.mem_append.1 hq with hleft | hright
    · obtain ⟨leaf, hmem, rfl⟩ := List.mem_map.1 hleft
      exact ihfirst hmem x s.1
    · obtain ⟨leaf, hmem, rfl⟩ := List.mem_map.1 hright
      exact ihsecond hmem x s.2
  | _ =>
    rw [leafParts, List.mem_singleton] at hq
    subst hq
    rfl

/-- The leaf at which a search splits the leaves. -/
theorem leaf_of_split {t : Tree} {before after : List (Part t)} {q : Part t}
    (hleaves : t.leafParts = before ++ q :: after) : q ∈ t.leafParts := by
  rw [hleaves]
  exact List.mem_append_right before List.mem_cons_self

/-- **A leaf that is put back** does not show in the others. -/
theorem leafParts_apart {t : Tree} {before after : List (Part t)} {q : Part t}
    (hleaves : t.leafParts = before ++ q :: after) (x : q.shape.State) (s : t.State) :
    ∀ d ∈ before ++ after, d.get (q.put x s) = d.get s := by
  have hpairwise := t.leafParts_pairwise
  rw [hleaves, List.pairwise_append, List.pairwise_cons] at hpairwise
  obtain ⟨-, ⟨hafter, -⟩, hbefore⟩ := hpairwise
  intro d hd
  rcases List.mem_append.1 hd with hleft | hright
  · exact (hbefore d hleft q List.mem_cons_self).2 x s
  · exact (hafter d hright).1 x s

/-! ## A leaf by itself -/

variable {p : Platform} {gap : Nat} {r : Request} {t : Tree}

/-- `q.Serves p r s h a x h'`: asked on trial by itself, the part serves the request at `a`, and is
    `x` then. -/
def Part.Serves (q : Part t) (p : Platform) (r : Request) (s : t.State) (h : Host) (a : Nat)
    (x : q.shape.State) (h' : Host) : Prop :=
  (q.shape.provider p).tryAllocate r (q.get s, h) = .ok (.ok a) (x, h')

/-- `q.Declines p r s h cause`: asked on trial by itself, the part declines, and nothing has
    changed. -/
def Part.Declines (q : Part t) (p : Platform) (r : Request) (s : t.State) (h : Host)
    (cause : AllocError) : Prop :=
  (q.shape.provider p).tryAllocate r (q.get s, h) = .ok (.error cause) (q.get s, h)

/-- A part that declines does not serve. -/
theorem Part.Declines.not_serves {q : Part t} {s : t.State} {h : Host} {cause : AllocError}
    (hdeclines : q.Declines p r s h cause) : ¬∃ a x h', q.Serves p r s h a x h' := by
  rintro ⟨a, x, h', hserves⟩
  cases hdeclines.symm.trans hserves

/-- `q.Definite p r s h`: asked on trial by itself, the part serves or declines. -/
def Part.Definite (q : Part t) (p : Platform) (r : Request) (s : t.State) (h : Host) : Prop :=
  (∃ a x h', q.Serves p r s h a x h') ∨ ∃ cause, q.Declines p r s h cause

end Tree

/-- The heap on trial serves, or declines and nothing has changed. -/
theorem Heap.tryAllocate_cases (p : Platform) (r : Request) (h : Host) :
    (∃ a h', tryAllocate p r h = .ok (.ok a) h') ∨
      ∃ cause, tryAllocate p r h = .ok (.error cause) h := by
  cases hlayout : layout r with
  | error cause =>
    refine Or.inr ⟨cause, ?_⟩
    rw [tryAllocate, hlayout]
    rfl
  | ok l =>
    rcases serve_cases p l h with ⟨base, -, hserve⟩ | hserve
    · refine Or.inl ⟨base, h.withChunk base l, ?_⟩
      rw [tryAllocate, hlayout]
      exact Action.bind_of_ok hserve
    · refine Or.inr ⟨.outOfMemory r.size r.alignment, ?_⟩
      rw [tryAllocate, hlayout]
      exact Action.bind_of_ok hserve

/-- A stack on trial, too; it declines what is no power of two. -/
theorem Stack.Fit.offer_definite {p : Platform} {gap : Nat} {r : Request} {s : Stack} {h : Host}
    (hfit : s.Fit p gap h) :
    (∃ a s' h', Stack.offer p r (s, h) = .ok (.ok a) (s', h')) ∨
      ∃ cause, Stack.offer p r (s, h) = .ok (.error cause) (s, h) := by
  cases hvalid : Alignment.isValid r.alignment with
  | true =>
    rcases Stack.offer_cases hfit.settled hfit.balanced hvalid with
      ⟨-, a, st, hserved⟩ | ⟨-, hdeclined⟩
    · exact Or.inl ⟨a, st.1, st.2, hserved⟩
    · exact Or.inr ⟨_, hdeclined⟩
  | false =>
    refine Or.inr ⟨.invalidAlignment r.alignment, ?_⟩
    rw [Stack.offer, hvalid]
    rfl

namespace Tree

variable {p : Platform} {gap : Nat} {r : Request} {t : Tree} {s : t.State} {h : Host}

/-- The stacks of a part are stacks of the tree. -/
theorem stackLeaves_of_leaf {q : Part t} (hq : q ∈ t.leafParts) :
    ∀ st ∈ q.shape.stackLeaves (q.get s), st ∈ t.stackLeaves s := by
  obtain ⟨⟨path, hpath⟩, -⟩ := part?_of_leaf hq
  obtain ⟨left, right, hleaves, -⟩ := part?_leaves hpath s
  intro st hst
  rw [hleaves]
  exact List.mem_append_left _ (List.mem_append_right _ hst)

/-- **A stack or a heap at a leaf serves or declines**; no check fires on the way. -/
theorem leaf_definite (ht : t.Unbudgeted) (hfit : ∀ st ∈ t.stackLeaves s, st.Fit p gap h)
    {q : Part t} (hq : q ∈ t.leafParts) : q.Definite p r s h := by
  obtain ⟨⟨path, hpath⟩, hleaf⟩ := part?_of_leaf hq
  have hshape := part?_unbudgeted ht hpath
  have hstacks := stackLeaves_of_leaf (s := s) hq
  obtain ⟨shape, get, put⟩ := q
  cases shape with
  | stack => exact (hfit (get s) (hstacks (get s) List.mem_cons_self)).offer_definite
  | heap =>
    rcases Heap.tryAllocate_cases p r h with ⟨a, h', hserved⟩ | ⟨cause, hdeclined⟩
    · exact Or.inl ⟨a, (), h', Action.onHost_of_ok hserved⟩
    · exact Or.inr ⟨cause, Action.onHost_of_ok hdeclined⟩
  | budget => exact hshape.elim
  | fallback first second => exact absurd rfl (hleaf first second)

end Tree

namespace Provider

variable {σ τ : Type} {P : Provider σ} {Q : Provider τ} {r : Request} {s s' : σ} {u : τ}
  {h h' : Host}

/-! ## The search -/

/-- What the first provider serves on trial, the two serve as one in either form. -/
theorem fallback_of_served {a : Nat} (hfirst : P.tryAllocate r (s, h) = .ok (.ok a) (s', h')) :
    (P.fallback Q).tryAllocate r ((s, u), h) = .ok (.ok a) ((s', u), h') ∧
      (P.fallback Q).allocate r ((s, u), h) = .ok a ((s', u), h') := by
  have hlift : Action.onFirst (P.tryAllocate r) ((s, u), h) = .ok (.ok a) ((s', u), h') :=
    Action.onFirst_of_ok hfirst
  constructor
  · exact Action.bind_of_ok hlift
  · exact Action.bind_of_ok hlift

/-- What it declines goes to the second, in the form of the whole. -/
theorem fallback_of_declined {cause : AllocError}
    (hfirst : P.tryAllocate r (s, h) = .ok (.error cause) (s, h)) :
    (P.fallback Q).tryAllocate r ((s, u), h) = Action.onSecond (Q.tryAllocate r) ((s, u), h) ∧
      (P.fallback Q).allocate r ((s, u), h) = Action.onSecond (Q.allocate r) ((s, u), h) := by
  have hlift : Action.onFirst (P.tryAllocate r) ((s, u), h) = .ok (.error cause) ((s, u), h) :=
    Action.onFirst_of_ok hfirst
  constructor
  · exact Action.bind_of_ok hlift
  · exact Action.bind_of_ok hlift

end Provider

namespace Action

variable {σ τ ρ α : Type}

/-- The whole of the state is looked at. -/
theorem zoom_id (a : Action σ α) : zoom id (fun s _ => s) a = a := by
  funext (s, h)
  cases ha : a (s, h) <;> simp only [zoom, id, ha]

/-- A part of the second of two states is looked at. -/
theorem onSecond_zoom (get : τ → ρ) (put : ρ → τ → τ) (a : Action ρ α) :
    onSecond (zoom get put a) = zoom (fun st : σ × τ => get st.2)
      (fun x st => (st.1, put x st.2)) a := by
  funext ((s, u), h)
  cases ha : a (get u, h) <;> simp only [onSecond, zoom, ha]

theorem onSecond_congr {a b : Action τ α} {s : σ} {u : τ} {h : Host} (hab : a (u, h) = b (u, h)) :
    onSecond a ((s, u), h) = onSecond b ((s, u), h) := by
  simp only [onSecond, zoom, hab]

end Action

namespace Tree

variable {p : Platform} {gap : Nat} {r : Request} {t : Tree} {s : t.State} {h : Host}

/-- `Search p r t s h`: what comes of a request to the tree.  It is served by a leaf whose elders
    all decline, in either form unless that leaf is the last one; or all leaves decline, and the
    cause is that of the last one. -/
inductive Search (p : Platform) (r : Request) (t : Tree) (s : t.State) (h : Host) : Prop
  | served {before after : List (Part t)} {q : Part t} {a : Nat} {x : q.shape.State} {h' : Host}
      (hleaves : t.leafParts = before ++ q :: after)
      (hbefore : ∀ d ∈ before, ∃ cause, d.Declines p r s h cause) (hserves : q.Serves p r s h a x h')
      (htry : (t.provider p).tryAllocate r (s, h) = .ok (.ok a) (q.put x s, h'))
      (hallocate : after ≠ [] → (t.provider p).allocate r (s, h) = .ok a (q.put x s, h'))
  | declined {before : List (Part t)} {q : Part t} {cause : AllocError}
      (hleaves : t.leafParts = before ++ [q])
      (hbefore : ∀ d ∈ before, ∃ cause, d.Declines p r s h cause)
      (hdeclines : q.Declines p r s h cause)
      (htry : (t.provider p).tryAllocate r (s, h) = .ok (.error cause) (s, h))

/-- A leaf that is the whole tree is asked itself. -/
theorem search_single {q : Part t} (hleaves : t.leafParts = [q])
    (hwhole : q = ⟨t, id, fun s _ => s⟩) (hdefinite : q.Definite p r s h) : Search p r t s h := by
  subst hwhole
  have hsplit : t.leafParts = [] ++ [⟨t, id, fun s _ => s⟩] := hleaves
  rcases hdefinite with ⟨a, x, h', hserves⟩ | ⟨cause, hdeclines⟩
  · exact .served hsplit nofun hserves hserves fun hsome => absurd rfl hsome
  · exact .declined hsplit nofun hdeclines hdeclines

/-- The leaves of the first side come before those of the second. -/
theorem declines_of_sides {first second : Tree} {s : first.State} {u : second.State}
    {before : List (Part second)}
    (hfirst : ∀ d ∈ first.leafParts, ∃ cause, d.Declines p r s h cause)
    (hbefore : ∀ d ∈ before, ∃ cause, d.Declines p r u h cause) :
    ∀ d ∈ first.leafParts.map (Part.inFirst second) ++ before.map (Part.inSecond first),
      ∃ cause, d.Declines p r (s, u) h cause := by
  intro d hd
  rcases List.mem_append.1 hd with hleft | hright
  · obtain ⟨leaf, hmem, rfl⟩ := List.mem_map.1 hleft
    exact hfirst leaf hmem
  · obtain ⟨leaf, hmem, rfl⟩ := List.mem_map.1 hright
    exact hbefore leaf hmem

/-- A search on the second side goes on where the first side has declined. -/
theorem Search.inSecond {first second : Tree} {s : first.State} {u : second.State}
    {cause : AllocError} (hfirst : ∀ d ∈ first.leafParts, ∃ cause, d.Declines p r s h cause)
    (htry : (first.provider p).tryAllocate r (s, h) = .ok (.error cause) (s, h))
    (hsecond : Search p r second u h) : Search p r (fallback first second) (s, u) h := by
  obtain ⟨hon, honAllocate⟩ := Provider.fallback_of_declined (Q := second.provider p) (u := u) htry
  cases hsecond with
  | @served before after q a x h' hleaves hbefore hserves htry' hallocate =>
    refine .served (leafParts_of_second first hleaves) (declines_of_sides hfirst hbefore) hserves
      (hon.trans (Action.onSecond_of_ok htry')) fun hsome => ?_
    have hmore : after ≠ [] := mt List.map_eq_nil_iff.2 hsome
    exact honAllocate.trans (Action.onSecond_of_ok (hallocate hmore))
  | @declined before q cause hleaves hbefore hdeclines htry' =>
    exact .declined (leafParts_of_second first hleaves) (declines_of_sides hfirst hbefore) hdeclines
      (hon.trans (Action.onSecond_of_ok htry'))

/-- **A request to a tree is a search through its leaves.**  By induction on the tree: the first
    side serves, or its leaves are passed over on the way to those of the second. -/
theorem search (hdefinite : ∀ q ∈ t.leafParts, q.Definite p r s h) : Search p r t s h := by
  induction t with
  | fallback first second ihfirst ihsecond =>
    obtain ⟨s, u⟩ := s
    have hfirst := ihfirst (s := s) fun q hq =>
      hdefinite (q.inFirst second) (List.mem_append_left _ (List.mem_map_of_mem hq))
    have hsecond := ihsecond (s := u) fun q hq =>
      hdefinite (q.inSecond first) (List.mem_append_right _ (List.mem_map_of_mem hq))
    cases hfirst with
    | @served before after q a x h' hleaves hbefore hserves htry hallocate =>
      obtain ⟨hwhole, hwholeAllocate⟩ :=
        Provider.fallback_of_served (Q := second.provider p) (u := u) htry
      have hsplit : (fallback first second).leafParts = before.map (Part.inFirst second) ++
          q.inFirst second :: (after.map (Part.inFirst second) ++
            second.leafParts.map (Part.inSecond first)) := by
        rw [leafParts, hleaves, List.map_append, List.append_assoc]
        rfl
      refine .served hsplit ?_ hserves hwhole fun _ => hwholeAllocate
      · intro d hd
        obtain ⟨leaf, hmem, rfl⟩ := List.mem_map.1 hd
        exact hbefore leaf hmem
    | @declined before q cause hleaves hbefore hdeclines htry =>
      refine hsecond.inSecond ?_ htry
      intro d hd
      rw [hleaves] at hd
      rcases List.mem_append.1 hd with hold | hlast
      · exact hbefore d hold
      · rw [List.mem_singleton.1 hlast]
        exact ⟨cause, hdeclines⟩
  | stack => exact search_single rfl rfl (hdefinite _ List.mem_cons_self)
  | heap => exact search_single rfl rfl (hdefinite _ List.mem_cons_self)
  | budget => exact search_single rfl rfl (hdefinite _ List.mem_cons_self)

/-- A tree whose leaves all decline does so, and nothing has changed. -/
theorem tryAllocate_of_declines (hall : ∀ d ∈ t.leafParts, ∃ cause, d.Declines p r s h cause) :
    ∃ cause, (t.provider p).tryAllocate r (s, h) = .ok (.error cause) (s, h) := by
  cases search fun d hd => Or.inr (hall d hd) with
  | declined _ _ _ htry => exact ⟨_, htry⟩
  | served hleaves _ hserves =>
    obtain ⟨cause, hdeclines⟩ := hall _ (leaf_of_split hleaves)
    exact absurd ⟨_, _, _, hserves⟩ hdeclines.not_serves

/-- **The form that may not be declined** comes to the last leaf, in that form, if all others
    decline. -/
theorem allocate_of_declines {before : List (Part t)} {q : Part t}
    (hleaves : t.leafParts = before ++ [q])
    (hbefore : ∀ d ∈ before, ∃ cause, d.Declines p r s h cause) :
    (t.provider p).allocate r (s, h)
      = Action.zoom q.get q.put ((q.shape.provider p).allocate r) (s, h) := by
  induction t with
  | fallback first second _ ihsecond =>
    obtain ⟨s, u⟩ := s
    obtain ⟨before₂, last, hsecond⟩ := second.exists_last
    have hboth := hleaves.symm.trans (leafParts_of_second first hsecond)
    obtain ⟨rfl, hlast⟩ := List.append_inj' hboth rfl
    obtain rfl := List.singleton_inj.1 hlast
    have hfirst : ∀ d ∈ first.leafParts, ∃ cause, d.Declines p r s h cause := fun d hd =>
      hbefore (d.inFirst second) (List.mem_append_left _ (List.mem_map_of_mem hd))
    have hrest : ∀ d ∈ before₂, ∃ cause, d.Declines p r u h cause := fun d hd =>
      hbefore (d.inSecond first) (List.mem_append_right _ (List.mem_map_of_mem hd))
    obtain ⟨cause, htry⟩ := tryAllocate_of_declines hfirst
    refine (Provider.fallback_of_declined (Q := second.provider p) htry).2.trans ?_
    exact (Action.onSecond_congr (ihsecond hsecond hrest)).trans
      (congrFun (Action.onSecond_zoom _ _ _) _)
  | _ =>
    have hsingle : [] ++ [_] = before ++ [q] := hleaves
    obtain ⟨-, hlast⟩ := List.append_inj' hsingle rfl
    obtain rfl := List.singleton_inj.1 hlast
    exact (congrFun (Action.zoom_id _) _).symm

end Tree

/-! ## Growth -/

/-- All of a stack but its cursor and its book: its blocks, and those of its cache.  Whoever asks the
    current block alone leaves it as it is. -/
def Stack.holdings (s : Stack) : Stack :=
  { s with current := { s.current with cursor := 0 }, outstanding := 0 }

/-- **A stack that is asked on trial** does not grow. -/
theorem Stack.offer_holdings {p : Platform} {gap : Nat} {r : Request} {s s' : Stack} {h h' : Host}
    {a : Nat} (hset : s.Settled gap h) (hserves : Stack.offer p r (s, h) = .ok (.ok a) (s', h')) :
    s'.holdings = s.holdings := by
  cases hvalid : Alignment.isValid r.alignment with
  | true =>
    have hbump := Stack.offer_bumps (p := p) (r := r) hset hvalid
    rw [Action.after_map, Action.after_of_ok hserves] at hbump
    cases hbump with
    | served => rfl
  | false =>
    have hrun : Stack.offer p r (s, h) = .ok (.error (.invalidAlignment r.alignment)) (s, h) := by
      rw [Stack.offer, hvalid]
      rfl
    cases hrun.symm.trans hserves

namespace Tree

/-- The holdings of the stacks of a part. -/
def Part.holdings (q : Part t) (s : t.State) : List Stack :=
  (q.shape.stackLeaves (q.get s)).map Stack.holdings

/-- A leaf that serves on trial does not grow. -/
theorem holdings_of_serves (hfit : ∀ st ∈ t.stackLeaves s, st.Fit p gap h) {q : Part t}
    (hq : q ∈ t.leafParts) {a : Nat} {x : q.shape.State} {h' : Host}
    (hserves : q.Serves p r s h a x h') : q.holdings (q.put x s) = q.holdings s := by
  have hstacks := stackLeaves_of_leaf (s := s) hq
  have hleaf := (part?_of_leaf hq).2
  unfold Part.holdings
  rw [get_put_of_leaf hq]
  obtain ⟨shape, get, put⟩ := q
  cases shape with
  | stack =>
    have hown := hfit (get s) (hstacks (get s) List.mem_cons_self)
    exact congrArg (fun st => [st]) (Stack.offer_holdings hown.settled hserves)
  | heap => rfl
  | budget => rfl
  | fallback first second => exact absurd rfl (hleaf first second)

/-- `Put p r t s h s'`: a request has changed one leaf at most, and if that is not the last one, it
    has served the request on trial. -/
inductive Put (p : Platform) (r : Request) (t : Tree) (s : t.State) (h : Host) : t.State → Prop
  | none : Put p r t s h s
  | leaf {before after : List (Part t)} {q : Part t} {x : q.shape.State}
      (hleaves : t.leafParts = before ++ q :: after)
      (hserves : after ≠ [] → ∃ a h', q.Serves p r s h a x h') : Put p r t s h (q.put x s)

/-- The form that may not be declined changes one leaf at most. -/
theorem allocate_put (hdefinite : ∀ q ∈ t.leafParts, q.Definite p r s h) :
    Put p r t s h (Action.after ((t.provider p).allocate r) (s, h)).2.1 := by
  have hlast : ∀ {before : List (Part t)} {q : Part t}, t.leafParts = before ++ [q] →
      (∀ d ∈ before, ∃ cause, d.Declines p r s h cause) →
      Put p r t s h (Action.after ((t.provider p).allocate r) (s, h)).2.1 := by
    intro before q hleaves hbefore
    have hrun : Action.after ((t.provider p).allocate r) (s, h)
        = Action.after (Action.zoom q.get q.put ((q.shape.provider p).allocate r)) (s, h) := by
      simp only [Action.after, allocate_of_declines hleaves hbefore]
    rw [hrun, Action.after_zoom]
    exact .leaf hleaves fun hsome => absurd rfl hsome
  cases search hdefinite with
  | @served before after q a x h' hleaves hbefore hserves _ hallocate =>
    by_cases hsome : after = []
    · subst hsome
      exact hlast hleaves hbefore
    · rw [Action.after_of_ok (hallocate hsome)]
      exact .leaf hleaves fun _ => ⟨a, h', hserves⟩
  | declined hleaves hbefore => exact hlast hleaves hbefore

/-- So does the form on trial. -/
theorem tryAllocate_put (hdefinite : ∀ q ∈ t.leafParts, q.Definite p r s h) :
    Put p r t s h (Action.after ((t.provider p).tryAllocate r) (s, h)).2.1 := by
  cases search hdefinite with
  | @served before after q a x h' hleaves _ hserves htry =>
    rw [Action.after_of_ok htry]
    exact .leaf hleaves fun _ => ⟨a, h', hserves⟩
  | declined _ _ _ htry =>
    rw [Action.after_of_ok htry]
    exact .none

/-- **A request to a tree, in any way**, changes one leaf at most. -/
theorem ask_put (hdefinite : ∀ r, ∀ q ∈ t.leafParts, q.Definite p r s h) (w : Way) (e : Request) :
    ∃ r, Put p r t s h (Action.after (w.ask (t.provider p) e) (s, h)).2.1 := by
  cases hw : w.request? e with
  | none =>
    obtain ⟨out, hrun, -⟩ := ask_overflowing p t hw s h
    rw [hrun]
    exact ⟨e, .none⟩
  | some r =>
    refine ⟨r, ?_⟩
    rw [ask_eq p t hw]
    cases w.fallible with
    | false =>
      rw [Way.ask, Action.after_map]
      exact allocate_put (hdefinite r)
    | true =>
      rw [Way.ask, Action.after_map]
      exact tryAllocate_put (hdefinite r)

/-- **All leaves but the last hold what they held.** -/
theorem Put.holdings {s' : t.State} (hput : Put p r t s h s')
    (hfit : ∀ st ∈ t.stackLeaves s, st.Fit p gap h) {before : List (Part t)} {last : Part t}
    (hleaves : t.leafParts = before ++ [last]) : ∀ d ∈ before, d.holdings s' = d.holdings s := by
  intro d hd
  cases hput with
  | none => rfl
  | @leaf left right q x hsplit hserves =>
    -- The other leaves are what they were.
    have hother : d ∈ left ++ right → d.holdings (q.put x s) = d.holdings s := by
      intro hmem
      unfold Part.holdings
      rw [leafParts_apart hsplit x s d hmem]
    by_cases hright : right = []
    · subst hright
      obtain ⟨rfl, -⟩ := List.append_inj' (hleaves.symm.trans hsplit) rfl
      exact hother (List.mem_append_left _ hd)
    · have hmem : d ∈ t.leafParts := by
        rw [hleaves]
        exact List.mem_append_left _ hd
      rw [hsplit, List.mem_append, List.mem_cons] at hmem
      rcases hmem with hleft | rfl | hlate
      · exact hother (List.mem_append_left _ hleft)
      · obtain ⟨a, h', hserves⟩ := hserves hright
        exact holdings_of_serves hfit (leaf_of_split hsplit) hserves
      · exact hother (List.mem_append_right _ hlate)

/-- A path that is empty leads to the whole tree. -/
theorem atPart_nil (t : Tree) (a : (u : Tree) → Action u.State Venture.Response) :
    t.atPart [] a = a t := by
  have hwhole : t.part? [] = some ⟨t, id, fun s _ => s⟩ := by cases t <;> rfl
  rw [atPart, hwhole]
  exact Action.zoom_id (a t)

end Tree

namespace Venture

variable {p : Platform} {gap n : Nat} {recipe : Recipe} {v : Venture recipe.tree}

/-- From what has been reached, a move that is not the end leads to what has been reached. -/
theorem Reached.step (hv : v.Reached p gap n) {d : Move} (hd : d ≠ .discard) :
    (v.step p d).Reached p gap (n + 1) := by
  obtain ⟨h, start, ds, hspaced, hmade, hds, rfl, rfl⟩ := hv
  refine ⟨h, start, ds ++ [d], hspaced, hmade, ?_, List.length_append, ?_⟩
  · rw [List.mem_append, List.mem_singleton]
    exact not_or.2 ⟨hds, Ne.symm hd⟩
  · show Venture.step p (start.run p ds) d = start.run p (ds ++ [d])
    unfold run
    rw [List.foldl_append]
    rfl

/-- The leaves of what has been reached serve or decline. -/
theorem Reached.definite (hp : p.Sound gap) (ht : recipe.tree.Unbudgeted)
    (hv : v.Reached p gap n) (r : Request) :
    ∀ q ∈ recipe.tree.leafParts, q.Definite p r v.state v.host :=
  fun _ hq => Tree.leaf_definite ht (hv.orderly hp ht).fit hq

/-- A request to the whole tree, as a move. -/
def asking (x : Way × Request) : Move := .ask [] x.1 x.2

/-- Asking the tree once. -/
theorem holdings_step (hp : p.Sound gap) (ht : recipe.tree.Unbudgeted) (hv : v.Reached p gap n)
    {before : List (Tree.Part recipe.tree)} {last : Tree.Part recipe.tree}
    (hleaves : recipe.tree.leafParts = before ++ [last]) (x : Way × Request) :
    ∀ d ∈ before, d.holdings (v.step p (asking x)).state = d.holdings v.state := by
  obtain ⟨w, e⟩ := x
  obtain ⟨r, hput⟩ := Tree.ask_put (hv.definite hp ht) w e
  have hstate : (v.step p (asking (w, e))).state
      = (Action.after (w.ask (recipe.tree.provider p) e) (v.state, v.host)).2.1 := by
    have hmove : (asking (w, e)).action p recipe.tree v.markers
        = w.inquire (recipe.tree.provider p) e :=
      Tree.atPart_nil _ fun u => w.inquire (u.provider p) e
    show (Action.after ((asking (w, e)).action p recipe.tree v.markers) (v.state, v.host)).2.1 = _
    rw [Way.after_ask, hmove]
    rfl
  rw [hstate]
  exact hput.holdings (hv.orderly hp ht).fit hleaves

/-- **Asking the tree again and again** makes no stack grow but the one at the last leaf. -/
theorem holdings_run (hp : p.Sound gap) (ht : recipe.tree.Unbudgeted) (hv : v.Reached p gap n)
    {before : List (Tree.Part recipe.tree)} {last : Tree.Part recipe.tree}
    (hleaves : recipe.tree.leafParts = before ++ [last]) (asks : List (Way × Request)) :
    ∀ d ∈ before, d.holdings (v.run p (asks.map asking)).state = d.holdings v.state := by
  induction asks generalizing v n with
  | nil => exact fun _ _ => rfl
  | cons x asks ih =>
    intro d hd
    have hfirst := holdings_step hp ht hv hleaves x d hd
    have hrest := ih (hv.step (d := asking x) nofun) d hd
    exact hrest.trans hfirst

/-- **A tree of stacks and heaps serves from its first willing leaf**, whatever its shape and the
    state that it has come to, for every size and every alignment.
    1. It serves on trial exactly if one of its leaves would by itself.
    2. `Search`: the leaf is the first that would, the address is the one that it serves, and it has
       changed as it would have by itself; if there is none, the cause is that of the last leaf, and
       nothing has changed.  The form that may not be declined does the same over all leaves but
       the last.
    3. A leaf that is put back is there, and the others are what they were.
    4. If no leaf before the last would serve, the form that may not be declined is that of the last
       leaf; so along any requests to the tree all leaves but the last hold what they held. -/
theorem serves_first_willing (hp : p.Sound gap) (ht : recipe.tree.Unbudgeted)
    (hv : v.Reached p gap n) (r : Request) :
    ((∃ a st, (recipe.tree.provider p).tryAllocate r (v.state, v.host) = .ok (.ok a) st) ↔
      ∃ q ∈ recipe.tree.leafParts, ∃ a x h', q.Serves p r v.state v.host a x h') ∧
    Tree.Search p r recipe.tree v.state v.host ∧
    (∀ before q after, recipe.tree.leafParts = before ++ q :: after → ∀ x,
      q.get (q.put x v.state) = x ∧
        ∀ d ∈ before ++ after, d.get (q.put x v.state) = d.get v.state) ∧
    ∃ before last, recipe.tree.leafParts = before ++ [last] ∧
      ((∀ d ∈ before, ¬∃ a x h', d.Serves p r v.state v.host a x h') →
        (recipe.tree.provider p).allocate r (v.state, v.host)
          = Action.zoom last.get last.put ((last.shape.provider p).allocate r)
              (v.state, v.host)) ∧
      ∀ asks : List (Way × Request), ∀ d ∈ before,
        d.holdings (v.run p (asks.map asking)).state = d.holdings v.state := by
  have hdefinite := hv.definite hp ht r
  have hsearch := Tree.search hdefinite
  refine ⟨⟨?_, ?_⟩, hsearch, ?_, ?_⟩
  · rintro ⟨a, st, hrun⟩
    cases hsearch with
    | @served before after q a x h' hleaves _ hserves =>
      exact ⟨q, Tree.leaf_of_split hleaves, a, x, h', hserves⟩
    | declined _ _ _ htry => cases htry.symm.trans hrun
  · rintro ⟨q, hq, hserves⟩
    cases hsearch with
    | served _ _ _ htry => exact ⟨_, _, htry⟩
    | @declined before last cause hleaves hbefore hdeclines =>
      rw [hleaves, List.mem_append, List.mem_singleton] at hq
      rcases hq with hold | rfl
      · obtain ⟨cause, hdeclines⟩ := hbefore q hold
        exact absurd hserves hdeclines.not_serves
      · exact absurd hserves hdeclines.not_serves
  · intro before q after hleaves x
    have hq := Tree.leaf_of_split hleaves
    exact ⟨Tree.get_put_of_leaf hq x v.state, Tree.leafParts_apart hleaves x v.state⟩
  · obtain ⟨before, last, hleaves⟩ := recipe.tree.exists_last
    refine ⟨before, last, hleaves, fun hunwilling => ?_, holdings_run hp ht hv hleaves⟩
    refine Tree.allocate_of_declines hleaves fun d hd => ?_
    have hmem : d ∈ recipe.tree.leafParts := by
      rw [hleaves]
      exact List.mem_append_left _ hd
    exact (hdefinite d hmem).resolve_left (hunwilling d hd)

/-- Two stacks and a heap behind them. -/
def stacksThenHeap : Recipe :=
  .fallback (.stack (.sized .debug 16)) (.fallback (.stack (.sized .debug 64)) .heap)

/-- Forty bytes are too much for the first stack, so the second serves them; and however often the
    tree is asked, both hold what they held. -/
theorem serves_first_willing_second :
    ∃ v : Venture stacksThenHeap.tree, v.Reached (Session.platform .debug []) 1 0 ∧
      (∃ q ∈ stacksThenHeap.tree.leafParts, ∃ a x h',
        q.Serves (Session.platform .debug []) ⟨40, 8⟩ v.state v.host a x h') ∧
      Tree.Search (Session.platform .debug []) ⟨40, 8⟩ stacksThenHeap.tree v.state v.host ∧
      ∃ before last, stacksThenHeap.tree.leafParts = before ++ [last] ∧
        ∀ asks : List (Way × Request), ∀ d ∈ before,
          d.holdings (v.run (Session.platform .debug []) (asks.map asking)).state
            = d.holdings v.state := by
  have hp : (Session.platform .debug []).Sound 1 :=
    Session.platform_sound .debug (by nofun) (by decide)
  have hall : ((made? (Session.platform .debug []) stacksThenHeap .initial).map fun v =>
      (Action.after ((stacksThenHeap.tree.provider (Session.platform .debug [])).tryAllocate ⟨40, 8⟩)
        (v.state, v.host)).1.toOption) = some (some (.ok 131072)) := by decide +kernel
  obtain ⟨v, hmade, hserved⟩ := Option.map_eq_some_iff.1 hall
  have hv : v.Reached (Session.platform .debug []) 1 0 :=
    ⟨.initial, v, [], .empty 1, hmade, List.not_mem_nil, rfl, rfl⟩
  have ht : stacksThenHeap.tree.Unbudgeted := ⟨trivial, trivial, trivial⟩
  obtain ⟨hwilling, hsearch, -, before, heap, hleaves, -, hholdings⟩ :=
    serves_first_willing hp ht hv ⟨40, 8⟩
  generalize hlast : Action.after ((stacksThenHeap.tree.provider (Session.platform .debug
    [])).tryAllocate ⟨40, 8⟩) (v.state, v.host) = last at hserved
  obtain ⟨fault | served, st⟩ := last
  · cases hserved
  · cases hserved
    have hwhole := hwilling.1 ⟨131072, st, Action.ok_of_after hlast⟩
    exact ⟨v, hv, hwhole, hsearch, before, heap, hleaves, hholdings⟩

end Venture

end StackArena
