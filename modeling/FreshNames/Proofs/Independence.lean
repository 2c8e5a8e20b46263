import FreshNames.Proofs.Chains
import FreshNames.Proofs.HandedOut

/-!
# Independent factories

All simple factories of one letter case share a cache.  Yet whoever uses one of them cannot tell what
is done with the others: names out of exact caches do not depend on how far the caches are filled,
and growing is a matter of the greatest length that was ever asked for.

* `Shelf.Effect` - what is done with a shelf, told without the shelf: an answer, the factories at
  some places afterwards, and how long the caches must be at least;
* `Shelf.Confined` - an operation has an effect that the factories at some places settle;
* `Confined.commute` - operations that are confined to different places can be exchanged;
* `next_confined`, `names_confined`, `reset_confined`, `modify_confined`, `ask_confined` - what one
  does with a factory is confined to its chain;
* `Session.independent_steps_commute` - so steps on factories without a common one on their chains
  can be exchanged.
-/

set_option autoImplicit false

namespace FreshNames

namespace Shelf

variable {s s' s'' : Shelf} {place q : Nat} {ps qs : List Nat} {f g : Factory} {α β : Type}

/-! ## Shelves that look the same from some places -/

/-- References point behind, and the caches are exact. -/
structure Firm (s : Shelf) : Prop where
  grounded : s.Grounded
  exact : s.caches.AreExact

/-- The same factories stand at the places, among as many. -/
structure Agrees (s : Shelf) (ps : List Nat) (s' : Shelf) : Prop where
  size_eq : s'.size = s.size
  same : ∀ q ∈ ps, s'.get? q = s.get? q

theorem Agrees.refl (s : Shelf) (ps : List Nat) : s.Agrees ps s := ⟨rfl, fun _ _ => rfl⟩

theorem Agrees.tail (h : s.Agrees (q :: ps) s') : s.Agrees ps s' :=
  ⟨h.size_eq, fun p hp => h.same p (List.mem_cons_of_mem q hp)⟩

theorem Chain.agrees (h : s.Chain place ps) (ha : s.Agrees ps s') : s'.Chain place ps := by
  induction h with
  | last hf hd => exact .last ((ha.same _ List.mem_cons_self).trans hf) hd
  | link hf hd _ ih => exact .link ((ha.same _ List.mem_cons_self).trans hf) hd (ih ha.tail)

/-- The way to the giver leads along the chain. -/
theorem Chain.gives_mem {t : Text} {giver : Nat} (h : s.Chain place ps)
    (hg : s.Gives place t giver) : giver ∈ ps := by
  induction hg generalizing ps with
  | own _ _ => exact h.mem_head
  | through hf _ ih =>
    cases h with
    | last hf' hd =>
      rw [hf] at hf'
      cases hf'
      cases hd
    | link hf' hd hchain =>
      rw [hf] at hf'
      cases hf'
      cases hd
      exact List.mem_cons_of_mem _ (ih hchain)

theorem Chain.gives_agrees {t : Text} {giver : Nat} (h : s.Chain place ps)
    (hg : s.Gives place t giver) (ha : s.Agrees ps s') : s'.Gives place t giver := by
  induction hg generalizing ps with
  | own hf hisGiver => exact .own ((ha.same _ h.mem_head).trans hf) hisGiver
  | through hf _ ih =>
    have hsame := ha.same _ h.mem_head
    cases h with
    | last hf' hd =>
      rw [hf] at hf'
      cases hf'
      cases hd
    | link hf' hd hchain =>
      rw [hf] at hf'
      cases hf'
      cases hd
      exact .through (hsame.trans hf) (ih hchain ha.tail)

theorem Chain.pointwise {R : Factory → Factory → Prop}
    (hR : ∀ {f g}, R f g → g.delegate? = f.delegate?) (h : s.Chain place ps) (hp : s.Pointwise R s') : s'.Chain place ps := by
  induction h with
  | last hf hd =>
    obtain ⟨f', hf', hrel⟩ := hp.related hf
    exact .last hf' ((hR hrel).trans hd)
  | link hf hd _ ih =>
    obtain ⟨f', hf', hrel⟩ := hp.related hf
    exact .link hf' ((hR hrel).trans hd) ih

/-! ## Effects -/

/-- What an operation on a shelf comes to: its answer, the factories that stand at its places
    afterwards, and the lengths that the caches have at least. -/
structure Effect (α : Type) where
  answer : α
  factory? : Nat → Option Factory
  need : LetterCase → Nat

/-- The result of an operation on a shelf has the effect at the places, and no other. -/
structure Effect.Shows (e : Effect α) (ps : List Nat) (s : Shelf) (r : α × Shelf) : Prop where
  answer_eq : r.1 = e.answer
  size_eq : r.2.size = s.size
  firm : r.2.Firm
  inside : ∀ q ∈ ps, r.2.get? q = e.factory? q
  outside : ∀ q, q ∉ ps → r.2.get? q = s.get? q
  grown : ∀ lc, (r.2.caches.get lc).size = max (s.caches.get lc).size (e.need lc)

/-- The factories at the places settle what the operation comes to, and it does nothing elsewhere. -/
def Confined (op : Shelf → α × Shelf) (ps : List Nat) (s : Shelf) : Prop :=
  ∃ e : Effect α, ∀ s' : Shelf, s'.Firm → s.Agrees ps s' → e.Shows ps s' (op s')

theorem Effect.Shows.agrees {e : Effect α} {r : α × Shelf} (h : e.Shows ps s r)
    (hd : ps.Disjoint qs) : s.Agrees qs r.2 :=
  ⟨h.size_eq, fun q hq => h.outside q fun hp => hd hp hq⟩

/-- **Operations that are confined to different places can be exchanged.** -/
theorem Confined.commute {op : Shelf → α × Shelf} {op' : Shelf → β × Shelf} (hs : s.Firm)
    (h : Confined op ps s) (h' : Confined op' qs s) (hd : ps.Disjoint qs) :
    (op' (op s).2).1 = (op' s).1 ∧ (op (op' s).2).1 = (op s).1 ∧
      (op' (op s).2).2 = (op (op' s).2).2 := by
  obtain ⟨e, he⟩ := h
  obtain ⟨e', he'⟩ := h'
  have hfirst := he s hs (.refl s ps)
  have hfirst' := he' s hs (.refl s qs)
  have hthen' := he' (op s).2 hfirst.firm (hfirst.agrees hd)
  have hthen := he (op' s).2 hfirst'.firm (hfirst'.agrees hd.symm)
  refine ⟨hthen'.answer_eq.trans hfirst'.answer_eq.symm,
    hthen.answer_eq.trans hfirst.answer_eq.symm, ?_⟩
  apply ext_get?
  · rw [hthen'.size_eq, hfirst.size_eq, hthen.size_eq, hfirst'.size_eq]
  · refine hthen.firm.exact.eq_of_sizes hthen'.firm.exact fun lc => ?_
    rw [hthen'.grown, hfirst.grown, hthen.grown, hfirst'.grown]
    omega
  · intro q
    by_cases hp : q ∈ ps
    · have hq : q ∉ qs := fun hq => hd hp hq
      rw [hthen'.outside q hq, hfirst.inside q hp, hthen.inside q hp]
    · rw [hthen.outside q hp]
      by_cases hq : q ∈ qs
      · rw [hthen'.inside q hq, hfirst'.inside q hq]
      · rw [hthen'.outside q hq, hfirst.outside q hp, hfirst'.outside q hq]

/-! ## Putting operations together -/

theorem Confined.pure (answer : α) (ps : List Nat) (s : Shelf) :
    Confined (fun s => (answer, s)) ps s := by
  refine ⟨⟨answer, s.get?, fun _ => 0⟩, fun s' hs' ha => ?_⟩
  exact ⟨rfl, rfl, hs', ha.same, fun _ _ => rfl, fun lc => (Nat.max_zero _).symm⟩

/-- What is done next may depend on the answer. -/
theorem Confined.andThen {op : Shelf → α × Shelf} {k : α → Shelf → β × Shelf} (hs : s.Firm)
    (h : Confined op ps s) (h' : Confined (k (op s).1) ps (op s).2) :
    Confined (fun s => k (op s).1 (op s).2) ps s := by
  obtain ⟨e, he⟩ := h
  obtain ⟨e', he'⟩ := h'
  have hfirst := he s hs (.refl s ps)
  refine ⟨⟨e'.answer, e'.factory?, fun lc => max (e.need lc) (e'.need lc)⟩, fun s' hs' ha => ?_⟩
  have hshows := he s' hs' ha
  have hagrees : (op s).2.Agrees ps (op s').2 := by
    constructor
    · rw [hshows.size_eq, ha.size_eq, hfirst.size_eq]
    · intro q hq
      rw [hshows.inside q hq, hfirst.inside q hq]
  have hthen := he' (op s').2 hshows.firm hagrees
  show Effect.Shows _ ps s' (k (op s').1 (op s').2)
  rw [hshows.answer_eq, ← hfirst.answer_eq]
  refine ⟨hthen.answer_eq, hthen.size_eq.trans hshows.size_eq, hthen.firm, hthen.inside, ?_, ?_⟩
  · intro q hq
    rw [hthen.outside q hq, hshows.outside q hq]
  · intro lc
    rw [hthen.grown, hshows.grown]
    exact Nat.max_assoc ..

/-- The answer may be put in another form. -/
theorem Confined.map {op : Shelf → α × Shelf} (hs : s.Firm) (h : Confined op ps s) (form : α → β) :
    Confined (fun s => (form (op s).1, (op s).2)) ps s :=
  h.andThen (k := fun a s => (form a, s)) hs (.pure _ ps _)

end Shelf

/-! ## Drawing -/

namespace Factory

variable {g : Factory} {caches caches' : NameCaches}

/-- How long the caches must be for the next name. -/
def need : Factory → LetterCase → Nat
  | simple lc index, lc' => if lc' = lc then index.toNat + 1 else 0
  | _, _ => 0

/-- What is drawn does not depend on how far exact caches are filled. -/
theorem draw_congr (hr : g.InRange) (hc : caches.AreExact) (hc' : caches'.AreExact) :
    (g.draw caches').1 = (g.draw caches).1 ∧ (g.draw caches').2.1 = (g.draw caches).2.1 := by
  cases g with
  | simple lc index =>
    obtain ⟨n, rfl⟩ := Int.eq_ofNat_of_zero_le hr
    have hname := (NameCache.name_exact (hc lc) n).1
    have hname' := (NameCache.name_exact (hc' lc) n).1
    simp only [draw, NameCaches.nameAt_natCast, hname, hname', and_self]
  | dictionary letters index fallback =>
    simp only [draw]
    cases letters.alphabet.encode index <;> exact ⟨rfl, rfl⟩
  | numeric index => exact ⟨rfl, rfl⟩
  | prefixing inner pre => exact ⟨rfl, rfl⟩
  | counting resets requests => exact ⟨rfl, rfl⟩

theorem draw_grown (hr : g.InRange) (caches : NameCaches) (lc : LetterCase) :
    ((g.draw caches).2.2.get lc).size = max (caches.get lc).size (g.need lc) := by
  cases g with
  | simple lc' index =>
    obtain ⟨n, rfl⟩ := Int.eq_ofNat_of_zero_le hr
    simp only [draw, NameCaches.nameAt_natCast, NameCaches.get_set, need]
    split
    · rename_i he
      rw [he, NameCache.size_name, Int.toNat_natCast]
    · omega
  | dictionary letters index fallback =>
    simp only [draw, need, Nat.max_zero]
    cases letters.alphabet.encode index <;> rfl
  | numeric index => exact (Nat.max_zero _).symm
  | prefixing inner pre => exact (Nat.max_zero _).symm
  | counting resets requests => exact (Nat.max_zero _).symm

end Factory

/-! ## What is done with a factory -/

namespace Shelf

variable {s s' : Shelf} {place giver : Nat} {ps : List Nat} {t : Text} {g : Factory}

theorem next_confined (hs : s.Firm) (h : s.Chain place ps) (hgives : s.Gives place t giver)
    (hg : s.get? giver = some g) (hr : g.InRange) : Confined (fun s => s.next place) ps s := by
  have hmem := h.gives_mem hgives
  refine ⟨⟨(g.draw s.caches).1.map (t ++ ·),
    fun q => if q = giver then some (g.draw s.caches).2.1 else s.get? q, g.need⟩, fun s' hs' ha => ?_⟩
  have hg' := (ha.same giver hmem).trans hg
  have hnext := next_eq hs'.grounded (h.gives_agrees hgives ha) hg'
  obtain ⟨hanswer, hfactory⟩ := Factory.draw_congr hr hs.exact hs'.exact
  have hget (q : Nat) : (s'.next place).2.get? q =
      if q = giver then some (g.draw s.caches).2.1 else s'.get? q := by
    rw [hnext]
    show (s'.modify giver fun f => (f.draw s'.caches).2.1).get? q = _
    rw [get?_modify]
    split
    · rename_i he
      rw [he, hg', Option.map_some, hfactory]
    · rfl
  constructor
  · show (s'.next place).1 = _
    rw [hnext, hanswer]
  · exact s'.size_next place
  · exact ⟨hs'.grounded.pointwise (s'.next_onward place) Factory.Onward.delegate?_eq,
      next_areExact hs'.exact place⟩
  · intro q hq
    rw [hget q, ha.same q hq]
  · intro q hq
    have hne : q ≠ giver := fun he => hq (he ▸ hmem)
    rw [hget q, if_neg hne]
  · intro lc
    show ((s'.next place).2.caches.get lc).size = _
    rw [hnext]
    exact Factory.draw_grown hr s'.caches lc

/-- The names behind a first one, which may have been missing, and that one in front. -/
def namesAfter (place count : Nat) (first : Except NameProblem Text) (s : Shelf) :
    Except NameProblem (List Text) × Shelf :=
  match first with
  | .error e => (.error e, s)
  | .ok u => ((s.names place count).1.map (u :: ·), (s.names place count).2)

theorem names_succ (s : Shelf) (place count : Nat) :
    s.names place (count + 1) = namesAfter place count (s.next place).1 (s.next place).2 := by
  cases hu : (s.next place).1 with
  | error e => exact names_succ_of_error hu
  | ok u => exact names_succ_of_ok hu

theorem names_confined (hs : s.Firm) (h : s.Chain place ps) (hgives : s.Gives place t giver)
    (hg : s.get? giver = some g) (hr : g.InRange) (count : Nat) :
    Confined (fun s => s.names place count) ps s := by
  induction count generalizing s g with
  | zero => exact .pure (Except.ok []) ps s
  | succ count ih =>
    have hnext := next_confined hs h hgives hg hr
    simp only [names_succ]
    -- what is done behind the first name depends on that name
    refine hnext.andThen hs ?_
    cases hu : (s.next place).1 with
    | error e => exact .pure _ ps _
    | ok u =>
      have hon := s.next_onward place
      obtain ⟨g', hg', hong⟩ := hon.related hg
      have hs1 : (s.next place).2.Firm :=
        ⟨hs.grounded.pointwise hon Factory.Onward.delegate?_eq, next_areExact hs.exact place⟩
      have hrest := ih hs1 (h.pointwise Factory.Onward.delegate?_eq hon) (hon.gives hgives) hg'
        (hong.inRange hr)
      exact hrest.map hs1 fun us => us.map (u :: ·)

/-- What is logged of a reset depends on the chain only. -/
theorem Chain.reset_records (hgr : s.Grounded) (h : s.Chain place ps)
    (ha : s.Agrees ps s') : (s'.reset place).1 = (s.reset place).1 := by
  induction h with
  | last hf hd =>
    rw [reset_of_last hf hd, reset_of_last ((ha.same _ List.mem_cons_self).trans hf) hd]
  | link hf hd _ ih =>
    have hf' := (ha.same _ List.mem_cons_self).trans hf
    rw [reset_of_delegate hf hd (hgr _ _ hf _ hd), reset_of_delegate hf' hd (hgr _ _ hf _ hd),
      ih ha.tail]

theorem reset_confined (hs : s.Firm) (h : s.Chain place ps) :
    Confined (fun s => s.reset place) ps s := by
  refine ⟨⟨(s.reset place).1, fun q => (s.get? q).map Factory.rewound, fun _ => 0⟩,
    fun s' hs' ha => ?_⟩
  have hget := get?_reset hs'.grounded (h.agrees ha)
  constructor
  · exact h.reset_records hs.grounded ha
  · exact s'.size_reset place
  · refine ⟨hs'.grounded.pointwise (s'.reset_pointwise place) ?_, hs'.exact⟩
    rintro f g (rfl | rfl)
    · rfl
    · exact f.delegate?_rewound
  · intro q hq
    show (s'.reset place).2.get? q = _
    rw [hget, if_pos hq, ha.same q hq]
  · intro q hq
    show (s'.reset place).2.get? q = _
    rw [hget, if_neg hq]
  · intro lc
    exact (Nat.max_zero _).symm

theorem modify_confined {change : Factory → Factory} (hc : ∀ f, (change f).delegate? = f.delegate?)
    (hp : place ∈ ps) : Confined (fun s => ((), s.modify place change)) ps s := by
  refine ⟨⟨(), fun q => if q = place then (s.get? q).map change else s.get? q, fun _ => 0⟩,
    fun s' hs' ha => ?_⟩
  have hget := s'.get?_modify change place
  constructor
  · rfl
  · exact s'.size_modify change place
  · refine ⟨hs'.grounded.pointwise (s'.modify_pointwise place change) ?_, hs'.exact⟩
    rintro f g (rfl | rfl)
    · rfl
    · exact hc f
  · intro q hq
    show (s'.modify place change).get? q = _
    rw [hget, ha.same q hq]
  · intro q hq
    have hne : q ≠ place := fun he => hq (he ▸ hp)
    show (s'.modify place change).get? q = _
    rw [hget, if_neg hne]
  · intro lc
    exact (Nat.max_zero _).symm

end Shelf

/-! ## Asking a cache -/

namespace NameCaches

/-- A way to ask a cache: on exact caches the answer is always the same, and they stay exact and grow
    up to the same length. -/
def IsSteady (ask : NameCaches → LetterCase → Except NameProblem (Text × NameCaches)) : Prop :=
  ∀ lc, (∃ e, ∀ caches : NameCaches, ask caches lc = .error e) ∨
    ∃ (t : Text) (need : LetterCase → Nat), ∀ caches : NameCaches, caches.AreExact →
      ∃ caches' : NameCaches, ask caches lc = .ok (t, caches') ∧ caches'.AreExact ∧
        ∀ lc', (caches'.get lc').size = max (caches.get lc').size (need lc')

theorem size_get_set (caches : NameCaches) (lc lc' : LetterCase) {cache : NameCache} {n : Nat}
    (h : cache.size = max (caches.get lc).size n) :
    ((caches.set lc cache).get lc').size =
      max (caches.get lc').size (if lc' = lc then n else 0) := by
  rw [get_set]
  split
  · rename_i he
    rw [he, h]
  · omega

theorem isSteady_nameAt (n : Nat) : IsSteady fun caches lc => caches.nameAt lc n := by
  intro lc
  refine .inr ⟨(lc.alphabet.word n).reverse, fun lc' => if lc' = lc then n + 1 else 0,
    fun caches hc => ?_⟩
  obtain ⟨hname, hexact⟩ := NameCache.name_exact (hc lc) n
  refine ⟨_, ?_, hc.set hexact, fun lc' => size_get_set caches lc lc' ?_⟩
  · rw [← hname]
    exact nameAt_natCast caches lc n
  · exact NameCache.size_name ..

theorem isSteady_newNameAt (i : Int) : IsSteady fun caches lc => caches.newNameAt lc i := by
  intro lc
  cases i with
  | ofNat n =>
    refine .inr ⟨(lc.alphabet.word n).reverse,
      fun lc' => if lc' = lc then n / lc.alphabet.size else 0, fun caches hc => ?_⟩
    obtain ⟨hname, hexact⟩ := NameCache.newName_exact (hc lc) n
    refine ⟨_, ?_, hc.set hexact, fun lc' => size_get_set caches lc lc' ?_⟩
    · rw [← hname]
      exact newNameAt_natCast caches lc n
    · exact NameCache.size_newName ..
  | negSucc n =>
    -- a letter, counted from the end of the alphabet: the caches play no part
    have hask (caches : NameCaches) : caches.newNameAt lc (.negSucc n) =
        (NameCache.newNameAt lc.alphabet #[] (.negSucc n)).map fun r => (r.1, caches) := by
      simp only [newNameAt, NameCache.newNameAt]
      rcases lc.alphabet.get (.negSucc n) with ⟨_ | _⟩ | c
      · rfl
      · rfl
      · simp only [set_get, Except.map]
    cases hr : NameCache.newNameAt lc.alphabet #[] (.negSucc n) with
    | error e =>
      rw [hr] at hask
      exact .inl ⟨e, hask⟩
    | ok r =>
      rw [hr] at hask
      exact .inr ⟨r.1, fun _ => 0, fun caches hc =>
        ⟨caches, hask caches, hc, fun _ => (Nat.max_zero _).symm⟩⟩

end NameCaches

/-! ## Steps -/

namespace Session

variable {s : Session} {name name' : Text} {place place' : Nat} {ps ps' : List Nat} {a a' : Action}

/-- Is the action one of those that only concern the factory and the chain behind it?  Where names
    are drawn or looked up, no place may be counted from the end of a cache. -/
def Permits (s : Session) (place : Nat) : Action → Prop
  | .next | .names _ => ∀ t giver lc index, s.shelf.Gives place t giver →
      s.shelf.get? giver = some (.simple lc index) → 0 ≤ index
  | .name index => 0 ≤ index
  | .reset | .newName _ | .setIndex _ => True
  | _ => False

/-- A name, or why there is none, as the result of a step. -/
def nameResult : Except NameProblem Text → Except StepError Reply
  | .error e => .error (.name e)
  | .ok t => .ok (.name t)

/-- Several names, or why there are none, as the result of a step. -/
def namesResult : Except NameProblem (List Text) → Except StepError Reply
  | .error e => .error (.name e)
  | .ok ts => .ok (.names ts)

/-- What an action does to a shelf: its result, the log records, and the shelf afterwards. -/
def doing (s : Session) (name : Text) (place : Nat) (a : Action) (shelf : Shelf) :
    (Except StepError Reply × List Record) × Shelf :=
  let o := { s with shelf }.actOnFactory name place a
  ((o.result, o.records), o.session.shelf)

theorem inRange_of_permits (h : s.Permits place .next) {t : Text} {giver : Nat} {g : Factory}
    (hgives : s.shelf.Gives place t giver) (hg : s.shelf.get? giver = some g) : g.InRange := by
  cases g with
  | simple lc index => exact h t giver lc index hgives hg
  | _ => trivial

theorem ask_confined {ask : NameCaches → LetterCase → Except NameProblem (Text × NameCaches)}
    (hask : NameCaches.IsSteady ask) (s : Session) (name : Text) (hp : place ∈ ps) (shelf : Shelf) :
    Shelf.Confined (fun shelf =>
      let o := { s with shelf }.askCache name place ask
      ((o.result, o.records), o.session.shelf)) ps shelf := by
  by_cases hsimple : ∃ lc index, shelf.get? place = some (.simple lc index)
  · obtain ⟨lc, index, hf⟩ := hsimple
    rcases hask lc with ⟨e, he⟩ | ⟨t, need, hneed⟩
    · refine ⟨⟨(.error (.name e), []), shelf.get?, fun _ => 0⟩, fun shelf' hs' ha => ?_⟩
      have hf' := (ha.same place hp).trans hf
      simp only [askCache, hf', he, quiet]
      exact ⟨rfl, rfl, hs', ha.same, fun _ _ => rfl, fun _ => (Nat.max_zero _).symm⟩
    · refine ⟨⟨(.ok (.name t), []), shelf.get?, need⟩, fun shelf' hs' ha => ?_⟩
      have hf' := (ha.same place hp).trans hf
      obtain ⟨caches', hok, hexact, hsize⟩ := hneed shelf'.caches hs'.exact
      simp only [askCache, hf', hok, quiet]
      exact ⟨rfl, rfl, ⟨hs'.grounded, hexact⟩, ha.same, fun _ _ => rfl, hsize⟩
  · refine ⟨⟨(.error (.unsuitable name), []), shelf.get?, fun _ => 0⟩, fun shelf' hs' ha => ?_⟩
    have hquiet : { s with shelf := shelf' }.askCache name place ask =
        quiet (.error (.unsuitable name)) { s with shelf := shelf' } := by
      unfold askCache
      split
      · rename_i lc index hf
        exact absurd ⟨lc, index, (ha.same place hp).symm.trans hf⟩ hsimple
      · rfl
    simp only [hquiet, quiet]
    exact ⟨rfl, rfl, hs', ha.same, fun _ _ => rfl, fun _ => (Nat.max_zero _).symm⟩

/-- **What is done with a factory is confined to its chain.** -/
theorem doing_confined (hs : s.shelf.Firm) (h : s.shelf.Chain place ps) (ha : s.Permits place a)
    (name : Text) : Shelf.Confined (s.doing name place a) ps s.shelf := by
  obtain ⟨-, giver, -, pres, g, -, -, hg, -, hgives⟩ := h.exists_gives
  cases a with
  | next =>
    have hnext := Shelf.next_confined hs h hgives hg (inRange_of_permits ha hgives hg)
    have hdoing : s.doing name place .next =
        fun shelf => ((nameResult (shelf.next place).1, []), (shelf.next place).2) := by
      funext shelf
      rw [doing, actOnFactory_next]
      rfl
    rw [hdoing]
    exact hnext.map hs fun r => (nameResult r, [])
  | names count =>
    have hnames := Shelf.names_confined hs h hgives hg (inRange_of_permits ha hgives hg) count.toNat
    have hdoing : s.doing name place (.names count) = fun shelf =>
        ((namesResult (shelf.names place count.toNat).1, []), (shelf.names place count.toNat).2) := by
      funext shelf
      rw [doing, actOnFactory_names]
      rfl
    rw [hdoing]
    exact hnames.map hs fun r => (namesResult r, [])
  | reset =>
    have hreset := Shelf.reset_confined hs h
    exact hreset.map hs fun records => (Except.ok Reply.done, records)
  | name index =>
    obtain ⟨n, rfl⟩ := Int.eq_ofNat_of_zero_le ha
    exact ask_confined (NameCaches.isSteady_nameAt n) s name h.mem_head s.shelf
  | newName index =>
    exact ask_confined (NameCaches.isSteady_newNameAt index) s name h.mem_head s.shelf
  | setIndex index =>
    have hmodify : Shelf.Confined (fun s => ((), s.modify place (.withIndex index))) ps s.shelf :=
      Shelf.modify_confined (Factory.delegate?_withIndex index) h.mem_head
    exact hmodify.map hs fun _ => (Except.ok Reply.done, [])
  | setAlphabet v => cases ha
  | look => cases ha
  | shares other => cases ha

/-- A permitted action changes nothing but the shelf. -/
theorem step_of_permits (ha : s.Permits place a) (hname : s.handle name = .ok (.factory place))
    (w : World) (shelf : Shelf) :
    ∃ view, { s with shelf }.step w (.act name a) =
      (⟨(s.doing name place a shelf).1.1, view, s.logging.writeAll (s.doing name place a shelf).1.2⟩,
        { s with shelf := (s.doing name place a shelf).2 }) := by
  have hname' : { s with shelf }.handle name = .ok (.factory place) := hname
  have hsession : ({ s with shelf }.actOnFactory name place a).session =
      { s with shelf := (s.doing name place a shelf).2 } := by
    cases a with
    | next => simp only [doing, actOnFactory_next, quiet]
    | names count => simp only [doing, actOnFactory_names, quiet]
    | reset => rfl
    | name index =>
      simp only [doing, actOnFactory, askCache]
      split
      · split <;> rfl
      · rfl
    | newName index =>
      simp only [doing, actOnFactory, askCache]
      split
      · split <;> rfl
      · rfl
    | setIndex index => rfl
    | setAlphabet v => cases ha
    | look => cases ha
    | shares other => cases ha
  refine ⟨{ s with shelf := (s.doing name place a shelf).2 }.view? name, ?_⟩
  simp only [step, perform, act_of_handle hname', hsession]
  rfl

/-- **Steps on factories that have no factory of their chains in common can be exchanged**: in either
    order they give the same results, write the same, and lead to the same session. -/
theorem independent_steps_commute (h : s.Reachable) (hname : s.handle name = .ok (.factory place))
    (hname' : s.handle name' = .ok (.factory place')) (hchain : s.shelf.Chain place ps)
    (hchain' : s.shelf.Chain place' ps') (hd : ps.Disjoint ps') (ha : s.Permits place a)
    (ha' : s.Permits place' a') (w w' : World) :
    let first := s.step w (.act name a)
    let second := first.2.step w' (.act name' a')
    let first' := s.step w' (.act name' a')
    let second' := first'.2.step w (.act name a)
    second'.1.result = first.1.result ∧ second.1.result = first'.1.result ∧
      second'.1.output = first.1.output ∧ second.1.output = first'.1.output ∧
      second'.2 = second.2 := by
  have hs : s.shelf.Firm := ⟨h.sound.grounded, h.sound.exact⟩
  obtain ⟨hanswer', hanswer, hshelf⟩ := Shelf.Confined.commute hs (doing_confined hs hchain ha name)
    (doing_confined hs hchain' ha' name') hd
  obtain ⟨view, hfirst⟩ : ∃ view, s.step w (.act name a) = (⟨_, view, _⟩, _) :=
    step_of_permits ha hname w s.shelf
  obtain ⟨view', hfirst'⟩ : ∃ view, s.step w' (.act name' a') = (⟨_, view, _⟩, _) :=
    step_of_permits ha' hname' w' s.shelf
  obtain ⟨_, hsecond⟩ := step_of_permits ha' hname' w' (s.doing name place a s.shelf).2
  obtain ⟨_, hsecond'⟩ := step_of_permits ha hname w (s.doing name' place' a' s.shelf).2
  simp only [hfirst, hfirst', hsecond, hsecond', hanswer, hanswer', hshelf, and_self]

/-- Two simple factories with one cache, the first of them behind a prefixing factory. -/
def twoSimple : Session :=
  ((initial .inOrder).run World.nothing [
    .make ['m'] (.simple .mixed), .make ['p'] (.prefixing ['m'] ['_']),
    .make ['n'] (.simple .mixed)]).2

theorem independent_steps_commute_twoSimple :
    twoSimple.Reachable ∧ twoSimple.shelf.Chain 1 [1, 0] ∧ twoSimple.shelf.Chain 2 [2] ∧
      List.Disjoint [1, 0] [2] ∧ twoSimple.Permits 1 (.names 2) ∧ twoSimple.Permits 2 (.newName 60) ∧
      let first := twoSimple.step World.nothing (.act ['p'] (.names 2))
      let second := first.2.step World.nothing (.act ['n'] (.newName 60))
      let first' := twoSimple.step World.nothing (.act ['n'] (.newName 60))
      let second' := first'.2.step World.nothing (.act ['p'] (.names 2))
      second'.1.result = first.1.result ∧ second.1.result = first'.1.result ∧
        second'.1.output = first.1.output ∧ second.1.output = first'.1.output ∧
        second'.2 = second.2 := by
  have hreach : twoSimple.Reachable := (Reachable.initial .inOrder).run World.nothing _
  have hname : twoSimple.handle ['p'] = .ok (.factory 1) := handle_of_lookup (by decide +kernel)
  have hname' : twoSimple.handle ['n'] = .ok (.factory 2) := handle_of_lookup (by decide +kernel)
  have hchain : twoSimple.shelf.Chain 1 [1, 0] :=
    .link (f := .prefixing 0 ['_']) rfl rfl (.last (f := .simple .mixed 0) rfl rfl)
  have hchain' : twoSimple.shelf.Chain 2 [2] := .last (f := .simple .mixed 0) rfl rfl
  have hd : List.Disjoint [1, 0] [2] := by simp
  have ha : twoSimple.Permits 1 (.names 2) := by
    intro t giver lc index hgives hg
    have hmem := hchain.gives_mem hgives
    simp only [List.mem_cons, List.not_mem_nil, or_false] at hmem
    rcases hmem with rfl | rfl
    · cases hg
    · cases hg
      decide
  have ha' : twoSimple.Permits 2 (.newName 60) := trivial
  exact ⟨hreach, hchain, hchain', hd, ha, ha',
    independent_steps_commute hreach hname hname' hchain hchain' hd ha ha' World.nothing
      World.nothing⟩

end Session

end FreshNames
