import FreshNames.Proofs.Reachable

/-!
# Chains of delegates

A dictionary factory delegates to its fallback and a prefixing factory to the one that it wraps.
Following these references gives the chain of a factory.  A reset goes along all of it.  A request
for a name only goes through the prefixing factories at its front, and stops at the first other
factory, so that no fallback is ever asked for a name.

* `Shelf.Chain` - the chain of a place; on a grounded shelf every place has one and only one, and no
  factory occurs in it twice (`exists_chain`, `Chain.unique`, `Chain.nodup`);
* `Factory.SentBack`, `Factory.Counted` - what a reset and a name do to a single factory;
* `Shelf.SendsBack` - what a reset does to a shelf (`reset_sendsBack`);
* `Shelf.HandsOut` - where a name comes from, and what it does to a shelf (`next_handsOut`);
* `Session.delegation_exact` - both, for every factory of every session that can arise.
-/

set_option autoImplicit false

namespace FreshNames

/-! ## Single factories -/

namespace Factory

/-- A factory, and the same one at its beginning: an index is zero, or one more reset is counted. -/
inductive SentBack : Factory → Factory → Prop
  | dictionary {letters : SharedAlphabet} {index : Int} {fallback : Nat} :
      SentBack (dictionary letters index fallback) (dictionary letters 0 fallback)
  | simple {lc : LetterCase} {index : Int} : SentBack (simple lc index) (simple lc 0)
  | numeric {index : Int} : SentBack (numeric index) (numeric 0)
  | prefixing {inner : Nat} {pre : Text} : SentBack (prefixing inner pre) (prefixing inner pre)
  | counting {resets requests : Nat} :
      SentBack (counting resets requests) (counting (resets + 1) requests)

/-- A factory with names of its own, and the same one behind the next name: an index is one higher,
    or one more request is counted. -/
inductive Counted : Factory → Factory → Prop
  | dictionary {letters : SharedAlphabet} {index : Int} {fallback : Nat} :
      Counted (dictionary letters index fallback) (dictionary letters (index + 1) fallback)
  | simple {lc : LetterCase} {index : Int} : Counted (simple lc index) (simple lc (index + 1))
  | numeric {index : Int} : Counted (numeric index) (numeric (index + 1))
  | counting {resets requests : Nat} :
      Counted (counting resets requests) (counting resets (requests + 1))

variable {fs : List Factory} {f : Factory} {place : Nat} {caches : NameCaches}

theorem sentBack_rewound (f : Factory) : f.SentBack f.rewound := by
  cases f with
  | dictionary letters index fallback => exact .dictionary
  | simple lc index => exact .simple
  | numeric index => exact .numeric
  | prefixing inner pre => exact .prefixing
  | counting resets requests => exact .counting

theorem draw_counted (hg : f.isGiver = true) {t : Text} (h : (f.draw caches).1 = .ok t) :
    f.Counted (f.draw caches).2.1 := by
  cases f with
  | dictionary letters index fallback =>
    rw [draw] at h ⊢
    split at h
    · cases h
    · exact .dictionary
  | simple lc index =>
    rw [draw] at h ⊢
    split at h
    · cases h
    · exact .simple
  | numeric index => exact .numeric
  | prefixing inner pre => cases hg
  | counting resets requests => exact .counting

/-- Only a simple factory touches the caches, and only that of its letter case. -/
theorem draw_caches_get (f : Factory) {lc : LetterCase} (h : ∀ index, f ≠ simple lc index) :
    (f.draw caches).2.2.get lc = caches.get lc := by
  cases f with
  | dictionary letters index fallback =>
    rw [draw]
    split <;> rfl
  | simple lc' index =>
    have hne : lc ≠ lc' := by
      rintro rfl
      exact h index rfl
    rw [draw]
    split
    · rfl
    · rename_i t caches' heq
      simp only [NameCaches.nameAt] at heq
      split at heq
      · cases heq
      · cases heq
        show (caches.set lc' _).get lc = caches.get lc
        rw [NameCaches.get_set, if_neg hne]
  | numeric index => rfl
  | prefixing inner pre => rfl
  | counting resets requests => rfl

/-! ## A reset, by references -/

theorem resetAt_of_last (hf : at? fs place = some f) (hd : f.delegate? = none) :
    resetAt fs place = (f.resetRecords, modifyAt rewound fs place) := by
  induction fs with
  | nil => cases hf
  | cons g older ih =>
    by_cases he : place = older.length
    · rw [at?, if_pos he] at hf
      cases hf
      simp only [resetAt, modifyAt, if_pos he, hd]
    · rw [at?, if_neg he] at hf
      simp only [resetAt, modifyAt, if_neg he, ih hf]

theorem resetAt_of_delegate {d : Nat} (hf : at? fs place = some f) (hd : f.delegate? = some d)
    (hlt : d < place) :
    resetAt fs place =
      (f.resetRecords ++ (resetAt fs d).1, modifyAt rewound (resetAt fs d).2 place) := by
  induction fs with
  | nil => cases hf
  | cons g older ih =>
    have hplace := lt_of_at? hf
    rw [List.length_cons] at hplace
    have hne : ¬ d = older.length := by omega
    by_cases he : place = older.length
    · rw [at?, if_pos he] at hf
      cases hf
      simp only [resetAt, modifyAt, if_pos he, hd, if_neg hne, length_resetAt]
    · rw [at?, if_neg he] at hf
      simp only [resetAt, modifyAt, if_neg he, if_neg hne, length_resetAt, ih hf]

end Factory

/-! ## Chains -/

namespace Shelf

variable {s s' : Shelf} {place q : Nat} {ps : List Nat} {f g : Factory}

/-- A place, the place that its factory delegates to, and so on to the end. -/
inductive Chain (s : Shelf) : Nat → List Nat → Prop
  | last {place : Nat} {f : Factory} (hf : s.get? place = some f) (hd : f.delegate? = none) :
      Chain s place [place]
  | link {place d : Nat} {f : Factory} {ps : List Nat} (hf : s.get? place = some f)
      (hd : f.delegate? = some d) (h : Chain s d ps) : Chain s place (place :: ps)

theorem Grounded.exists_chain (h : s.Grounded) (hp : place < s.size) : ∃ ps, s.Chain place ps := by
  induction place using Nat.strongRecOn with
  | _ place ih =>
    obtain ⟨f, hf⟩ := exists_get? hp
    cases hd : f.delegate? with
    | none => exact ⟨[place], .last hf hd⟩
    | some d =>
      have hlt := h place f hf d hd
      obtain ⟨ps, hps⟩ := ih d hlt (by omega)
      exact ⟨place :: ps, .link hf hd hps⟩

theorem Chain.exists_get? (h : s.Chain place ps) (hq : q ∈ ps) : ∃ f, s.get? q = some f := by
  induction h with
  | last hf _ =>
    rw [List.mem_singleton.1 hq]
    exact ⟨_, hf⟩
  | link hf _ _ ih =>
    rcases List.mem_cons.1 hq with rfl | hq
    · exact ⟨_, hf⟩
    · exact ih hq

theorem Chain.mem_head (h : s.Chain place ps) : place ∈ ps := by
  cases h with
  | last => exact List.mem_cons_self
  | link => exact List.mem_cons_self

theorem Chain.le (hgr : s.Grounded) (h : s.Chain place ps) (hq : q ∈ ps) : q ≤ place := by
  induction h with
  | last => rw [List.mem_singleton.1 hq]
  | link hf hd _ ih =>
    rcases List.mem_cons.1 hq with rfl | hq
    · exact Nat.le_refl _
    · have hlt := hgr _ _ hf _ hd
      have hle := ih hq
      omega

theorem Chain.nodup (hgr : s.Grounded) (h : s.Chain place ps) : ps.Nodup := by
  induction h with
  | last => exact List.nodup_singleton _
  | link hf hd h ih =>
    refine List.nodup_cons.2 ⟨fun hmem => ?_, ih⟩
    have hlt := hgr _ _ hf _ hd
    have hle := h.le hgr hmem
    omega

theorem Chain.unique {ps' : List Nat} (h : s.Chain place ps) (h' : s.Chain place ps') :
    ps' = ps := by
  induction h generalizing ps' with
  | last hf hd =>
    cases h' with
    | last => rfl
    | link hf' hd' _ =>
      rw [hf] at hf'
      cases hf'
      rw [hd] at hd'
      cases hd'
  | link hf hd _ ih =>
    cases h' with
    | last hf' hd' =>
      rw [hf] at hf'
      cases hf'
      rw [hd] at hd'
      cases hd'
    | link hf' hd' h' =>
      rw [hf] at hf'
      cases hf'
      rw [hd] at hd'
      cases hd'
      rw [ih h']

/-- The chain begins with prefixing factories, and the first other one gives the names. -/
theorem Chain.exists_gives (h : s.Chain place ps) :
    ∃ before giver after pres g, ps = before ++ giver :: after ∧
      List.Forall₂ (fun q pre => ∃ inner, s.get? q = some (.prefixing inner pre)) before pres ∧
      s.get? giver = some g ∧ g.isGiver = true ∧ s.Gives place pres.flatten giver := by
  induction h with
  | @last place f hf hd =>
    have hg : f.isGiver = true := by
      cases f with
      | prefixing inner pre => cases hd
      | _ => rfl
    exact ⟨[], place, [], [], f, rfl, .nil, hf, hg, .own hf hg⟩
  | @link place d f ps hf hd _ ih =>
    cases hg : f.isGiver with
    | true => exact ⟨[], place, ps, [], f, rfl, .nil, hf, hg, .own hf hg⟩
    | false =>
      obtain ⟨inner, pre, rfl⟩ := Factory.eq_prefixing_of_not_isGiver hg
      cases hd
      obtain ⟨before, giver, after, pres, g, rfl, hbefore, hgiver, hisGiver, hgives⟩ := ih
      exact ⟨place :: before, giver, after, pre :: pres, g, rfl, .cons ⟨d, hf⟩ hbefore, hgiver,
        hisGiver, .through hf hgives⟩

/-! ## Resetting a chain -/

theorem reset_of_last (hf : s.get? place = some f) (hd : f.delegate? = none) :
    s.reset place = (f.resetRecords, s.modify place Factory.rewound) := by
  rw [reset, Factory.resetAt_of_last hf hd]
  rfl

theorem reset_of_delegate {d : Nat} (hf : s.get? place = some f) (hd : f.delegate? = some d)
    (hlt : d < place) :
    s.reset place = (f.resetRecords ++ (s.reset d).1, (s.reset d).2.modify place Factory.rewound) := by
  rw [reset, Factory.resetAt_of_delegate hf hd hlt]
  rfl

/-- A reset changes each factory of the chain once, and no other. -/
theorem get?_reset (hgr : s.Grounded) (h : s.Chain place ps) (q : Nat) :
    (s.reset place).2.get? q = if q ∈ ps then (s.get? q).map Factory.rewound else s.get? q := by
  induction h with
  | last hf hd => simp only [reset_of_last hf hd, get?_modify, List.mem_singleton]
  | @link place d f ps hf hd h ih =>
    have hlt := hgr place f hf d hd
    rw [reset_of_delegate hf hd hlt, get?_modify, ih]
    by_cases he : q = place
    · -- the place itself is not on the chain behind it, which has only older places
      have hnot : q ∉ ps := by
        intro hmem
        have hle := h.le hgr hmem
        omega
      rw [if_pos he, if_neg hnot, if_pos (List.mem_cons.2 (.inl he))]
    · rw [if_neg he]
      simp only [List.mem_cons, he, false_or]

/-- A reset along a chain: each factory on it is sent back, and nothing else changes. -/
structure SendsBack (s : Shelf) (chain : List Nat) (s' : Shelf) : Prop where
  size_eq : s'.size = s.size
  caches_eq : s'.caches = s.caches
  onChain : ∀ q ∈ chain, ∃ f f', s.get? q = some f ∧ s'.get? q = some f' ∧ f.SentBack f'
  elsewhere : ∀ q, q ∉ chain → s'.get? q = s.get? q

theorem reset_sendsBack (hgr : s.Grounded) (h : s.Chain place ps) :
    s.SendsBack ps (s.reset place).2 := by
  refine ⟨s.size_reset place, rfl, fun q hq => ?_, fun q hq => ?_⟩
  · obtain ⟨f, hf⟩ := h.exists_get? hq
    refine ⟨f, f.rewound, hf, ?_, f.sentBack_rewound⟩
    rw [get?_reset hgr h, if_pos hq, hf, Option.map_some]
  · rw [get?_reset hgr h, if_neg hq]

/-! ## Asking a chain for a name -/

/-- A name from a chain: the prefixes of the factories at its front, the outermost first, and then
    what the first other factory answers when it is asked itself.  That factory counts on; but for it
    and, if it is a simple one, its cache, nothing changes. -/
structure HandsOut (s : Shelf) (chain : List Nat) (giver : Nat) (name : Text) (s' : Shelf) :
    Prop where
  front : ∃ before after pres own, chain = before ++ giver :: after ∧
    List.Forall₂ (fun q pre => ∃ inner, s.get? q = some (.prefixing inner pre)) before pres ∧
    name = pres.flatten ++ own ∧ (s.next giver).1 = .ok own
  counted : ∃ g g', s.get? giver = some g ∧ s'.get? giver = some g' ∧ g.Counted g'
  size_eq : s'.size = s.size
  elsewhere : ∀ q, q ≠ giver → s'.get? q = s.get? q
  caches_eq : ∀ lc, (∀ index, s.get? giver ≠ some (.simple lc index)) →
    s'.caches.get lc = s.caches.get lc

theorem next_handsOut (hgr : s.Grounded) (h : s.Chain place ps) {name : Text}
    (hname : (s.next place).1 = .ok name) :
    ∃ giver, s.HandsOut ps giver name (s.next place).2 := by
  obtain ⟨before, giver, after, pres, g, hps, hbefore, hg, hisGiver, hgives⟩ := h.exists_gives
  have hown : (s.next giver).1 = (g.draw s.caches).1 := by
    rw [next_eq hgr (.own hg hisGiver) hg]
    cases (g.draw s.caches).1 <;> rfl
  have hsize := s.size_next place
  rw [next_eq hgr hgives hg] at hname hsize ⊢
  cases hdraw : (g.draw s.caches).1 with
  | error e =>
    rw [hdraw] at hname
    cases hname
  | ok own =>
    rw [hdraw] at hname
    cases hname
    have hget (q : Nat) : (s.modify giver fun f => (f.draw s.caches).2.1).get? q =
        if q = giver then (s.get? q).map fun f => (f.draw s.caches).2.1 else s.get? q :=
      get?_modify ..
    refine ⟨giver, ?_, ?_, hsize, ?_, ?_⟩
    · exact ⟨before, after, pres, own, hps, hbefore, rfl, hown.trans hdraw⟩
    · refine ⟨g, (g.draw s.caches).2.1, hg, ?_, Factory.draw_counted hisGiver hdraw⟩
      exact (hget giver).trans (by rw [if_pos rfl, hg, Option.map_some])
    · intro q hq
      exact (hget q).trans (if_neg hq)
    · intro lc hlc
      refine g.draw_caches_get fun index he => hlc index ?_
      rw [hg, he]

end Shelf

/-! ## Sessions -/

namespace Session

variable {s : Session} {name : Text} {place : Nat}

/-- **Delegation is exact.**  Every factory has a chain without repetitions.  Resetting it sends back
    just the factories of its chain; a name that it hands out comes from the first factory on the
    chain that does not prefix, and only that factory, and the cache it may have, move on. -/
theorem delegation_exact (h : s.Reachable) (hname : s.handle name = .ok (.factory place))
    (w : World) :
    ∃ chain, s.shelf.Chain place chain ∧ chain.Nodup ∧
      ((s.step w (.act name .reset)).1.result = .ok .done ∧
        ∃ shelf, (s.step w (.act name .reset)).2 = { s with shelf } ∧
          s.shelf.SendsBack chain shelf) ∧
      ∀ t, (s.step w (.act name .next)).1.result = .ok (.name t) →
        ∃ giver shelf, (s.step w (.act name .next)).2 = { s with shelf } ∧
          s.shelf.HandsOut chain giver t shelf := by
  have hgr := h.sound.grounded
  obtain ⟨chain, hchain⟩ := hgr.exists_chain (h.sound.bound place (binds_of_handle hname))
  refine ⟨chain, hchain, hchain.nodup hgr, ?_, fun t ht => ?_⟩
  · have hact : s.act name .reset = s.actOnFactory name place .reset := act_of_handle hname _
    simp only [step, perform, hact]
    exact ⟨rfl, (s.shelf.reset place).2, rfl, s.shelf.reset_sendsBack hgr hchain⟩
  · have hact : s.act name .next = _ :=
      (act_of_handle hname .next).trans (s.actOnFactory_next name place)
    simp only [step, perform, hact, quiet] at ht ⊢
    cases hn : (s.shelf.next place).1 with
    | error e =>
      rw [hn] at ht
      cases ht
    | ok u =>
      rw [hn] at ht
      cases ht
      obtain ⟨giver, hgiver⟩ := Shelf.next_handsOut hgr hchain hn
      exact ⟨giver, (s.shelf.next place).2, rfl, hgiver⟩

/-- A counting factory, a dictionary one that falls back on it, and two prefixing ones on top. -/
def nested : Session :=
  ((initial .inOrder).run World.nothing [
    .make ['c'] .counting,
    .make ['d'] (.dictionary
      ⟨.given (.stream ⟨.text ['z'] none, false⟩), some ['c'], .anything, .common,
        "utf-8".toList⟩),
    .make ['p'] (.prefixing ['d'] ['_']), .make ['q'] (.prefixing ['p'] ['x']),
    .act ['q'] (.names 2)]).2

theorem handle_nested : nested.handle ['q'] = .ok (.factory 3) := by
  have hlookup : nested.bindings.lookup ['q'] = some (.factory 3) := by decide +kernel
  rw [handle, hlookup]

theorem next_nested : (nested.step World.nothing (.act ['q'] .next)).1.result =
    .ok (.name ['x', '_', 'z', 'z', 'z']) := by
  have hnext : (nested.shelf.next 3).1 = .ok ['x', '_', 'z', 'z', 'z'] := by decide +kernel
  show (nested.act ['q'] .next).result = _
  rw [act_of_handle handle_nested, actOnFactory_next, hnext]
  rfl

theorem delegation_exact_nested :
    nested.Reachable ∧ nested.handle ['q'] = .ok (.factory 3) ∧
      ∃ chain, nested.shelf.Chain 3 chain ∧ chain.Nodup ∧
        (∃ shelf, (nested.step World.nothing (.act ['q'] .reset)).2 = { nested with shelf } ∧
          nested.shelf.SendsBack chain shelf) ∧
        ∃ giver shelf, (nested.step World.nothing (.act ['q'] .next)).2 = { nested with shelf } ∧
          nested.shelf.HandsOut chain giver ['x', '_', 'z', 'z', 'z'] shelf := by
  have hreach : nested.Reachable := (Reachable.initial .inOrder).run World.nothing _
  obtain ⟨chain, hchain, hnodup, ⟨-, hreset⟩, hnext⟩ :=
    delegation_exact hreach handle_nested World.nothing
  exact ⟨hreach, handle_nested, chain, hchain, hnodup, hreset, hnext _ next_nested⟩

end Session

end FreshNames
