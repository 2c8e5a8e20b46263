import FreshNames.Proofs.Shelves
import FreshNames.Session

/-!
# Sessions that can arise

* `Session.Reachable` - the sessions that steps of any kind lead to, in worlds that may change;
* `make_making` - what making something does to the names and to the shelf;
* `Session.Sound` - the invariant: bound names lead to factories, references point behind, and the
  caches are exact; `Reachable.sound` - every session that can arise has it;
* `simple_names_exact` - so the names of simple factories are the words of their alphabet.
-/

set_option autoImplicit false

namespace FreshNames

/-- The factory has not been used yet. -/
def Factory.IsFresh : Factory → Prop
  | dictionary _ index _ => index = 0
  | simple _ index => index = 0
  | numeric index => index = 0
  | prefixing .. => True
  | counting resets requests => resets = 0 ∧ requests = 0

/-- A world with nothing in it. -/
def World.nothing : World := .ofFiles ⟨[], []⟩

namespace Session

/-- The sessions that steps of any kind lead to.  Each step may find another world. -/
inductive Reachable : Session → Prop
  | initial (common : Shuffler) : Reachable (initial common)
  | step {s : Session} (w : World) (st : Step) (h : Reachable s) : Reachable (s.step w st).2

variable {s s' : Session} {w : World} {name : Text} {place : Nat}

theorem Reachable.run (w : World) (h : s.Reachable) (steps : List Step) :
    (s.run w steps).2.Reachable := by
  induction steps generalizing s with
  | nil => exact h
  | cons st rest ih => exact ih (h.step w st)

/-! ## Making things -/

/-- Some name is bound to the factory at the place. -/
def Binds (s : Session) (place : Nat) : Prop := ∃ x, s.bindings.lookup x = some (.factory place)

theorem lookup_of_handle {h : Handle} (hh : s.handle name = .ok h) :
    s.bindings.lookup name = some h := by
  unfold handle at hh
  split at hh
  · rename_i hl
    cases hh
    exact hl
  · cases hh

theorem binds_of_handle (h : s.handle name = .ok (.factory place)) : s.Binds place :=
  ⟨name, lookup_of_handle h⟩

theorem binds_of_factoryPlace (h : s.factoryPlace name = .ok place) : s.Binds place := by
  unfold factoryPlace at h
  split at h
  · cases h
  · rename_i hh
    cases h
    exact binds_of_handle hh
  · cases h

theorem binds_of_fallbackPlace {name? : Option Text} (h : s.fallbackPlace name? = .ok (some place)) :
    s.Binds place := by
  unfold fallbackPlace at h
  split at h
  · cases h
  · split at h
    · cases h
    · rename_i hp
      cases h
      exact binds_of_factoryPlace hp

/-- What making something may do to the names and to the shelf. -/
inductive Making (s : Session) (name : Text) (s' : Session) : Prop
  /-- Nothing. -/
  | nothing (hb : s'.bindings = s.bindings) (hs : s'.shelf = s.shelf)
  /-- Only the name is bound. -/
  | bound (h : Handle) (hb : s'.bindings = (name, h) :: s.bindings) (hs : s'.shelf = s.shelf)
      (hh : ∀ place, h = .factory place → s.Binds place)
  /-- The name is bound to a new factory. -/
  | factory (f : Factory) (hb : s'.bindings = (name, .factory s.shelf.size) :: s.bindings)
      (hs : s'.shelf = s.shelf.add f) (fresh : f.IsFresh)
      (refs : ∀ d, f.delegate? = some d → s.Binds d)

theorem putSource_frame (s : Session) (place? : Option Nat) (source : Source) :
    (s.putSource place? source).bindings = s.bindings ∧ (s.putSource place? source).shelf = s.shelf := by
  unfold putSource
  split <;> exact ⟨rfl, rfl⟩

theorem putShuffler_frame (s : Session) (l : Lot) (next : Shuffler) :
    (s.putShuffler l next).bindings = s.bindings ∧ (s.putShuffler l next).shelf = s.shelf := by
  cases l <;> exact ⟨rfl, rfl⟩

theorem keyed_frame (s : Session) (e : Extraction) :
    (s.keyed e).2.bindings = s.bindings ∧ (s.keyed e).2.shelf = s.shelf := by
  unfold keyed
  split <;> exact ⟨rfl, rfl⟩

theorem makeFromSource_making (w : World) (s : Session) (name : Text) (p : DictionaryPlan) (lot : Lot)
    {fallback : Option Nat} (hf : ∀ d, fallback = some d → s.Binds d) (place? : Option Nat)
    (source : Source) :
    s.Making name (s.makeFromSource w name p lot fallback place? source).session := by
  unfold makeFromSource
  dsimp only
  generalize construct w p.charset p.welcome (s.shuffler lot) fallback.isSome source = c
  have hsource := s.putSource_frame place? c.source
  generalize s.putSource place? c.source = s1 at hsource ⊢
  split
  · exact .nothing hsource.1 hsource.2
  · exact .nothing hsource.1 hsource.2
  · rename_i extraction d _
    have hlot := s1.putShuffler_frame lot extraction.shuffler
    have hkey := (s1.putShuffler lot extraction.shuffler).keyed_frame extraction
    generalize (s1.putShuffler lot extraction.shuffler).keyed extraction = keyed at hkey ⊢
    obtain ⟨letters, s2⟩ := keyed
    have hb := hkey.1.trans (hlot.1.trans hsource.1)
    have hs := hkey.2.trans (hlot.2.trans hsource.2)
    refine .factory (.dictionary letters 0 d) ?_ ?_ rfl ?_
    · exact congrArg₂ (fun n b => (name, Handle.factory n) :: b) (congrArg Shelf.size hs) hb
    · exact congrArg (Shelf.add · (.dictionary letters 0 d)) hs
    · intro d' hd'
      cases hd'
      exact hf d rfl

theorem makeDictionary_making (w : World) (s : Session) (name : Text) (p : DictionaryPlan) :
    s.Making name (s.makeDictionary w name p).session := by
  rw [makeDictionary]
  split
  · exact .nothing rfl rfl
  · split
    · exact .nothing rfl rfl
    · rename_i fallback hfallback
      have hf : ∀ d, fallback = some d → s.Binds d := by
        intro d hd
        subst hd
        exact binds_of_fallbackPlace hfallback
      split
      · exact .nothing rfl rfl
      · split
        · exact makeFromSource_making w s name p _ hf _ _
        · exact makeFromSource_making w s name p _ hf _ _
        · split
          · exact .nothing rfl rfl
          · rename_i d
            refine .factory (.dictionary _ 0 d) rfl rfl rfl ?_
            intro d' hd'
            cases hd'
            exact hf d rfl

/-- **Making something binds one name at most and puts at most one new factory on the shelf, whose
    references are bound already.** -/
theorem make_making (w : World) (s : Session) (name : Text) (p : Plan) :
    s.Making name (s.make w name p).session := by
  cases p with
  | dictionary p => exact makeDictionary_making w s name p
  | simple lc => exact .factory (.simple lc 0) rfl rfl rfl nofun
  | numeric => exact .factory (.numeric 0) rfl rfl rfl nofun
  | counting => exact .factory (.counting 0 0) rfl rfl ⟨rfl, rfl⟩ nofun
  | prefixing inner pre =>
    rw [make]
    split
    · exact .nothing rfl rfl
    · rename_i d hd
      refine .factory (.prefixing d pre) rfl rfl trivial ?_
      intro d' hd'
      cases hd'
      exact binds_of_factoryPlace hd
  | «alias» other =>
    rw [make]
    split
    · exact .nothing rfl rfl
    · rename_i h hh
      refine .bound h rfl rfl ?_
      rintro place rfl
      exact binds_of_handle hh
  | stream stream => exact .bound (.stream s.streams.length) rfl rfl nofun
  | shuffler r =>
    cases r with
    | common => exact .bound .commonShuffler rfl rfl nofun
    | own shuffler => exact .bound (.shuffler s.shufflers.length) rfl rfl nofun
    | bound other =>
      rw [make, bindShuffler]
      split
      · exact .nothing rfl rfl
      · rename_i h hh
        refine .bound h rfl rfl ?_
        rintro place rfl
        exact binds_of_handle hh

/-! ## The invariant -/

/-- Bound names lead to factories on the shelf, references point behind, and the caches are exact. -/
structure Sound (s : Session) : Prop where
  bound : ∀ place, s.Binds place → place < s.shelf.size
  grounded : s.shelf.Grounded
  exact : s.shelf.caches.AreExact

theorem sound_initial (common : Shuffler) : (initial common).Sound := by
  refine ⟨?_, Shelf.grounded_empty, NameCaches.areExact_empty⟩
  rintro place ⟨x, hx⟩
  cases hx

/-- A step that only changes the shelf keeps the invariant if the shelf keeps its part of it. -/
theorem Sound.of_shelf (h : s.Sound) (hb : s'.bindings = s.bindings)
    (hsize : s'.shelf.size = s.shelf.size) (hg : s'.shelf.Grounded) (hc : s'.shelf.caches.AreExact) :
    s'.Sound := by
  refine ⟨?_, hg, hc⟩
  rintro place ⟨x, hx⟩
  rw [hb] at hx
  rw [hsize]
  exact h.bound place ⟨x, hx⟩

/-- A step that changes factories one by one, and no reference, keeps the invariant. -/
theorem Sound.of_pointwise {R : Factory → Factory → Prop} (h : s.Sound)
    (hb : s'.bindings = s.bindings) (hp : s.shelf.Pointwise R s'.shelf)
    (hR : ∀ {f g}, R f g → g.delegate? = f.delegate?) (hc : s'.shelf.caches.AreExact) : s'.Sound :=
  h.of_shelf hb hp.size_eq (h.grounded.pointwise hp hR) hc

theorem Sound.making (h : s.Sound) (hm : s.Making name s') : s'.Sound := by
  cases hm with
  | nothing hb hs =>
    refine h.of_shelf hb (by rw [hs]) ?_ ?_
    · rw [hs]
      exact h.grounded
    · rw [hs]
      exact h.exact
  | bound b hb hs hh =>
    refine ⟨?_, by rw [hs]; exact h.grounded, by rw [hs]; exact h.exact⟩
    rintro place ⟨x, hx⟩
    rw [hs]
    rw [hb, List.lookup_cons] at hx
    split at hx
    · cases hx
      exact h.bound place (hh place rfl)
    · exact h.bound place ⟨x, hx⟩
  | factory f hb hs fresh refs =>
    refine ⟨?_, ?_, by rw [hs]; exact h.exact⟩
    · rintro place ⟨x, hx⟩
      rw [hs, Shelf.size_add]
      rw [hb, List.lookup_cons] at hx
      split at hx
      · cases hx
        exact Nat.lt_succ_self _
      · exact Nat.lt_succ_of_lt (h.bound place ⟨x, hx⟩)
    · rw [hs]
      exact h.grounded.add fun d hd => h.bound d (refs d hd)

/-! ## Actions -/

theorem act_cases (s : Session) (name : Text) (a : Action) :
    (s.act name a).session = s ∨
      ∃ place, s.handle name = .ok (.factory place) ∧
        s.act name a = s.actOnFactory name place a := by
  unfold act
  split
  · exact .inl rfl
  · rename_i place hh
    exact .inr ⟨place, hh, rfl⟩
  · left
    split <;> rfl

theorem actOnFactory_next (s : Session) (name : Text) (place : Nat) :
    s.actOnFactory name place .next =
      quiet
        (match (s.shelf.next place).1 with
          | .error e => .error (.name e)
          | .ok t => .ok (.name t))
        { s with shelf := (s.shelf.next place).2 } := by
  simp only [actOnFactory]
  rcases s.shelf.next place with ⟨_ | _, shelf⟩ <;> rfl

theorem actOnFactory_names (s : Session) (name : Text) (place : Nat) (count : Int) :
    s.actOnFactory name place (.names count) =
      quiet
        (match (s.shelf.names place count.toNat).1 with
          | .error e => .error (.name e)
          | .ok ts => .ok (.names ts))
        { s with shelf := (s.shelf.names place count.toNat).2 } := by
  simp only [actOnFactory]
  rcases s.shelf.names place count.toNat with ⟨_ | _, shelf⟩ <;> rfl

theorem sound_askCache (h : s.Sound)
    {ask : NameCaches → LetterCase → Except NameProblem (Text × NameCaches)}
    (hask : ∀ {lc t caches}, ask s.shelf.caches lc = .ok (t, caches) → caches.AreExact) :
    (s.askCache name place ask).session.Sound := by
  unfold askCache
  split
  · split
    · exact h
    · rename_i heq
      exact h.of_shelf rfl rfl h.grounded (hask heq)
  · exact h

theorem askCache_factories (s : Session) (name : Text) (place : Nat)
    (ask : NameCaches → LetterCase → Except NameProblem (Text × NameCaches)) :
    (s.askCache name place ask).session.shelf.factories = s.shelf.factories := by
  unfold askCache
  split
  · split <;> rfl
  · rfl

theorem sound_actOnFactory (h : s.Sound) (name : Text) (place : Nat) (a : Action) :
    (s.actOnFactory name place a).session.Sound := by
  cases a with
  | next =>
    rw [actOnFactory_next]
    exact h.of_pointwise rfl (s.shelf.next_onward place) Factory.Onward.delegate?_eq
      (Shelf.next_areExact h.exact place)
  | names count =>
    rw [actOnFactory_names]
    exact h.of_pointwise rfl (s.shelf.names_onward place count.toNat) Factory.Onward.delegate?_eq
      (Shelf.names_areExact h.exact place count.toNat)
  | reset =>
    refine h.of_pointwise rfl (s.shelf.reset_pointwise place) ?_ h.exact
    rintro f g (rfl | rfl)
    · rfl
    · exact f.delegate?_rewound
  | name index => exact sound_askCache h fun heq => h.exact.nameAt heq
  | newName index => exact sound_askCache h fun heq => h.exact.newNameAt heq
  | setIndex index =>
    refine h.of_pointwise rfl (s.shelf.modify_pointwise place (.withIndex index)) ?_ h.exact
    rintro f g (rfl | rfl)
    · rfl
    · exact f.delegate?_withIndex index
  | setAlphabet v =>
    simp only [actOnFactory]
    split
    · exact h
    · rename_i letters _
      refine h.of_pointwise rfl
        (s.shelf.modify_pointwise place (.withLetters ⟨letters, s.nextKey⟩)) ?_ h.exact
      rintro f g (rfl | rfl)
      · rfl
      · exact f.delegate?_withLetters _
  | look => exact h
  | shares other =>
    simp only [actOnFactory]
    split <;> exact h

/-! ## Reachable sessions are sound -/

theorem Sound.step (h : s.Sound) (w : World) (st : Step) : (s.step w st).2.Sound := by
  cases st with
  | make name p => exact h.making (make_making w s name p)
  | act name a =>
    show (s.act name a).session.Sound
    rcases s.act_cases name a with heq | ⟨place, -, heq⟩
    · rw [heq]
      exact h
    · rw [heq]
      exact sound_actOnFactory h name place a
  | setUpLogging level =>
    simp only [Session.step, perform]
    split
    · exact h
    · exact h.of_shelf rfl rfl h.grounded h.exact

theorem Reachable.sound (h : s.Reachable) : s.Sound := by
  induction h with
  | initial common => exact sound_initial common
  | step w st _ ih => exact ih.step w st

/-! ## Names of simple factories -/

theorem askCache_result {lc : LetterCase} {index : Int}
    {ask : NameCaches → LetterCase → Except NameProblem (Text × NameCaches)} {t : Text}
    {caches : NameCaches} (hf : s.shelf.get? place = some (.simple lc index))
    (hask : ask s.shelf.caches lc = .ok (t, caches)) :
    (s.askCache name place ask).result = .ok (.name t) := by
  simp only [askCache, hf, hask]
  rfl

theorem act_of_handle (h : s.handle name = .ok (.factory place)) (a : Action) :
    s.act name a = s.actOnFactory name place a := by
  simp only [act, h]

/-- **Whatever has happened before, the caches hold the words of the two alphabets, and simple
    factories answer with these words, the other way round.** -/
theorem simple_names_exact (h : s.Reachable) (lc : LetterCase) :
    (∀ (k : Nat) (hk : k < (s.shelf.caches.get lc).size),
        lc.alphabet.encode k = .ok (s.shelf.caches.get lc)[k].reverse) ∧
      ∀ (w : World) (x : Text) (place : Nat) (index : Int), s.handle x = .ok (.factory place) →
        s.shelf.get? place = some (.simple lc index) → ∀ i : Int, 0 ≤ i →
          ∃ t, lc.alphabet.encode i = .ok t ∧
            (s.step w (.act x (.name i))).1.result = .ok (.name t.reverse) ∧
            (s.step w (.act x (.newName i))).1.result = .ok (.name t.reverse) := by
  have hexact := h.sound.exact
  constructor
  · intro k hk
    rw [hexact lc k hk, List.reverse_reverse, Alphabet.encode_natCast]
  · intro w x place index hx hf i hi
    obtain ⟨n, rfl⟩ := Int.eq_ofNat_of_zero_le hi
    obtain ⟨hname, -⟩ := NameCache.name_exact (hexact lc) n
    obtain ⟨hnew, -⟩ := NameCache.newName_exact (hexact lc) n
    refine ⟨lc.alphabet.word n, lc.alphabet.encode_natCast n, ?_, ?_⟩
    · show (s.act x (.name n)).result = _
      rw [act_of_handle hx, ← hname]
      exact askCache_result hf (s.shelf.caches.nameAt_natCast lc n)
    · show (s.act x (.newName n)).result = _
      rw [act_of_handle hx, ← hnew]
      exact askCache_result hf (s.shelf.caches.newNameAt_natCast lc n)

/-- A simple factory that was also used through a prefixing one, and asked for places that it did not
    have. -/
def sharedCache : Session :=
  ((initial .inOrder).run World.nothing [
    .make ['m'] (.simple .mixed), .make ['p'] (.prefixing ['m'] ['_']), .act ['m'] (.name (-1)),
    .act ['m'] (.newName (-3)), .act ['p'] (.names 3), .act ['m'] (.setIndex 70),
    .act ['p'] .next]).2

theorem simple_names_exact_sharedCache :
    sharedCache.Reachable ∧
      sharedCache.handle ['m'] = .ok (.factory 0) ∧
      sharedCache.shelf.get? 0 = some (.simple .mixed 71) ∧
      ∃ t, LetterCase.mixed.alphabet.encode 2756 = .ok t ∧
        (sharedCache.step World.nothing (.act ['m'] (.name 2756))).1.result = .ok (.name t.reverse) ∧
        (sharedCache.step World.nothing (.act ['m'] (.newName 2756))).1.result =
          .ok (.name t.reverse) :=
  have hreach : sharedCache.Reachable := (Reachable.initial .inOrder).run World.nothing _
  ⟨hreach, rfl, rfl,
    (simple_names_exact hreach .mixed).2 World.nothing ['m'] 0 71 rfl rfl 2756 (by decide)⟩

end Session

end FreshNames
