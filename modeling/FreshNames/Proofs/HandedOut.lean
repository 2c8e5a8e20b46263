import FreshNames.Proofs.Reachable
import Std.Data.String.ToInt

/-!
# No name twice

Until it is sent back, a factory counts up, and it has another name for every number.  So whatever it
hands out during a run differs from all it has handed out before, no matter who else draws from the
factory behind it.

* `Factory.nameFor` - the name that a factory has for a number; `nameFor_injective`;
* `Factory.Drawn` - names that a factory has for numbers that go up, between two bounds;
* `next_drawn`, `names_drawn` - what a shelf hands out is drawn between the counts before and after;
* `Session.handedOut` - the names that a factory gives in answer to the steps of a run;
* `names_of_asks` - a step that asks a factory draws names from it, and gives all of them or none;
* `handedOut_nodup` - these are pairwise distinct.
-/

set_option autoImplicit false

namespace FreshNames

namespace Factory

variable {f g : Factory} {caches : NameCaches}

/-! ## Names for numbers -/

/-- The number of the next name. -/
def count : Factory → Int
  | dictionary _ index _ => index
  | simple _ index => index
  | numeric index => index
  | prefixing .. => 0
  | counting _ requests => requests

/-- The name that the factory has for a number. -/
def nameFor : Factory → Int → Text
  | dictionary letters _ _, i => letters.alphabet.word i.toNat
  | simple lc _, i => (lc.alphabet.word i.toNat).reverse
  | numeric _, i => (toString (i + 1)).toList
  | prefixing .., _ => []
  | counting .., i => s!"fallback{i.toNat + 1}".toList

/-- Can the factory have a name for the number? -/
def Allows : Factory → Int → Prop
  | numeric _, _ => True
  | _, i => 0 ≤ i

/-- The index of a simple factory is not negative: names would be counted from the end of the cache
    otherwise. -/
def InRange : Factory → Prop
  | simple _ index => 0 ≤ index
  | _ => True

theorem toList_append_injective {t u v : String} (h : (t ++ u).toList = (t ++ v).toList) : u = v := by
  rw [String.toList_append, String.toList_append] at h
  exact String.toList_inj.1 (List.append_cancel_left h)

/-- **Different numbers have different names.** -/
theorem nameFor_injective (hg : f.isGiver = true) {i j : Int} (hi : f.Allows i) (hj : f.Allows j)
    (h : f.nameFor i = f.nameFor j) : i = j := by
  cases f with
  | dictionary letters index fallback =>
    have hword := letters.alphabet.word_injective h
    simp only [Allows] at hi hj
    omega
  | simple lc index =>
    have hword := lc.alphabet.word_injective (List.reverse_injective h)
    simp only [Allows] at hi hj
    omega
  | numeric index =>
    have hrepr : Int.repr (i + 1) = Int.repr (j + 1) := String.toList_inj.1 h
    have := Int.repr_injective hrepr
    omega
  | prefixing inner pre => cases hg
  | counting resets requests =>
    have hrepr : Nat.repr (i.toNat + 1) = Nat.repr (j.toNat + 1) := toList_append_injective h
    have := Nat.repr_injective hrepr
    simp only [Allows] at hi hj
    omega

theorem Onward.nameFor_eq (h : f.Onward g) : g.nameFor = f.nameFor := by
  cases h <;> rfl

theorem Onward.allows_eq (h : f.Onward g) : g.Allows = f.Allows := by
  cases h <;> rfl

theorem Onward.count_le (h : f.Onward g) : f.count ≤ g.count := by
  cases h with
  | prefixing => exact Int.le_refl _
  | counting h => exact Int.ofNat_le.2 h
  | _ h => exact h

theorem Onward.inRange (h : f.Onward g) (hf : f.InRange) : g.InRange := by
  cases h with
  | simple h => exact Int.le_trans hf h
  | _ => trivial

theorem IsFresh.inRange (h : f.IsFresh) : f.InRange := by
  cases f with
  | simple lc index =>
    cases h
    exact Int.le_refl 0
  | _ => trivial

/-- A name that is drawn is the one for the present number, and the number goes up by one. -/
theorem draw_ok (hc : caches.AreExact) (hg : f.isGiver = true) (hr : f.InRange) {t : Text}
    (h : (f.draw caches).1 = .ok t) :
    f.Allows f.count ∧ t = f.nameFor f.count ∧ (f.draw caches).2.1.count = f.count + 1 := by
  cases f with
  | dictionary letters index fallback =>
    cases index with
    | ofNat n =>
      cases h
      exact ⟨Int.natCast_nonneg n, rfl, rfl⟩
    | negSucc n => cases h
  | simple lc index =>
    obtain ⟨n, rfl⟩ := Int.eq_ofNat_of_zero_le hr
    have hname := (NameCache.name_exact (hc lc) n).1
    cases h
    exact ⟨hr, hname, rfl⟩
  | numeric index =>
    simp only [draw, numberName] at h
    split at h
    · cases h
      exact ⟨trivial, rfl, rfl⟩
    · cases h
  | prefixing inner pre => cases hg
  | counting resets requests =>
    cases h
    exact ⟨Int.natCast_nonneg requests, rfl, rfl⟩

/-! ## Drawn names -/

/-- Names for numbers that go up, from `lo` on and below `hi`, behind a prefix. -/
def Drawn (g : Factory) (t : Text) (lo hi : Int) (ts : List Text) : Prop :=
  ∃ is : List Int, ts = is.map (fun i => t ++ g.nameFor i) ∧ is.Pairwise (· < ·) ∧
    ∀ i ∈ is, lo ≤ i ∧ i < hi ∧ g.Allows i

theorem Drawn.nil (g : Factory) (t : Text) (lo hi : Int) : g.Drawn t lo hi [] :=
  ⟨[], rfl, .nil, fun _ h => nomatch h⟩

theorem Drawn.append {t : Text} {lo mid hi : Int} {ts us : List Text} (h1 : g.Drawn t lo mid ts)
    (h2 : g.Drawn t mid hi us) (hlo : lo ≤ mid) (hhi : mid ≤ hi) : g.Drawn t lo hi (ts ++ us) := by
  obtain ⟨is, rfl, his, hbis⟩ := h1
  obtain ⟨js, rfl, hjs, hbjs⟩ := h2
  refine ⟨is ++ js, List.map_append.symm, List.pairwise_append.2 ⟨his, hjs, ?_⟩, ?_⟩
  · intro i hi j hj
    have h1 := (hbis i hi).2.1
    have h2 := (hbjs j hj).1
    omega
  · intro i hi
    rcases List.mem_append.1 hi with hi | hi
    · obtain ⟨h1, h2, h3⟩ := hbis i hi
      exact ⟨h1, by omega, h3⟩
    · obtain ⟨h1, h2, h3⟩ := hbjs i hi
      exact ⟨by omega, h2, h3⟩

theorem Drawn.of_onward {t : Text} {lo hi : Int} {ts : List Text} (hon : f.Onward g)
    (h : g.Drawn t lo hi ts) : f.Drawn t lo hi ts := by
  unfold Drawn at h ⊢
  rw [hon.nameFor_eq, hon.allows_eq] at h
  exact h

theorem Drawn.nodup (hg : g.isGiver = true) {t : Text} {lo hi : Int} {ts : List Text}
    (h : g.Drawn t lo hi ts) : ts.Nodup := by
  obtain ⟨is, rfl, his, hb⟩ := h
  have hnodup : is.Nodup := his.imp fun h => Int.ne_of_lt h
  refine List.Nodup.map_on ?_ hnodup
  intro i hi j hj heq
  exact nameFor_injective hg (hb i hi).2.2 (hb j hj).2.2 (List.append_cancel_left heq)

end Factory

/-! ## Shelves that hand out names -/

namespace Shelf

variable {s s' : Shelf} {place giver : Nat} {t : Text} {g : Factory}

/-- References point behind, the caches are exact, and no simple factory has a negative index. -/
structure Ready (s : Shelf) : Prop where
  grounded : s.Grounded
  exact : s.caches.AreExact
  inRange : ∀ place f, s.get? place = some f → f.InRange

theorem Ready.onward (h : s.Ready) (hp : s.Pointwise Factory.Onward s') (hc : s'.caches.AreExact) :
    s'.Ready := by
  refine ⟨h.grounded.pointwise hp Factory.Onward.delegate?_eq, hc, fun place f' hf' => ?_⟩
  obtain ⟨f, hf, hon⟩ := hp.back hf'
  exact hon.inRange (h.inRange place f hf)

theorem Ready.next (h : s.Ready) (place : Nat) : (s.next place).2.Ready :=
  h.onward (s.next_onward place) (next_areExact h.exact place)

/-- One name is the giver's for its count, behind the prefixes, and the count goes up by one. -/
theorem next_drawn (h : s.Ready) (hgives : s.Gives place t giver) (hg : s.get? giver = some g)
    {u : Text} (hu : (s.next place).1 = .ok u) :
    ∃ g', (s.next place).2.get? giver = some g' ∧ g'.count = g.count + 1 ∧
      g.Drawn t g.count g'.count [u] := by
  have hnext := next_eq h.grounded hgives hg
  obtain ⟨f, hf, hgiver⟩ := hgives.exists_giver
  rw [hg] at hf
  cases hf
  rw [hnext] at hu ⊢
  cases hname : (g.draw s.caches).1 with
  | error e => rw [hname] at hu; cases hu
  | ok name =>
    rw [hname] at hu
    cases hu
    obtain ⟨hallows, rfl, hcount⟩ := Factory.draw_ok h.exact hgiver (h.inRange giver g hg) hname
    refine ⟨(g.draw s.caches).2.1, ?_, hcount, [g.count], rfl, List.pairwise_singleton _ _, ?_⟩
    · show (s.modify giver fun f => (f.draw s.caches).2.1).get? giver = _
      rw [get?_modify, if_pos rfl, hg, Option.map_some]
    · intro i hi
      rw [List.mem_singleton] at hi
      subst hi
      exact ⟨Int.le_refl _, by omega, hallows⟩

/-- Several names are the giver's for the counts in between. -/
theorem names_drawn (h : s.Ready) (hgives : s.Gives place t giver) (hg : s.get? giver = some g)
    {count : Nat} {us : List Text} (hus : (s.names place count).1 = .ok us) :
    ∃ g', (s.names place count).2.get? giver = some g' ∧ g.count ≤ g'.count ∧
      g.Drawn t g.count g'.count us := by
  induction count generalizing s g us with
  | zero =>
    cases hus
    exact ⟨g, hg, Int.le_refl _, .nil ..⟩
  | succ count ih =>
    rw [names] at hus ⊢
    have hready := h.next place
    have hon := s.next_onward place
    rcases hnext : s.next place with ⟨_ | u, s1⟩
    · rw [hnext] at hus
      cases hus
    · obtain ⟨g1, hg1, hcount, hdrawn⟩ := next_drawn h hgives hg (congrArg Prod.fst hnext)
      obtain ⟨g1', hg1', hong⟩ := hon.related hg
      rw [hnext] at hg1 hready hon hg1' hus
      rw [hg1] at hg1'
      cases hg1'
      simp only at hus ⊢
      rcases hrest : s1.names place count with ⟨_ | vs, s2⟩
      · rw [hrest] at hus
        cases hus
      · rw [hrest] at hus
        cases hus
        obtain ⟨g2, hg2, hle, hdrawn2⟩ := ih hready (hon.gives hgives) hg1 (congrArg Prod.fst hrest)
        rw [hrest] at hg2
        exact ⟨g2, hg2, by omega,
          hdrawn.append (hdrawn2.of_onward hong) (by omega) hle⟩

end Shelf

/-! ## Runs of a session -/

/-- Does the step send a factory back, or give it other names? -/
def Step.isRewinding : Step → Bool
  | .act _ .reset => true
  | .act _ (.setIndex _) => true
  | .act _ (.setAlphabet _) => true
  | _ => false

namespace Session

/-- Does the step ask the factory at a place for names? -/
def asks (s : Session) (place : Nat) : Step → Bool
  | .act name .next => s.bindings.lookup name == some (.factory place)
  | .act name (.names _) => s.bindings.lookup name == some (.factory place)
  | _ => false

/-- The names in an answer. -/
def Answer.texts (a : Answer) : List Text :=
  match a.result with
  | .ok (.name t) => [t]
  | .ok (.names ts) => ts
  | _ => []

/-- The names that the factory at a place hands out in answer to the steps of a run. -/
def handedOut (w : World) (place : Nat) : Session → List Step → List Text
  | _, [] => []
  | s, st :: rest =>
    (if s.asks place st then (s.step w st).1.texts else []) ++
      handedOut w place (s.step w st).2 rest

variable {s : Session} {place giver : Nat} {t : Text} {g : Factory}

theorem onward_of_factories_eq {s' : Session} (h : s'.shelf.factories = s.shelf.factories) :
    s.shelf.Pointwise Factory.Onward s'.shelf := by
  refine .of_forall₂ ?_
  rw [h]
  exact Factory.forall₂_self .refl _

theorem actOnFactory_onward (s : Session) (name : Text) (place : Nat) {a : Action}
    (ha : (Step.act name a).isRewinding = false) :
    s.shelf.Pointwise Factory.Onward (s.actOnFactory name place a).session.shelf := by
  cases a with
  | next =>
    rw [actOnFactory_next]
    exact s.shelf.next_onward place
  | names count =>
    rw [actOnFactory_names]
    exact s.shelf.names_onward place count.toNat
  | reset => cases ha
  | setIndex index => cases ha
  | setAlphabet v => cases ha
  | name index => exact onward_of_factories_eq (askCache_factories ..)
  | newName index => exact onward_of_factories_eq (askCache_factories ..)
  | look => exact onward_of_factories_eq rfl
  | shares other =>
    apply onward_of_factories_eq
    simp only [actOnFactory]
    split <;> rfl

/-- A step that does not send anything back moves the shelf onward, or puts a fresh factory on it. -/
theorem step_onward (s : Session) (w : World) {st : Step} (hst : st.isRewinding = false) :
    s.shelf.Pointwise Factory.Onward (s.step w st).2.shelf ∨
      ∃ f, f.IsFresh ∧ (s.step w st).2.shelf = s.shelf.add f := by
  cases st with
  | make name p =>
    rcases make_making w s name p with ⟨-, hs⟩ | ⟨h, -, hs, -⟩ | ⟨f, -, hs, hf, -⟩
    · exact .inl (onward_of_factories_eq (congrArg Shelf.factories hs))
    · exact .inl (onward_of_factories_eq (congrArg Shelf.factories hs))
    · exact .inr ⟨f, hf, hs⟩
  | setUpLogging level =>
    left
    apply onward_of_factories_eq
    simp only [Session.step, perform]
    split <;> rfl
  | act name a =>
    left
    show s.shelf.Pointwise Factory.Onward (s.act name a).session.shelf
    rcases s.act_cases name a with heq | ⟨place, -, heq⟩
    · rw [heq]
      exact onward_of_factories_eq rfl
    · rw [heq]
      exact s.actOnFactory_onward name place hst

theorem step_ready (hs : s.Sound) (hr : s.shelf.Ready) (w : World) {st : Step}
    (hst : st.isRewinding = false) : (s.step w st).2.shelf.Ready := by
  refine ⟨(hs.step w st).grounded, (hs.step w st).exact, fun place f hf => ?_⟩
  rcases s.step_onward w hst with hon | ⟨f', hfresh, hadd⟩
  · obtain ⟨f0, hf0, hon⟩ := hon.back hf
    exact hon.inRange (hr.inRange place f0 hf0)
  · rw [hadd] at hf
    by_cases he : place = s.shelf.size
    · rw [he, Shelf.get?_add_size] at hf
      cases hf
      exact hfresh.inRange
    · have hlt := Shelf.lt_size_of_get? hf
      rw [Shelf.size_add] at hlt
      rw [Shelf.get?_add_of_lt (by omega)] at hf
      exact hr.inRange place f hf

/-- The giver stays the same, at its count or a later one. -/
theorem step_gives (s : Session) (w : World) {st : Step} (hst : st.isRewinding = false)
    (hgives : s.shelf.Gives place t giver) (hg : s.shelf.get? giver = some g) :
    (s.step w st).2.shelf.Gives place t giver ∧
      ∃ g', (s.step w st).2.shelf.get? giver = some g' ∧ g.Onward g' := by
  rcases s.step_onward w hst with hon | ⟨f, -, hadd⟩
  · exact ⟨hon.gives hgives, hon.related hg⟩
  · rw [hadd]
    refine ⟨hgives.add f, g, ?_, .refl g⟩
    rw [Shelf.get?_add_of_lt (Shelf.lt_size_of_get? hg), hg]

theorem handle_of_lookup {name : Text} {h : Handle} (hl : (s.bindings.lookup name == some h) = true) :
    s.handle name = .ok h := by
  unfold handle
  rw [eq_of_beq hl]

theorem binds_of_asks {st : Step} (h : s.asks place st = true) : s.Binds place := by
  cases st with
  | act name a =>
    cases a with
    | next => exact ⟨name, eq_of_beq h⟩
    | names count => exact ⟨name, eq_of_beq h⟩
    | _ => cases h
  | _ => cases h

/-- A step that asks a factory draws some names from it, one after the other, and answers with all of
    them or with none. -/
theorem names_of_asks {st : Step} (hask : s.asks place st = true) (w : World) :
    ∃ count, (s.step w st).2.shelf = (s.shelf.names place count).2 ∧
      ((s.step w st).1.texts = [] ∨
        (s.shelf.names place count).1 = .ok (s.step w st).1.texts) := by
  cases st with
  | act name a =>
    cases a with
    | next =>
      have hact : s.act name .next = _ :=
        (act_of_handle (handle_of_lookup hask) .next).trans (s.actOnFactory_next name place)
      simp only [step, perform, hact, quiet, Answer.texts]
      cases hu : (s.shelf.next place).1 with
      | error e =>
        have hone : s.shelf.names place 1 = _ := Shelf.names_succ_of_error hu
        exact ⟨1, (congrArg Prod.snd hone).symm, .inl rfl⟩
      | ok u =>
        have hone : s.shelf.names place 1 = _ := Shelf.names_succ_of_ok hu
        exact ⟨1, (congrArg Prod.snd hone).symm, .inr (congrArg Prod.fst hone)⟩
    | names count =>
      have hact : s.act name (.names count) = _ :=
        (act_of_handle (handle_of_lookup hask) _).trans (s.actOnFactory_names name place count)
      simp only [step, perform, hact, quiet, Answer.texts]
      refine ⟨count.toNat, rfl, ?_⟩
      cases hus : (s.shelf.names place count.toNat).1 with
      | error e => exact .inl rfl
      | ok us => exact .inr rfl
    | _ => cases hask
  | _ => cases hask

/-- What a factory hands out in one step is drawn between its giver's counts before and after. -/
theorem step_drawn (hr : s.shelf.Ready) (w : World) {st : Step} (hask : s.asks place st = true)
    (hgives : s.shelf.Gives place t giver) (hg : s.shelf.get? giver = some g) {g' : Factory}
    (hg' : (s.step w st).2.shelf.get? giver = some g') :
    g.Drawn t g.count g'.count (s.step w st).1.texts := by
  obtain ⟨count, hshelf, hnone | hus⟩ := names_of_asks hask w
  · rw [hnone]
    exact .nil ..
  · obtain ⟨g1, hg1, -, hdrawn⟩ := Shelf.names_drawn hr hgives hg hus
    rw [hshelf, hg1] at hg'
    cases hg'
    exact hdrawn

/-- What a factory hands out in a run is drawn from its giver's count on. -/
theorem handedOut_drawn (hs : s.Sound) (hr : s.shelf.Ready) (w : World) {steps : List Step}
    (hsteps : ∀ st ∈ steps, st.isRewinding = false) (hgives : s.shelf.Gives place t giver)
    (hg : s.shelf.get? giver = some g) :
    ∃ hi, g.count ≤ hi ∧ g.Drawn t g.count hi (handedOut w place s steps) := by
  induction steps generalizing s g with
  | nil => exact ⟨g.count, Int.le_refl _, .nil ..⟩
  | cons st rest ih =>
    have hst := hsteps st (List.mem_cons_self ..)
    obtain ⟨hgives', g', hg', hon⟩ := s.step_gives w hst hgives hg
    obtain ⟨hi, hle, hrest⟩ := ih (hs.step w st) (step_ready hs hr w hst)
      (fun st' h => hsteps st' (List.mem_cons_of_mem _ h)) hgives' hg'
    have hfirst : g.Drawn t g.count g'.count
        (if s.asks place st then (s.step w st).1.texts else []) := by
      split
      · rename_i hask
        exact step_drawn hr w hask hgives hg hg'
      · exact .nil ..
    refine ⟨hi, Int.le_trans hon.count_le hle, ?_⟩
    exact hfirst.append (hrest.of_onward hon) hon.count_le hle

/-- **No factory hands out a name twice** as long as nothing is sent back: neither a factory that
    stands on the shelf already nor one that is put there during the run. -/
theorem handedOut_nodup (h : s.Reachable)
    (hnonneg : ∀ place lc index, s.shelf.get? place = some (.simple lc index) → 0 ≤ index) (w : World)
    (steps : List Step) (hsteps : ∀ st ∈ steps, st.isRewinding = false) (place : Nat) :
    (handedOut w place s steps).Nodup := by
  have hr : s.shelf.Ready := by
    refine ⟨h.sound.grounded, h.sound.exact, fun place f hf => ?_⟩
    cases f with
    | simple lc index => exact hnonneg place lc index hf
    | _ => trivial
  suffices ∀ s : Session, s.Sound → s.shelf.Ready → (handedOut w place s steps).Nodup from
    this s h.sound hr
  clear h hnonneg hr
  induction steps with
  | nil => exact fun _ _ _ => .nil
  | cons st rest ih =>
    intro s hs hr
    by_cases hp : place < s.shelf.size
    · obtain ⟨t, giver, hgives⟩ := hs.grounded.exists_gives hp
      obtain ⟨g, hg, hgiver⟩ := hgives.exists_giver
      obtain ⟨hi, -, hdrawn⟩ := handedOut_drawn hs hr w hsteps hgives hg
      exact hdrawn.nodup hgiver
    · -- a factory that is not there yet has nothing to hand out in this step
      have hnone : s.asks place st = false := by
        cases hask : s.asks place st with
        | false => rfl
        | true => exact absurd (hs.bound place (binds_of_asks hask)) hp
      rw [handedOut, hnone]
      exact ih (fun st' h => hsteps st' (List.mem_cons_of_mem _ h)) _ (hs.step w st)
        (step_ready hs hr w (hsteps st (List.mem_cons_self ..)))

/-- Two prefixing factories on top of each other, and the simple one below them. -/
def sharedInner : Session :=
  ((initial .inOrder).run World.nothing [
    .make ['m'] (.simple .mixed), .make ['p'] (.prefixing ['m'] ['_']),
    .make ['q'] (.prefixing ['p'] ['x'])]).2

/-- They take turns, while a counting factory is made and used. -/
def sharedInnerSteps : List Step := [
  .act ['q'] .next, .act ['m'] .next, .act ['q'] (.names 2), .act ['p'] .next,
  .make ['n'] .counting, .act ['n'] (.names 3), .act ['m'] (.name 60), .act ['q'] .next]

theorem handedOut_nodup_sharedInner :
    sharedInner.Reachable ∧ (∀ st ∈ sharedInnerSteps, st.isRewinding = false) ∧
      (handedOut World.nothing 2 sharedInner sharedInnerSteps).length = 4 ∧
      (handedOut World.nothing 2 sharedInner sharedInnerSteps).Nodup := by
  have hreach : sharedInner.Reachable := (Reachable.initial .inOrder).run World.nothing _
  have hsteps : ∀ st ∈ sharedInnerSteps, st.isRewinding = false := by decide
  have hnonneg : ∀ place lc index,
      sharedInner.shelf.get? place = some (.simple lc index) → 0 ≤ index := by
    intro place lc index h
    have hlt : place < 3 := Shelf.lt_size_of_get? h
    match place, hlt with
    | 0, _ => cases h; decide
    | 1, _ => cases h
    | 2, _ => cases h
  exact ⟨hreach, hsteps, rfl, handedOut_nodup hreach hnonneg World.nothing _ hsteps 2⟩

end Session

end FreshNames
