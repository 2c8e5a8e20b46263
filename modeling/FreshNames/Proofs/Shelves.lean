import FreshNames.Proofs.CachedNames
import FreshNames.Shelf

/-!
# Where names come from

The names of a prefixing factory are those of an older factory, prefixed.  Following these references
leads to the factory that gives the names, since a reference always points behind.

* `Shelf.Gives` - the prefixes on the way from a place, and the place of the factory at its end;
* `Shelf.Grounded` - references point behind; then there is a giver for every place (`exists_gives`);
* `next_eq` - the next name of a factory is the next one of its giver, behind the prefixes, and no
  other factory changes;
* `Shelf.Pointwise` - two shelves with related factories at the same places;
* `Factory.Onward` - the same factory with a counter that may have gone up: all that drawing does to
  it (`draw_onward`), so that asking for names moves a shelf onward (`next_onward`, `names_onward`).
-/

set_option autoImplicit false

namespace FreshNames

variable {caches : NameCaches}

namespace Factory

/-! ## Places in a list of factories -/

variable {fs older : List Factory} {f : Factory} {place : Nat}

theorem at?_cons_of_lt (h : place < older.length) : at? (f :: older) place = at? older place := by
  rw [at?, if_neg (by omega)]

theorem at?_cons_length (f : Factory) (older : List Factory) :
    at? (f :: older) older.length = some f := by
  rw [at?, if_pos rfl]

theorem lt_of_at? (h : at? fs place = some f) : place < fs.length := by
  induction fs with
  | nil => cases h
  | cons g older ih =>
    rw [at?] at h
    rw [List.length_cons]
    split at h
    · omega
    · have := ih h
      omega

theorem exists_at? (h : place < fs.length) : ∃ f, at? fs place = some f := by
  induction fs with
  | nil => cases h
  | cons g older ih =>
    rw [List.length_cons] at h
    by_cases he : place = older.length
    · exact ⟨g, by rw [he, at?_cons_length]⟩
    · rw [at?_cons_of_lt (by omega)]
      exact ih (by omega)

theorem at?_eq_none (h : fs.length ≤ place) : at? fs place = none := by
  cases hf : at? fs place with
  | none => rfl
  | some f =>
    have hlt := lt_of_at? hf
    omega

theorem ext_at? {fs' : List Factory} (hlen : fs'.length = fs.length)
    (h : ∀ place, at? fs' place = at? fs place) : fs' = fs := by
  induction fs generalizing fs' with
  | nil => exact List.length_eq_zero_iff.1 hlen
  | cons f older ih =>
    cases fs' with
    | nil => cases hlen
    | cons f' older' =>
      have hlen' : older'.length = older.length := by simpa using hlen
      have hhead := h older.length
      rw [at?_cons_length, ← hlen', at?_cons_length] at hhead
      cases hhead
      have htail : older' = older := by
        refine ih hlen' fun place => ?_
        by_cases hlt : place < older.length
        · have hplace := h place
          rw [at?_cons_of_lt hlt, at?_cons_of_lt (hlen' ▸ hlt)] at hplace
          exact hplace
        · rw [at?_eq_none (by omega), at?_eq_none (by omega)]
      rw [htail]

theorem at?_modifyAt (change : Factory → Factory) (fs : List Factory) (p q : Nat) :
    at? (modifyAt change fs p) q = if q = p then (at? fs q).map change else at? fs q := by
  induction fs with
  | nil => simp [modifyAt, at?]
  | cons f older ih =>
    rw [modifyAt]
    by_cases hp : p = older.length
    · rw [if_pos hp, at?, at?]
      by_cases hq : q = older.length
      · rw [if_pos hq, if_pos (by omega), if_pos hq, Option.map_some]
      · rw [if_neg hq, if_neg hq, if_neg (by omega)]
    · rw [if_neg hp, at?, length_modifyAt, at?]
      by_cases hq : q = older.length
      · rw [if_pos hq, if_pos hq, if_neg (by omega)]
      · rw [if_neg hq, if_neg hq, ih]

/-! ## The next name, by references -/

/-- Has the factory names of its own? -/
def isGiver : Factory → Bool
  | prefixing .. => false
  | _ => true

theorem eq_prefixing_of_not_isGiver (h : f.isGiver = false) : ∃ inner pre, f = prefixing inner pre := by
  cases f with
  | prefixing inner pre => exact ⟨inner, pre, rfl⟩
  | _ => cases h

theorem nextAt_cons_of_ne (h : place ≠ older.length) :
    nextAt caches (f :: older) place =
      ((nextAt caches older place).1, f :: (nextAt caches older place).2.1,
        (nextAt caches older place).2.2) := by
  simp only [nextAt, if_neg h]

theorem nextAt_head_of_isGiver (h : f.isGiver = true) :
    nextAt caches (f :: older) older.length =
      ((f.draw caches).1, (f.draw caches).2.1 :: older, (f.draw caches).2.2) := by
  cases f with
  | prefixing inner pre => cases h
  | _ => simp only [nextAt, if_pos]

theorem nextAt_head_prefixing (inner : Nat) (pre : Text) :
    nextAt caches (prefixing inner pre :: older) older.length =
      ((nextAt caches older inner).1.map (pre ++ ·),
        prefixing inner pre :: (nextAt caches older inner).2.1, (nextAt caches older inner).2.2) := by
  simp only [nextAt, if_pos]

theorem nextAt_of_isGiver (hf : at? fs place = some f) (hg : f.isGiver = true) :
    nextAt caches fs place =
      ((f.draw caches).1, modifyAt (fun g => (g.draw caches).2.1) fs place,
        (f.draw caches).2.2) := by
  induction fs with
  | nil => cases hf
  | cons g older ih =>
    by_cases he : place = older.length
    · subst he
      rw [at?_cons_length] at hf
      cases hf
      rw [nextAt_head_of_isGiver hg, modifyAt, if_pos rfl]
    · rw [at?, if_neg he] at hf
      rw [nextAt_cons_of_ne he, ih hf, modifyAt, if_neg he]

theorem nextAt_of_prefixing {inner : Nat} {pre : Text} (hf : at? fs place = some (prefixing inner pre))
    (hin : inner < place) :
    nextAt caches fs place =
      ((nextAt caches fs inner).1.map (pre ++ ·), (nextAt caches fs inner).2) := by
  induction fs with
  | nil => cases hf
  | cons g older ih =>
    have hlt := lt_of_at? hf
    rw [List.length_cons] at hlt
    rw [nextAt_cons_of_ne (show inner ≠ older.length by omega)]
    by_cases he : place = older.length
    · subst he
      rw [at?_cons_length] at hf
      cases hf
      rw [nextAt_head_prefixing]
    · rw [at?, if_neg he] at hf
      rw [nextAt_cons_of_ne he, ih hf]

/-! ## Counting on -/

/-- The same factory at the same point or a later one: a counter may have gone up. -/
inductive Onward : Factory → Factory → Prop
  | dictionary {letters : SharedAlphabet} {i j : Int} {fallback : Nat} (h : i ≤ j) :
      Onward (dictionary letters i fallback) (dictionary letters j fallback)
  | simple {lc : LetterCase} {i j : Int} (h : i ≤ j) : Onward (simple lc i) (simple lc j)
  | numeric {i j : Int} (h : i ≤ j) : Onward (numeric i) (numeric j)
  | prefixing {inner : Nat} {pre : Text} : Onward (prefixing inner pre) (prefixing inner pre)
  | counting {resets m n : Nat} (h : m ≤ n) : Onward (counting resets m) (counting resets n)

theorem Onward.refl (f : Factory) : f.Onward f := by
  cases f with
  | dictionary letters index fallback => exact .dictionary (Int.le_refl _)
  | simple lc index => exact .simple (Int.le_refl _)
  | numeric index => exact .numeric (Int.le_refl _)
  | prefixing inner pre => exact .prefixing
  | counting resets requests => exact .counting (Nat.le_refl _)

theorem Onward.trans {f g h : Factory} (hfg : f.Onward g) (hgh : g.Onward h) : f.Onward h := by
  cases hfg with
  | dictionary h1 => cases hgh with | dictionary h2 => exact .dictionary (Int.le_trans h1 h2)
  | simple h1 => cases hgh with | simple h2 => exact .simple (Int.le_trans h1 h2)
  | numeric h1 => cases hgh with | numeric h2 => exact .numeric (Int.le_trans h1 h2)
  | prefixing => exact hgh
  | counting h1 => cases hgh with | counting h2 => exact .counting (Nat.le_trans h1 h2)

theorem Onward.delegate?_eq {f g : Factory} (h : f.Onward g) : g.delegate? = f.delegate? := by
  cases h <;> rfl

theorem Onward.isGiver_eq {f g : Factory} (h : f.Onward g) : g.isGiver = f.isGiver := by
  cases h <;> rfl

theorem delegate?_withIndex (index : Int) (f : Factory) :
    (f.withIndex index).delegate? = f.delegate? := by
  cases f <;> rfl

theorem delegate?_withLetters (letters : SharedAlphabet) (f : Factory) :
    (f.withLetters letters).delegate? = f.delegate? := by
  cases f <;> rfl

/-- Drawing a name, or failing to, moves a factory onward. -/
theorem draw_onward (caches : NameCaches) (f : Factory) : f.Onward (f.draw caches).2.1 := by
  cases f with
  | dictionary letters index fallback =>
    rw [draw]
    split
    · exact .refl _
    · exact .dictionary (by omega)
  | simple lc index =>
    rw [draw]
    split
    · exact .refl _
    · exact .simple (by omega)
  | numeric index => exact .numeric (by omega)
  | prefixing inner pre => exact .refl _
  | counting resets requests => exact .counting (by omega)

/-- Drawing a name keeps exact caches exact. -/
theorem draw_areExact (h : caches.AreExact) (f : Factory) : (f.draw caches).2.2.AreExact := by
  cases f with
  | simple lc index =>
    rw [draw]
    split
    · exact h
    · rename_i heq
      exact h.nameAt heq
  | dictionary letters index fallback =>
    rw [draw]
    split <;> exact h
  | numeric index => exact h
  | prefixing inner pre => exact h
  | counting resets requests => exact h

theorem nextAt_areExact (h : caches.AreExact) (fs : List Factory) (place : Nat) :
    (nextAt caches fs place).2.2.AreExact := by
  induction fs generalizing place with
  | nil => exact h
  | cons f older ih =>
    by_cases he : place = older.length
    · subst he
      cases hg : f.isGiver with
      | true =>
        rw [nextAt_head_of_isGiver hg]
        exact draw_areExact h f
      | false =>
        obtain ⟨inner, pre, rfl⟩ := eq_prefixing_of_not_isGiver hg
        rw [nextAt_head_prefixing]
        exact ih inner
    · rw [nextAt_cons_of_ne he]
      exact ih place

/-! ## Changing all factories at once -/

variable {R : Factory → Factory → Prop} {fs' : List Factory}

theorem at?_of_forall₂ (h : List.Forall₂ R fs fs') (hf : at? fs place = some f) :
    ∃ f', at? fs' place = some f' ∧ R f f' := by
  induction h with
  | nil => cases hf
  | @cons g g' older older' hg hrest ih =>
    have hlen := hrest.length_eq
    by_cases he : place = older.length
    · rw [at?, if_pos he] at hf
      cases hf
      exact ⟨g', by rw [at?, if_pos (by omega)], hg⟩
    · rw [at?, if_neg he] at hf
      obtain ⟨f', hf', hR⟩ := ih hf
      exact ⟨f', by rw [at?, if_neg (by omega), hf'], hR⟩

theorem forall₂_self (hR : ∀ f, R f f) (fs : List Factory) : List.Forall₂ R fs fs :=
  List.forall₂_same.2 fun f _ => hR f

theorem forall₂_modifyAt {change : Factory → Factory} (hR : ∀ f, R f f) (hc : ∀ f, R f (change f))
    (fs : List Factory) (place : Nat) : List.Forall₂ R fs (modifyAt change fs place) := by
  induction fs with
  | nil => exact .nil
  | cons f older ih =>
    rw [modifyAt]
    split
    · exact .cons (hc f) (forall₂_self hR older)
    · exact .cons (hR f) ih

theorem forall₂_resetAt (hR : ∀ f, R f f) (hc : ∀ f, R f f.rewound) (fs : List Factory)
    (place : Nat) : List.Forall₂ R fs (resetAt fs place).2 := by
  induction fs generalizing place with
  | nil => exact .nil
  | cons f older ih =>
    rw [resetAt]
    split
    · split
      · exact .cons (hc f) (forall₂_self hR older)
      · exact .cons (hc f) (ih _)
    · exact .cons (hR f) (ih place)

theorem forall₂_nextAt (caches : NameCaches) (fs : List Factory) (place : Nat) :
    List.Forall₂ Onward fs (nextAt caches fs place).2.1 := by
  induction fs generalizing place with
  | nil => exact .nil
  | cons f older ih =>
    by_cases he : place = older.length
    · subst he
      cases hg : f.isGiver with
      | true =>
        rw [nextAt_head_of_isGiver hg]
        exact .cons (draw_onward caches f) (forall₂_self .refl older)
      | false =>
        obtain ⟨inner, pre, rfl⟩ := eq_prefixing_of_not_isGiver hg
        rw [nextAt_head_prefixing]
        exact .cons .prefixing (ih inner)
    · rw [nextAt_cons_of_ne he]
      exact .cons (.refl f) (ih place)

end Factory

/-! ## Shelves with related factories -/

/-- Two shelves with related factories at the same places. -/
structure Shelf.Pointwise (R : Factory → Factory → Prop) (s s' : Shelf) : Prop where
  size_eq : s'.size = s.size
  related : ∀ {place : Nat} {f : Factory}, s.get? place = some f →
    ∃ f', s'.get? place = some f' ∧ R f f'

namespace Shelf

variable {s s' s'' : Shelf} {f : Factory} {place : Nat} {R : Factory → Factory → Prop}

theorem lt_size_of_get? (h : s.get? place = some f) : place < s.size := Factory.lt_of_at? h

theorem exists_get? (h : place < s.size) : ∃ f, s.get? place = some f := Factory.exists_at? h

theorem get?_add_of_lt (h : place < s.size) (f : Factory) : (s.add f).get? place = s.get? place :=
  Factory.at?_cons_of_lt h

theorem size_add (s : Shelf) (f : Factory) : (s.add f).size = s.size + 1 := rfl

theorem get?_modify (s : Shelf) (change : Factory → Factory) (p q : Nat) :
    (s.modify p change).get? q = if q = p then (s.get? q).map change else s.get? q :=
  Factory.at?_modifyAt change s.factories p q

theorem size_modify (s : Shelf) (change : Factory → Factory) (p : Nat) :
    (s.modify p change).size = s.size := Factory.length_modifyAt change s.factories p

theorem ext_get? (hsize : s'.size = s.size) (hcaches : s'.caches = s.caches)
    (h : ∀ place, s'.get? place = s.get? place) : s' = s := by
  have hfactories : s'.factories = s.factories := Factory.ext_at? hsize h
  obtain ⟨factories, caches⟩ := s
  obtain ⟨factories', caches'⟩ := s'
  cases hfactories
  cases hcaches
  rfl

/-- Only what becomes of the factory at the place matters. -/
theorem modify_congr {change change' : Factory → Factory} (hf : s.get? place = some f)
    (h : change' f = change f) : s.modify place change' = s.modify place change := by
  refine ext_get? ?_ rfl fun q => ?_
  · rw [size_modify, size_modify]
  · rw [get?_modify, get?_modify]
    split
    · rename_i he
      rw [he, hf, Option.map_some, Option.map_some, h]
    · rfl

theorem modify_eq_self {change : Factory → Factory} (hf : s.get? place = some f)
    (h : change f = f) : s.modify place change = s := by
  refine ext_get? (s.size_modify change place) rfl fun q => ?_
  rw [get?_modify]
  split
  · rename_i he
    rw [he, hf, Option.map_some, h]
  · rfl

theorem modify_modify (s : Shelf) (place : Nat) (change change' : Factory → Factory) :
    (s.modify place change).modify place change' = s.modify place (change' ∘ change) := by
  refine ext_get? ?_ rfl fun q => ?_
  · rw [size_modify, size_modify, size_modify]
  · rw [get?_modify, get?_modify, get?_modify]
    split
    · exact Option.map_map ..
    · rfl

theorem Pointwise.of_forall₂ (h : List.Forall₂ R s.factories s'.factories) : s.Pointwise R s' :=
  ⟨h.length_eq.symm, Factory.at?_of_forall₂ h⟩

theorem Pointwise.trans (hR : ∀ {f g h}, R f g → R g h → R f h) (h1 : s.Pointwise R s')
    (h2 : s'.Pointwise R s'') : s.Pointwise R s'' := by
  refine ⟨h2.size_eq.trans h1.size_eq, fun {place f} hf => ?_⟩
  obtain ⟨f', hf', h⟩ := h1.related hf
  obtain ⟨f'', hf'', h'⟩ := h2.related hf'
  exact ⟨f'', hf'', hR h h'⟩

/-- The factories of the later shelf have such an earlier state as well. -/
theorem Pointwise.back (h : s.Pointwise R s') {f' : Factory} (hf' : s'.get? place = some f') :
    ∃ f, s.get? place = some f ∧ R f f' := by
  obtain ⟨f, hf⟩ := exists_get? (h.size_eq ▸ lt_size_of_get? hf')
  obtain ⟨g, hg, hR⟩ := h.related hf
  rw [hf'] at hg
  cases hg
  exact ⟨f, hf, hR⟩

/-! ## Grounded shelves -/

/-- Every reference points to a factory behind. -/
def Grounded (s : Shelf) : Prop :=
  ∀ place f, s.get? place = some f → ∀ d, f.delegate? = some d → d < place

theorem grounded_empty : empty.Grounded := fun _ _ h => nomatch h

theorem Grounded.add (h : s.Grounded) (hf : ∀ d, f.delegate? = some d → d < s.size) :
    (s.add f).Grounded := by
  intro place g hg d hd
  by_cases he : place = s.size
  · subst he
    rw [get?_add_size] at hg
    cases hg
    exact hf d hd
  · have hlt := lt_size_of_get? hg
    rw [size_add] at hlt
    rw [get?_add_of_lt (by omega)] at hg
    exact h place g hg d hd

theorem Grounded.pointwise (h : s.Grounded) (hp : s.Pointwise R s')
    (hR : ∀ {f g}, R f g → g.delegate? = f.delegate?) : s'.Grounded := by
  intro place f' hf' d hd
  obtain ⟨f, hf, hrel⟩ := hp.back hf'
  rw [hR hrel] at hd
  exact h place f hf d hd

/-! ## Givers -/

/-- The factory at a place has the names of the one at another place, behind prefixes. -/
inductive Gives (s : Shelf) : Nat → Text → Nat → Prop
  | own {place : Nat} {f : Factory} (hf : s.get? place = some f) (hg : f.isGiver = true) :
      Gives s place [] place
  | through {place inner giver : Nat} {pre t : Text}
      (hf : s.get? place = some (.prefixing inner pre)) (h : Gives s inner t giver) :
      Gives s place (pre ++ t) giver

theorem Grounded.exists_gives (h : s.Grounded) (hp : place < s.size) :
    ∃ t giver, s.Gives place t giver := by
  induction place using Nat.strongRecOn with
  | _ place ih =>
    obtain ⟨f, hf⟩ := exists_get? hp
    cases hg : f.isGiver with
    | true => exact ⟨[], place, .own hf hg⟩
    | false =>
      obtain ⟨inner, pre, rfl⟩ := Factory.eq_prefixing_of_not_isGiver hg
      have hin : inner < place := h place _ hf inner rfl
      obtain ⟨t, giver, hgives⟩ := ih inner hin (by omega)
      exact ⟨pre ++ t, giver, .through hf hgives⟩

theorem Gives.exists_giver {t : Text} {giver : Nat} (h : s.Gives place t giver) :
    ∃ g, s.get? giver = some g ∧ g.isGiver = true := by
  induction h with
  | own hf hg => exact ⟨_, hf, hg⟩
  | through _ _ ih => exact ih

/-- **The next name of a factory is the next one of its giver, behind the prefixes; the giver and the
    caches are all that changes.** -/
theorem next_eq (hgr : s.Grounded) {t : Text} {giver : Nat} {g : Factory} (h : s.Gives place t giver)
    (hg : s.get? giver = some g) :
    s.next place =
      ((g.draw s.caches).1.map (t ++ ·),
        ⟨(s.modify giver fun f => (f.draw s.caches).2.1).factories, (g.draw s.caches).2.2⟩) := by
  induction h with
  | own hf hgiver =>
    rw [hf] at hg
    cases hg
    rw [next, Factory.nextAt_of_isGiver hf hgiver]
    cases (g.draw s.caches).1 <;> rfl
  | @through place inner giver pre t hf hin ih =>
    have heq : s.next place = ((s.next inner).1.map (pre ++ ·), (s.next inner).2) := by
      rw [next, Factory.nextAt_of_prefixing hf (hgr place _ hf inner rfl)]
      rfl
    rw [heq, ih hg]
    cases (g.draw s.caches).1 with
    | error e => rfl
    | ok name => simp only [Except.map, List.append_assoc]

/-! ## Moving onward -/

theorem next_onward (s : Shelf) (place : Nat) : s.Pointwise Factory.Onward (s.next place).2 :=
  .of_forall₂ (Factory.forall₂_nextAt s.caches s.factories place)

theorem next_areExact (h : s.caches.AreExact) (place : Nat) : (s.next place).2.caches.AreExact :=
  Factory.nextAt_areExact h s.factories place

theorem names_succ_of_error {count : Nat} {e : NameProblem} (h : (s.next place).1 = .error e) :
    s.names place (count + 1) = (.error e, (s.next place).2) := by
  rw [names]
  rcases hnext : s.next place with ⟨r, s1⟩
  rw [hnext] at h
  cases h
  rfl

theorem names_succ_of_ok {count : Nat} {t : Text} (h : (s.next place).1 = .ok t) :
    s.names place (count + 1) =
      (((s.next place).2.names place count).1.map (t :: ·),
        ((s.next place).2.names place count).2) := by
  rw [names]
  rcases hnext : s.next place with ⟨r, s1⟩
  rw [hnext] at h
  cases h
  rcases hrest : s1.names place count with ⟨_ | ts, s2⟩ <;> simp only [hrest] <;> rfl

/-- What every single name keeps, several names keep as well. -/
theorem names_keeps {P : Shelf → Prop} (hnext : ∀ s, P s → P (s.next place).2) (h : P s)
    (count : Nat) : P (s.names place count).2 := by
  induction count generalizing s with
  | zero => exact h
  | succ count ih =>
    have h1 := hnext s h
    rw [names]
    split
    · rename_i heq
      rw [heq] at h1
      exact h1
    · rename_i t s1 heq
      rw [heq] at h1
      have h2 := ih h1
      split <;> (rename_i heq'; rw [heq'] at h2; exact h2)

theorem names_onward (s : Shelf) (place count : Nat) :
    s.Pointwise Factory.Onward (s.names place count).2 :=
  names_keeps (P := fun s' => s.Pointwise Factory.Onward s')
    (fun s' h => h.trans .trans (s'.next_onward place)) ⟨rfl, fun hf => ⟨_, hf, .refl _⟩⟩ count

theorem names_areExact (h : s.caches.AreExact) (place count : Nat) :
    (s.names place count).2.caches.AreExact :=
  names_keeps (P := fun s => s.caches.AreExact) (fun _ h => next_areExact h place) h count

/-! ## Resetting and changing -/

theorem reset_pointwise (s : Shelf) (place : Nat) :
    s.Pointwise (fun f g => g = f ∨ g = f.rewound) (s.reset place).2 :=
  .of_forall₂ (Factory.forall₂_resetAt (fun _ => .inl rfl) (fun _ => .inr rfl) s.factories place)

theorem modify_pointwise (s : Shelf) (place : Nat) (change : Factory → Factory) :
    s.Pointwise (fun f g => g = f ∨ g = change f) (s.modify place change) :=
  .of_forall₂ (Factory.forall₂_modifyAt (fun _ => .inl rfl) (fun _ => .inr rfl) s.factories place)

/-! ## Givers stay -/

theorem Pointwise.gives (h : s.Pointwise Factory.Onward s') {t : Text} {giver : Nat}
    (hg : s.Gives place t giver) : s'.Gives place t giver := by
  induction hg with
  | own hf hgiver =>
    obtain ⟨f', hf', hon⟩ := h.related hf
    exact .own hf' (hon.isGiver_eq.trans hgiver)
  | through hf _ ih =>
    obtain ⟨f', hf', hon⟩ := h.related hf
    cases hon
    exact .through hf' ih

theorem Gives.add {t : Text} {giver : Nat} (h : s.Gives place t giver) (f : Factory) :
    (s.add f).Gives place t giver := by
  induction h with
  | own hf hgiver => exact .own ((get?_add_of_lt (lt_size_of_get? hf) f).trans hf) hgiver
  | through hf _ ih => exact .through ((get?_add_of_lt (lt_size_of_get? hf) f).trans hf) ih

end Shelf

end FreshNames
