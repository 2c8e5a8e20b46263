import FreshNames.NameCache
import FreshNames.Proofs.WordNumbers

/-!
# What the caches of simple names hold

The cache is filled from the front, and the name for the next place needs an earlier place only: it is
there already, so that a round of filling adds one name and no more.  From this follow

* `fill_succ`, `size_fill` - what a round adds, and how long a cache becomes; `size_name`,
  `size_newName` - how long asking for a name makes it;
* `IsExact` - a cache holds at each place the word with that number, the other way round;
* `name_exact`, `newName_exact` - names out of an exact cache are such words as well, and leave an
  exact cache behind;
* `NameCaches.AreExact` - the same for both letter cases; asking for a name keeps it, whatever whole
  number is asked for.
-/

set_option autoImplicit false

namespace FreshNames

namespace NameCache

variable {a : Alphabet} {cache : NameCache} {i : Nat}

/-! ## Rounds -/

theorem mod_size_lt (a : Alphabet) (i : Nat) : i % a.size < a.size := Nat.mod_lt i a.size_pos

/-- What is added at place `i` to a cache that has the places before. -/
def entry (a : Alphabet) (cache : NameCache) (i : Nat) : Text :=
  if h : i < a.size then [a.letter ⟨i, h⟩]
  else cache.getD (i / a.size - 1) [] ++ [a.letter ⟨i % a.size, mod_size_lt a i⟩]

theorem name_of_lt (h : i < cache.size) : name a cache i = (cache.getD i [], cache) := by
  rw [name, show i + 1 - cache.size = 0 by omega, fill]

theorem stem_lt (h : ¬ i < a.size) : i / a.size - 1 < i := by
  have pos := a.size_pos
  have := Nat.div_le_self i a.size
  omega

/-- A name whose earlier places are all there adds nothing to the cache. -/
theorem newName_of_le (h : i ≤ cache.size) : newName a cache i = (entry a cache i, cache) := by
  rw [newName, entry]
  split
  · rfl
  · rename_i hi
    have hstem := stem_lt hi
    rw [name_of_lt (show i / a.size - 1 < cache.size by omega)]

theorem fill_zero : fill a cache i 0 = cache := by rw [fill]

theorem fill_succ {rounds : Nat} (h : cache.size ≤ i) :
    fill a cache i (rounds + 1) = fill a (cache.push (entry a cache cache.size)) i rounds := by
  rw [fill, if_pos h, newName_of_le (Nat.le_refl _)]

theorem fill_of_lt {rounds : Nat} (h : i < cache.size) : fill a cache i rounds = cache := by
  cases rounds with
  | zero => exact fill_zero
  | succ rounds => rw [fill, if_neg (by omega)]

theorem size_fill (a : Alphabet) (cache : NameCache) (i rounds : Nat) :
    (fill a cache i rounds).size = max cache.size (min (cache.size + rounds) (i + 1)) := by
  induction rounds generalizing cache with
  | zero => rw [fill_zero]; omega
  | succ rounds ih =>
    by_cases h : cache.size ≤ i
    · rw [fill_succ h, ih, Array.size_push]
      omega
    · rw [fill_of_lt (by omega)]
      omega

theorem size_name (a : Alphabet) (cache : NameCache) (i : Nat) :
    (name a cache i).2.size = max cache.size (i + 1) := by
  have hfill := size_fill a cache i (i + 1 - cache.size)
  rw [name]
  show (fill a cache i (i + 1 - cache.size)).size = _
  omega

theorem size_newName (a : Alphabet) (cache : NameCache) (i : Nat) :
    (newName a cache i).2.size = max cache.size (i / a.size) := by
  rw [newName]
  split
  · rename_i hlt
    rw [Nat.div_eq_of_lt hlt]
    show cache.size = max cache.size 0
    omega
  · rename_i hge
    have hpos : 0 < i / a.size := Nat.div_pos (by omega) a.size_pos
    have hsize := size_name a cache (i / a.size - 1)
    show (name a cache (i / a.size - 1)).2.size = _
    omega

/-! ## Exact caches -/

/-- At each place stands the word with that number, the most significant character first. -/
def IsExact (a : Alphabet) (cache : NameCache) : Prop :=
  ∀ k (h : k < cache.size), cache[k] = (a.word k).reverse

/-- Exact caches of one length are the same. -/
theorem IsExact.eq_of_size {cache' : NameCache} (h : IsExact a cache) (h' : IsExact a cache')
    (hsize : cache'.size = cache.size) : cache' = cache := by
  apply Array.ext hsize
  intro k hk' hk
  rw [h' k hk', h k hk]

theorem isExact_empty (a : Alphabet) : IsExact a #[] := fun _ h => absurd h (Nat.not_lt_zero _)

theorem word_reverse_of_lt (h : i < a.size) : (a.word i).reverse = [a.letter ⟨i, h⟩] := by
  have hz : i / a.size = 0 := Nat.div_eq_of_lt h
  rw [Alphabet.word, Numeral.digits_succ, hz, Numeral.digits_zero]
  simp [Nat.mod_eq_of_lt h]

theorem word_reverse_of_not_lt (h : ¬ i < a.size) :
    (a.word i).reverse =
      (a.word (i / a.size - 1)).reverse ++ [a.letter ⟨i % a.size, Nat.mod_lt i a.size_pos⟩] := by
  have hpos : 0 < i / a.size := Nat.div_pos (by omega) a.size_pos
  rw [Alphabet.word, Numeral.digits_succ, List.map_cons, List.reverse_cons, Alphabet.word,
    Nat.sub_add_cancel hpos]

theorem IsExact.getD (h : IsExact a cache) (hi : i < cache.size) :
    cache.getD i [] = (a.word i).reverse := by
  rw [← h i hi]
  simp [Array.getD, hi]

theorem IsExact.entry_eq (h : IsExact a cache) (hi : i ≤ cache.size) :
    entry a cache i = (a.word i).reverse := by
  unfold entry
  split
  · rename_i hlt
    exact (word_reverse_of_lt hlt).symm
  · rename_i hge
    have hstem := stem_lt hge
    rw [word_reverse_of_not_lt hge, h.getD (by omega)]

theorem IsExact.push (h : IsExact a cache) : IsExact a (cache.push (entry a cache cache.size)) := by
  intro k hk
  rw [Array.getElem_push]
  split
  · rename_i hlt
    exact h k hlt
  · rename_i hge
    have hsize : k = cache.size := by rw [Array.size_push] at hk; omega
    rw [h.entry_eq (Nat.le_refl _), hsize]

theorem IsExact.fill (h : IsExact a cache) (i rounds : Nat) : IsExact a (fill a cache i rounds) := by
  induction rounds generalizing cache with
  | zero => rw [fill_zero]; exact h
  | succ rounds ih =>
    by_cases hle : cache.size ≤ i
    · rw [fill_succ hle]
      exact ih h.push
    · rw [fill_of_lt (by omega)]
      exact h

/-- A name out of an exact cache is the word with its number, the other way round. -/
theorem name_exact (h : IsExact a cache) (i : Nat) :
    (name a cache i).1 = (a.word i).reverse ∧ IsExact a (name a cache i).2 := by
  have hfill := h.fill i (i + 1 - cache.size)
  have hlt : i < (NameCache.fill a cache i (i + 1 - cache.size)).size := by
    rw [size_fill]
    omega
  rw [name]
  exact ⟨hfill.getD hlt, hfill⟩

theorem newName_exact (h : IsExact a cache) (i : Nat) :
    (newName a cache i).1 = (a.word i).reverse ∧ IsExact a (newName a cache i).2 := by
  rw [newName]
  split
  · rename_i hlt
    exact ⟨(word_reverse_of_lt hlt).symm, h⟩
  · rename_i hge
    obtain ⟨hname, hcache⟩ := name_exact h (i / a.size - 1)
    refine ⟨?_, hcache⟩
    rw [word_reverse_of_not_lt hge]
    exact congrArg (· ++ _) hname

end NameCache

/-! ## Both caches -/

namespace NameCaches

open NameCache

variable {caches caches' : NameCaches} {lc : LetterCase}

/-- Both caches are exact. -/
def AreExact (caches : NameCaches) : Prop := ∀ lc : LetterCase, IsExact lc.alphabet (caches.get lc)

theorem areExact_empty : empty.AreExact := by
  intro lc
  cases lc <;> exact isExact_empty _

theorem AreExact.eq_of_sizes (h : caches.AreExact) (h' : caches'.AreExact)
    (hsize : ∀ lc, (caches'.get lc).size = (caches.get lc).size) : caches' = caches := by
  obtain ⟨mixed, lower⟩ := caches
  obtain ⟨mixed', lower'⟩ := caches'
  have hmixed : mixed' = mixed := (h .mixed).eq_of_size (h' .mixed) (hsize .mixed)
  have hlower : lower' = lower := (h .lower).eq_of_size (h' .lower) (hsize .lower)
  rw [hmixed, hlower]

theorem AreExact.set (h : caches.AreExact) {cache : NameCache} (hc : IsExact lc.alphabet cache) :
    (caches.set lc cache).AreExact := by
  intro lc'
  rw [get_set]
  split
  · rename_i e
    subst e
    exact hc
  · exact h lc'

theorem set_get (caches : NameCaches) (lc : LetterCase) : caches.set lc (caches.get lc) = caches := by
  cases lc <;> rfl

theorem nameAt_natCast (caches : NameCaches) (lc : LetterCase) (i : Nat) :
    caches.nameAt lc i =
      .ok ((name lc.alphabet (caches.get lc) i).1,
        caches.set lc (name lc.alphabet (caches.get lc) i).2) := rfl

theorem newNameAt_natCast (caches : NameCaches) (lc : LetterCase) (i : Nat) :
    caches.newNameAt lc i =
      .ok ((newName lc.alphabet (caches.get lc) i).1,
        caches.set lc (newName lc.alphabet (caches.get lc) i).2) := rfl

/-- Counting from the end does not change a cache. -/
theorem nameAt_negSucc {i : Nat} {t : Text} (h : caches.nameAt lc (.negSucc i) = .ok (t, caches')) :
    caches' = caches := by
  unfold nameAt at h
  simp only [NameCache.nameAt] at h
  split at h
  · cases h
  · rename_i heq
    split at heq <;> cases heq
    cases h
    exact set_get caches lc

theorem newNameAt_negSucc {i : Nat} {t : Text}
    (h : caches.newNameAt lc (.negSucc i) = .ok (t, caches')) : caches' = caches := by
  unfold newNameAt at h
  simp only [NameCache.newNameAt] at h
  split at h
  · cases h
  · rename_i heq
    split at heq <;> cases heq
    cases h
    exact set_get caches lc

/-- Asking for a name keeps exact caches exact, whatever the number. -/
theorem AreExact.nameAt {i : Int} {t : Text} (h : caches.AreExact)
    (hn : caches.nameAt lc i = .ok (t, caches')) : caches'.AreExact := by
  cases i with
  | ofNat i =>
    have he := (nameAt_natCast caches lc i).symm.trans hn
    rw [← (Prod.mk.inj (Except.ok.inj he)).2]
    exact h.set (name_exact (h lc) i).2
  | negSucc i =>
    rw [nameAt_negSucc hn]
    exact h

theorem AreExact.newNameAt {i : Int} {t : Text} (h : caches.AreExact)
    (hn : caches.newNameAt lc i = .ok (t, caches')) : caches'.AreExact := by
  cases i with
  | ofNat i =>
    have he := (newNameAt_natCast caches lc i).symm.trans hn
    rw [← (Prod.mk.inj (Except.ok.inj he)).2]
    exact h.set (newName_exact (h lc) i).2
  | negSucc i =>
    rw [newNameAt_negSucc hn]
    exact h

end NameCaches

end FreshNames
