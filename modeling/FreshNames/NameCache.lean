import FreshNames.Alphabet.Selection

/-!
# Cached names

Simple names are the words over an alphabet with the most significant letter first, so that a name
is an earlier name with one more letter.  The names are kept in a cache, which grows as far as it is
asked for: a name that is not there yet is made from a shorter one that is.

* `NameCache.name` - a name through the cache; `NameCache.newName` - a name made from a shorter one;
* `NameCache.nameAt`, `NameCache.newNameAt` - the same for any whole number: negative ones count from
  the end, of the cache or of the alphabet;
* `LetterCase` - the two alphabets of simple names, each with a cache in `NameCaches`.
-/

set_option autoImplicit false

namespace FreshNames

/-- The names made so far, in order. -/
abbrev NameCache := Array Text

/-- Why there is no name for a number. -/
inductive NameProblem
  /-- The number is negative. -/
  | negative (e : Alphabet.NegativeIndex)
  /-- The cache is too short for a place counted from its end. -/
  | outsideCache
  /-- The alphabet is too short for a place counted from its end. -/
  | outsideAlphabet
  /-- The number does not fit into a machine word. -/
  | tooLarge
  /-- The number has too many digits to be a name itself. -/
  | unwritable
  deriving DecidableEq, Repr

/-- The wording of the problem. -/
def NameProblem.message : NameProblem → String
  | negative e => e.message
  | outsideCache => "list index out of range"
  | outsideAlphabet => "string index out of range"
  | tooLarge => beyondWordMessage
  | unwritable => unwritableMessage

namespace NameCache

/-! ## Growing -/

mutual

/-- The name with a number, and the cache, which has it afterwards. -/
def name (a : Alphabet) (cache : NameCache) (i : Nat) : Text × NameCache :=
  let cache := fill a cache i (i + 1 - cache.size)
  (cache.getD i [], cache)
termination_by (i, 2, 0)

/-- The cache with new names up to number `i`.  A round adds one name at least, so that as many
    rounds are enough as names are missing. -/
def fill (a : Alphabet) (cache : NameCache) (i rounds : Nat) : NameCache :=
  match rounds with
  | 0 => cache
  | rounds + 1 =>
    if cache.size ≤ i then
      let (t, grown) := newName a cache cache.size
      fill a (grown.push t) i rounds
    else cache
termination_by (i, 1, rounds)
decreasing_by
  · rcases Nat.lt_or_eq_of_le (by assumption : cache.size ≤ i) with h | h
    · exact Prod.Lex.left _ _ h
    · rw [h]
      exact Prod.Lex.right _ (Prod.Lex.left _ _ Nat.zero_lt_one)
  · exact Prod.Lex.right _ (Prod.Lex.right _ (Nat.lt_succ_self rounds))

/-- The name with a number, made without looking for it in the cache: a letter, or an earlier name
    and a letter. -/
def newName (a : Alphabet) (cache : NameCache) (i : Nat) : Text × NameCache :=
  if h : i < a.size then ([a.letter ⟨i, h⟩], cache)
  else
    let (stem, cache) := name a cache (i / a.size - 1)
    (stem ++ [a.letter ⟨i % a.size, Nat.mod_lt i a.size_pos⟩], cache)
termination_by (i, 0, 0)
decreasing_by
  have pos := a.size_pos
  have : i / a.size ≤ i := Nat.div_le_self i a.size
  apply Prod.Lex.left
  omega

end

/-! ## Any whole number -/

/-- The name at a place of the cache; a negative place is counted from the end, and the cache stays
    as it is. -/
def nameAt (a : Alphabet) (cache : NameCache) : Int → Except NameProblem (Text × NameCache)
  | .ofNat i => .ok (name a cache i)
  | .negSucc i =>
    match position? cache.size (.negSucc i) with
    | .ok p => .ok (cache.getD p [], cache)
    | .error .outOfRange => .error .outsideCache
    | .error .tooLarge => .error .tooLarge

/-- The name that is made for a number; for a negative one it is a letter, counted from the end of
    the alphabet. -/
def newNameAt (a : Alphabet) (cache : NameCache) : Int → Except NameProblem (Text × NameCache)
  | .ofNat i => .ok (newName a cache i)
  | .negSucc i =>
    match a.get (.negSucc i) with
    | .ok c => .ok ([c], cache)
    | .error .outOfRange => .error .outsideAlphabet
    | .error .tooLarge => .error .tooLarge

end NameCache

/-! ## The two caches -/

/-- Which letters simple names have. -/
inductive LetterCase
  /-- Small and capital letters. -/
  | mixed
  /-- Small letters only. -/
  | lower
  deriving DecidableEq, Repr

/-- The letters, small ones first. -/
def LetterCase.alphabet : LetterCase → Alphabet
  | mixed => {
      letters := "abcdefghijklmnopqrstuvwxyzABCDEFGHIJKLMNOPQRSTUVWXYZ".toList
      nonempty := by decide
      distinct := by decide }
  | lower => .latin

/-- The cache of each letter case. -/
structure NameCaches where
  mixed : NameCache
  lower : NameCache
  deriving DecidableEq

namespace NameCaches

/-- Caches without any name. -/
def empty : NameCaches := ⟨#[], #[]⟩

/-- The cache of a letter case. -/
def get (caches : NameCaches) : LetterCase → NameCache
  | .mixed => caches.mixed
  | .lower => caches.lower

/-- The caches with another one for a letter case. -/
def set (caches : NameCaches) (lc : LetterCase) (cache : NameCache) : NameCaches :=
  match lc with
  | .mixed => { caches with mixed := cache }
  | .lower => { caches with lower := cache }

theorem get_set (caches : NameCaches) (lc lc' : LetterCase) (cache : NameCache) :
    (caches.set lc cache).get lc' = if lc' = lc then cache else caches.get lc' := by
  cases lc <;> cases lc' <;> simp [get, set]

/-- The name of a letter case at a place of its cache. -/
def nameAt (caches : NameCaches) (lc : LetterCase) (i : Int) :
    Except NameProblem (Text × NameCaches) :=
  match NameCache.nameAt lc.alphabet (caches.get lc) i with
  | .error e => .error e
  | .ok (t, cache) => .ok (t, caches.set lc cache)

/-- The name of a letter case that is made for a number. -/
def newNameAt (caches : NameCaches) (lc : LetterCase) (i : Int) :
    Except NameProblem (Text × NameCaches) :=
  match NameCache.newNameAt lc.alphabet (caches.get lc) i with
  | .error e => .error e
  | .ok (t, cache) => .ok (t, caches.set lc cache)

end NameCaches

end FreshNames
