import FreshNames.Proofs.CachedNames
import Mathlib.Logic.Relation

/-!
# How the cache of simple names grows

A name is asked for in two ways that call each other, and both work on the same cache: neither the
number nor the cache is smaller from one call to the next.  Here the calls are taken apart into
moments, one behind the other and without a count of rounds, so that nothing but the calls themselves
brings a run to its end.

* `Moment.next` - what happens from one moment to the next; `Moment.LeadsTo` - a part of a run;
* `Call.Ends` - a call comes to an answer; `ends_name`, `ends_newName` - both calls do, and to the
  answer and the cache of `NameCache.name` and `NameCache.newName`;
* `Moment.Orderly` - how the moments of a run look: a name asked for within a round is there already;
* `Moment.InPlace` - what follows for the cache at such a moment: a round adds one name, at its end
  and at the place that the name was made for;
* `NameCache.growth_exact` - so the cache grows by the names that are missing, and by no other.
-/

set_option autoImplicit false

namespace FreshNames

namespace NameCache

variable {a : Alphabet} {cache grown : NameCache} {i : Nat}

/-! ## Looking things up -/

/-- The name at a place of the cache, if it is there; a negative place is counted from the end. -/
def found (cache : NameCache) : Int → Except NameProblem Text
  | .ofNat i => (cache[i]?).elim (.error .outsideCache) .ok
  | .negSucc i =>
    match position? cache.size (.negSucc i) with
    | .ok p => .ok (cache.getD p [])
    | .error .outOfRange => .error .outsideCache
    | .error .tooLarge => .error .tooLarge

/-- The letter at a place of the alphabet; a negative place is counted from the end. -/
def letterAt (a : Alphabet) : Int → Except NameProblem Char
  | .ofNat i => (a.letters[i]?).elim (.error .outsideAlphabet) .ok
  | .negSucc i =>
    match a.get (.negSucc i) with
    | .ok c => .ok c
    | .error .outOfRange => .error .outsideAlphabet
    | .error .tooLarge => .error .tooLarge

theorem found_natCast (h : i < cache.size) : found cache i = .ok (cache.getD i []) := by
  show (cache[i]?).elim _ _ = _
  simp [h]

theorem letterAt_natCast (h : i < a.size) : letterAt a i = .ok (a.letter ⟨i, h⟩) := by
  show (a.letters[i]?).elim _ _ = _
  rw [List.getElem?_eq_getElem h]
  rfl

theorem nameAt_negSucc_eq (a : Alphabet) (cache : NameCache) (i : Nat) :
    nameAt a cache (.negSucc i) = (found cache (.negSucc i)).map (·, cache) := by
  simp only [nameAt, found]
  rcases position? cache.size (.negSucc i) with (_ | _) | p <;> rfl

theorem newNameAt_negSucc_eq (a : Alphabet) (cache : NameCache) (i : Nat) :
    newNameAt a cache (.negSucc i) =
      ((letterAt a (.negSucc i)).map fun c => [c]).map (·, cache) := by
  simp only [newNameAt, letterAt]
  rcases a.get (.negSucc i) with (_ | _) | c <;> rfl

/-! ## Calls, moment by moment -/

/-- A name is asked for, in one of the two ways. -/
inductive Call
  /-- Through the cache. -/
  | name (i : Int)
  /-- Without looking for the name itself. -/
  | newName (i : Int)

/-- A call that waits for the answer to the one it has made. -/
inductive Waiting
  /-- The loop of `name i`, in a round that makes the name for a place of the cache. -/
  | round (i : Int) (place : Nat)
  /-- `newName i`, which puts a letter behind an earlier name. -/
  | letter (i : Int)

/-- What goes on. -/
inductive Activity
  /-- A call begins, or its loop looks at the cache again. -/
  | asked (c : Call)
  /-- A call has come to an answer. -/
  | answered (r : Except NameProblem Text)

/-- A moment of a run: what goes on, who waits for it, the last caller first, and the cache. -/
structure Moment where
  activity : Activity
  waiting : List Waiting
  cache : NameCache

/-- The moment when somebody makes a call. -/
def Call.start (c : Call) (cache : NameCache) : Moment := ⟨.asked c, [], cache⟩

namespace Moment

/-- The next moment, unless the answer is there and nobody waits for it.  A failure is passed on to
    the first caller. -/
def next (a : Alphabet) : Moment → Option Moment
  | ⟨.asked (.name i), ws, cache⟩ =>
    if (cache.size : Int) ≤ i then
      some ⟨.asked (.newName cache.size), .round i cache.size :: ws, cache⟩
    else some ⟨.answered (found cache i), ws, cache⟩
  | ⟨.asked (.newName i), ws, cache⟩ =>
    if i < a.size then some ⟨.answered ((letterAt a i).map fun c => [c]), ws, cache⟩
    else some ⟨.asked (.name (i / a.size - 1)), .letter i :: ws, cache⟩
  | ⟨.answered (.ok t), .round i _ :: ws, cache⟩ => some ⟨.asked (.name i), ws, cache.push t⟩
  | ⟨.answered (.ok t), .letter i :: ws, cache⟩ =>
    some ⟨.answered ((letterAt a (i % a.size)).map fun c => t ++ [c]), ws, cache⟩
  | ⟨.answered (.error e), _ :: ws, cache⟩ => some ⟨.answered (.error e), ws, cache⟩
  | ⟨.answered _, [], _⟩ => none

/-- A run leads from one moment to another. -/
def LeadsTo (a : Alphabet) : Moment → Moment → Prop :=
  Relation.ReflTransGen fun m m' => m.next a = some m'

variable {m m' last : Moment} {ws : List Waiting}

theorem LeadsTo.head {m'' : Moment} (h : m.next a = some m') (h' : m'.LeadsTo a m'') :
    m.LeadsTo a m'' :=
  Relation.ReflTransGen.head h h'

theorem LeadsTo.of_next (h : m.next a = some m') : m.LeadsTo a m' := Relation.ReflTransGen.single h

theorem LeadsTo.trans {m'' : Moment} (h : m.LeadsTo a m') (h' : m'.LeadsTo a m'') :
    m.LeadsTo a m'' :=
  Relation.ReflTransGen.trans h h'

/-- A run that comes to its last moment goes there from each of its moments. -/
theorem LeadsTo.from_between (h : m.LeadsTo a last) (hlast : last.next a = none)
    (h' : m.LeadsTo a m') : m'.LeadsTo a last := by
  have unique : Relator.RightUnique fun x y : Moment => x.next a = some y := by
    intro x y z hy hz
    exact Option.some.inj (hy.symm.trans hz)
  rcases Relation.ReflTransGen.total_of_right_unique unique h' h with hl | hl
  · exact hl
  · rcases Relation.ReflTransGen.cases_head hl with rfl | ⟨after, hafter, -⟩
    · exact .refl
    · rw [hlast] at hafter
      cases hafter

theorem next_answered (r : Except NameProblem Text) (cache : NameCache) :
    next a ⟨.answered r, [], cache⟩ = none := by
  cases r <;> rfl

/-! ## What calls come to -/

theorem leadsTo_found (h : i < cache.size) (ws : List Waiting) :
    LeadsTo a ⟨.asked (.name i), ws, cache⟩ ⟨.answered (.ok (cache.getD i [])), ws, cache⟩ := by
  refine .of_next ?_
  rw [next, if_neg (by omega), found_natCast h]

theorem next_letter (h : i < a.size) (ws : List Waiting) (cache : NameCache) :
    next a ⟨.asked (.newName i), ws, cache⟩ =
      some ⟨.answered (.ok [a.letter ⟨i, h⟩]), ws, cache⟩ := by
  rw [next, if_pos (by omega), letterAt_natCast h]
  rfl

theorem next_stem (h : ¬ i < a.size) (ws : List Waiting) (cache : NameCache) :
    next a ⟨.asked (.newName i), ws, cache⟩ =
      some ⟨.asked (.name ((i / a.size - 1 : Nat) : Int)), .letter i :: ws, cache⟩ := by
  have hpos : 0 < i / a.size := Nat.div_pos (by omega) a.size_pos
  have hstem : (i : Int) / (a.size : Int) - 1 = ((i / a.size - 1 : Nat) : Int) := by
    rw [← Int.natCast_ediv]
    omega
  rw [next, if_neg (by omega), hstem]

theorem next_behind (t : Text) (i : Nat) (ws : List Waiting) (cache : NameCache) :
    next a ⟨.answered (.ok t), .letter i :: ws, cache⟩ =
      some ⟨.answered (.ok (t ++ [a.letter ⟨i % a.size, mod_size_lt a i⟩])), ws, cache⟩ := by
  have hplace : (i : Int) % (a.size : Int) = ((i % a.size : Nat) : Int) := (Int.natCast_emod i _).symm
  rw [next, hplace, letterAt_natCast (mod_size_lt a i)]
  rfl

/-- A new name whose earlier places are all there is made without a change of the cache. -/
theorem leadsTo_entry (h : i ≤ cache.size) (ws : List Waiting) :
    LeadsTo a ⟨.asked (.newName i), ws, cache⟩ ⟨.answered (.ok (entry a cache i)), ws, cache⟩ := by
  unfold entry
  split
  · rename_i hlt
    exact .of_next (next_letter hlt ws cache)
  · rename_i hge
    have hstem := stem_lt hge
    refine .head (next_stem hge ws cache) ?_
    exact LeadsTo.trans (leadsTo_found (by omega) _) (.of_next (next_behind _ i ws cache))

/-- **A round adds one name**, the new one for the place behind the last. -/
theorem leadsTo_round (h : cache.size ≤ i) (ws : List Waiting) :
    LeadsTo a ⟨.asked (.name i), ws, cache⟩
      ⟨.asked (.name i), ws, cache.push (entry a cache cache.size)⟩ := by
  have hbegin : next a ⟨.asked (.name i), ws, cache⟩ =
      some ⟨.asked (.newName cache.size), .round i cache.size :: ws, cache⟩ := by
    rw [next, if_pos (by omega)]
  refine .head hbegin ?_
  exact LeadsTo.trans (leadsTo_entry (Nat.le_refl _) _) (.of_next rfl)

/-- Rounds follow each other as in `fill`, however many of them are counted there. -/
theorem leadsTo_fill (i : Nat) (cache : NameCache) (ws : List Waiting) (rounds : Nat) :
    LeadsTo a ⟨.asked (.name i), ws, cache⟩
      ⟨.asked (.name i), ws, fill a cache i rounds⟩ := by
  induction rounds generalizing cache with
  | zero =>
    rw [fill_zero]
    exact .refl
  | succ rounds ih =>
    by_cases h : cache.size ≤ i
    · rw [fill_succ h]
      exact LeadsTo.trans (leadsTo_round h ws) (ih _)
    · rw [fill_of_lt (by omega)]
      exact .refl

theorem leadsTo_name (i : Nat) (cache : NameCache) (ws : List Waiting) :
    LeadsTo a ⟨.asked (.name i), ws, cache⟩
      ⟨.answered (.ok (name a cache i).1), ws, (name a cache i).2⟩ := by
  have hlt : i < (fill a cache i (i + 1 - cache.size)).size := by
    rw [size_fill]
    omega
  rw [name]
  exact LeadsTo.trans (leadsTo_fill i cache ws _) (leadsTo_found hlt ws)

theorem leadsTo_newName (i : Nat) (cache : NameCache) (ws : List Waiting) :
    LeadsTo a ⟨.asked (.newName i), ws, cache⟩
      ⟨.answered (.ok (newName a cache i).1), ws, (newName a cache i).2⟩ := by
  rw [newName]
  split
  · rename_i hlt
    exact .of_next (next_letter hlt ws cache)
  · rename_i hge
    refine .head (next_stem hge ws cache) ?_
    exact LeadsTo.trans (leadsTo_name _ cache _) (.of_next (next_behind _ i ws _))

end Moment

/-- The call comes to an answer and leaves a cache behind: from whatever moment of its run, the run
    goes on to there, where nothing follows. -/
def Call.Ends (a : Alphabet) (cache : NameCache) (c : Call) (r : Except NameProblem Text)
    (grown : NameCache) : Prop :=
  ∀ m, (c.start cache).LeadsTo a m → m.LeadsTo a ⟨.answered r, [], grown⟩

theorem Call.ends_of_leadsTo {c : Call} {r : Except NameProblem Text}
    (h : (c.start cache).LeadsTo a ⟨.answered r, [], grown⟩) : c.Ends a cache r grown :=
  fun _ hm => h.from_between (Moment.next_answered r grown) hm

theorem ends_name (a : Alphabet) (cache : NameCache) (i : Nat) :
    (Call.name i).Ends a cache (.ok (name a cache i).1) (name a cache i).2 :=
  Call.ends_of_leadsTo (Moment.leadsTo_name i cache [])

theorem ends_newName (a : Alphabet) (cache : NameCache) (i : Nat) :
    (Call.newName i).Ends a cache (.ok (newName a cache i).1) (newName a cache i).2 :=
  Call.ends_of_leadsTo (Moment.leadsTo_newName i cache [])

theorem ends_name_of_neg {n : Int} (h : n < 0) :
    (Call.name n).Ends a cache (found cache n) cache := by
  refine Call.ends_of_leadsTo (.of_next ?_)
  rw [Call.start, Moment.next, if_neg (by omega)]

theorem ends_newName_of_neg {n : Int} (h : n < 0) :
    (Call.newName n).Ends a cache ((letterAt a n).map fun c => [c]) cache := by
  refine Call.ends_of_leadsTo (.of_next ?_)
  rw [Call.start, Moment.next, if_pos (by omega)]

/-! ## Order within a run -/

/-- Nobody waits, or a call of `newName` that was not made within a round. -/
def IsOuter (ws : List Waiting) : Prop := ws = [] ∨ ∃ i, ws = [.letter i]

theorem IsOuter.length_le {ws : List Waiting} (h : IsOuter ws) : ws.length ≤ 1 := by
  rcases h with rfl | ⟨i, rfl⟩
  · exact Nat.zero_le 1
  · exact Nat.le_refl 1

namespace Moment

variable {m m' : Moment}

/-- How a moment looks.  A round waits for the name of the place behind the last; what is asked for
    meanwhile is a name that is there. -/
inductive Orderly : Moment → Prop
  /-- The first call goes on, or is over. -/
  | alone {x : Activity} {cache : NameCache} : Orderly ⟨x, [], cache⟩
  /-- The first call was one of `newName` and has asked for an earlier name. -/
  | stem {x : Activity} {i : Int} {cache : NameCache} (h : ∀ j, x ≠ .asked (.newName j)) :
      Orderly ⟨x, [.letter i], cache⟩
  /-- A round has asked for the new name. -/
  | begun {i : Int} {ws : List Waiting} {cache : NameCache} (h : IsOuter ws) :
      Orderly ⟨.asked (.newName cache.size), .round i cache.size :: ws, cache⟩
  /-- The new name has asked for an earlier one. -/
  | nested {i k : Int} {j : Nat} {ws : List Waiting} {cache : NameCache} (h : IsOuter ws)
      (hj : j < cache.size) :
      Orderly ⟨.asked (.name j), .letter k :: .round i cache.size :: ws, cache⟩
  /-- The earlier name is there. -/
  | nestedAnswer {i k : Int} {r : Except NameProblem Text} {ws : List Waiting} {cache : NameCache}
      (h : IsOuter ws) : Orderly ⟨.answered r, .letter k :: .round i cache.size :: ws, cache⟩
  /-- The new name is there. -/
  | made {i : Int} {r : Except NameProblem Text} {ws : List Waiting} {cache : NameCache}
      (h : IsOuter ws) : Orderly ⟨.answered r, .round i cache.size :: ws, cache⟩

variable {x : Activity} {r : Except NameProblem Text} {ws : List Waiting}

/-- Once a round is over, nobody waits but those who waited before it. -/
theorem orderly_of_isOuter (hx : ∀ j, x ≠ .asked (.newName j)) (h : IsOuter ws) :
    Orderly ⟨x, ws, cache⟩ := by
  rcases h with rfl | ⟨i, rfl⟩
  · exact .alone
  · exact .stem hx

/-- A call begins in order when nobody waits for it but a new name for its stem. -/
theorem orderly_name {n : Int} (h : IsOuter ws)
    (hn : next a ⟨.asked (.name n), ws, cache⟩ = some m') : m'.Orderly := by
  rw [next] at hn
  split at hn <;> cases hn
  · exact .begun h
  · exact orderly_of_isOuter nofun h

/-- An answer goes to a caller outside of rounds in order. -/
theorem orderly_answer (h : IsOuter ws) (hn : next a ⟨.answered r, ws, cache⟩ = some m') :
    m'.Orderly := by
  rcases h with rfl | ⟨i, rfl⟩
  · rw [next_answered] at hn
    cases hn
  · cases r <;> cases hn <;> exact .alone

/-- What follows an orderly moment is orderly. -/
theorem Orderly.next (h : m.Orderly) (hn : m.next a = some m') : m'.Orderly := by
  cases h with
  | @alone x cache =>
    match x with
    | .asked (.name n) => exact orderly_name (.inl rfl) hn
    | .asked (.newName n) =>
      rw [Moment.next] at hn
      split at hn <;> cases hn
      · exact .alone
      · exact .stem nofun
    | .answered r => exact orderly_answer (.inl rfl) hn
  | @stem x i cache hx =>
    match x with
    | .asked (.name n) => exact orderly_name (.inr ⟨i, rfl⟩) hn
    | .asked (.newName n) => exact absurd rfl (hx n)
    | .answered r => exact orderly_answer (.inr ⟨i, rfl⟩) hn
  | @begun i ws cache hws =>
    -- the place behind the last needs an earlier one, which is not the place itself
    by_cases hlt : cache.size < a.size
    · rw [next_letter hlt] at hn
      cases hn
      exact .made hws
    · rw [next_stem hlt] at hn
      cases hn
      exact .nested hws (stem_lt hlt)
  | @nested i k j ws cache hws hj =>
    rw [Moment.next, if_neg (by omega)] at hn
    cases hn
    exact .nestedAnswer hws
  | @nestedAnswer i k r ws cache hws => cases r <;> cases hn <;> exact .made hws
  | @made i r ws cache hws => cases r <;> cases hn <;> exact orderly_of_isOuter nofun hws

theorem LeadsTo.orderly (h : m.LeadsTo a m') (hm : m.Orderly) : m'.Orderly := by
  induction h with
  | refl => exact hm
  | tail _ hn ih => exact ih.next hn

/-! ## The cache within a run -/

/-- From one moment to the next the cache stays, or a round adds its name and looks again. -/
theorem next_cases (h : m.next a = some m') :
    m'.cache = m.cache ∨ ∃ t i place ws cache,
      m = ⟨.answered (.ok t), .round i place :: ws, cache⟩ ∧
        m' = ⟨.asked (.name i), ws, cache.push t⟩ := by
  match m with
  | ⟨.asked (.name i), ws, cache⟩ =>
    rw [next] at h
    split at h <;> cases h <;> exact .inl rfl
  | ⟨.asked (.newName i), ws, cache⟩ =>
    rw [next] at h
    split at h <;> cases h <;> exact .inl rfl
  | ⟨.answered (.ok t), .round i place :: ws, cache⟩ =>
    cases h
    exact .inr ⟨t, i, place, ws, cache, rfl, rfl⟩
  | ⟨.answered (.ok t), .letter i :: ws, cache⟩ =>
    cases h
    exact .inl rfl
  | ⟨.answered (.error e), w :: ws, cache⟩ =>
    cases h
    exact .inl rfl
  | ⟨.answered r, [], cache⟩ =>
    rw [next_answered] at h
    cases h

theorem LeadsTo.cache_prefix (h : m.LeadsTo a m') : m.cache.toList <+: m'.cache.toList := by
  induction h with
  | refl => exact List.prefix_refl _
  | tail _ hn ih =>
    rcases next_cases hn with hcache | ⟨t, i, place, ws, cache, rfl, rfl⟩
    · rw [hcache]
      exact ih
    · rw [Array.toList_push]
      exact ih.trans (List.prefix_append _ _)

/-- What is true of the cache at a moment of a run that began with the cache `before`. -/
structure InPlace (a : Alphabet) (before : NameCache) (m : Moment) : Prop where
  /-- The names that were there at the start stay. -/
  kept : before.toList <+: m.cache.toList
  /-- While a round is under way, the place it makes a name for is the one behind the last. -/
  place_eq : ∀ i place, .round i place ∈ m.waiting → place = m.cache.size
  /-- A name that a round needs for its own is there, and is the answer at once. -/
  nested_found : ∀ n k i place ws, m.activity = .asked (.name n) →
    m.waiting = .letter k :: .round i place :: ws →
      0 ≤ n ∧ n < m.cache.size ∧ ∃ t, m.cache[n.toNat]? = some t ∧
        m.next a = some ⟨.answered (.ok t), m.waiting, m.cache⟩
  /-- A round that begins leads to the next one, with one more name: the one made for the place, for
      which nothing was added. -/
  round_adds : ∀ n, m.activity = .asked (.name n) → (m.cache.size : Int) ≤ n →
    ∃ t, newNameAt a m.cache m.cache.size = .ok (t, m.cache) ∧
      m.LeadsTo a ⟨.asked (.name n), m.waiting, m.cache.push t⟩
  /-- Nothing is added but by the end of a round. -/
  added : ∀ m', m.next a = some m' → m'.cache = m.cache ∨ ∃ t i ws,
    m = ⟨.answered (.ok t), .round i m.cache.size :: ws, m.cache⟩ ∧
      m' = ⟨.asked (.name i), ws, m.cache.push t⟩
  /-- Three calls wait at most, however large the number. -/
  shallow : m.waiting.length ≤ 3

/-- The only round that waits is the one that nobody within a round waits for. -/
theorem place_eq_of_mem {i j : Int} {place p : Nat} (h : IsOuter ws)
    (hmem : .round i place ∈ Waiting.round j p :: ws) : place = p := by
  rcases List.mem_cons.1 hmem with heq | hmem
  · cases heq
    rfl
  · rcases h with rfl | ⟨k, rfl⟩ <;> simp at hmem

theorem Orderly.place_eq (h : m.Orderly) {i : Int} {place : Nat}
    (hmem : .round i place ∈ m.waiting) : place = m.cache.size := by
  cases h with
  | alone => cases hmem
  | stem => simp at hmem
  | begun hws => exact place_eq_of_mem hws hmem
  | nested hws => exact place_eq_of_mem hws (by simpa using hmem)
  | nestedAnswer hws => exact place_eq_of_mem hws (by simpa using hmem)
  | made hws => exact place_eq_of_mem hws hmem

theorem Orderly.shallow (h : m.Orderly) : m.waiting.length ≤ 3 := by
  cases h with
  | alone => exact Nat.zero_le 3
  | stem => exact Nat.le_add_left 1 2
  | begun hws | made hws =>
    have hlength := hws.length_le
    simp only [List.length_cons]
    omega
  | nested hws | nestedAnswer hws =>
    have hlength := hws.length_le
    simp only [List.length_cons]
    omega

theorem Orderly.nested_found (h : m.Orderly) {n k i : Int} {place : Nat}
    (hx : m.activity = .asked (.name n)) (hw : m.waiting = .letter k :: .round i place :: ws) :
    ∃ j : Nat, n = j ∧ j < m.cache.size := by
  cases h with
  | alone => cases hw
  | stem => cases hw
  | begun => cases hx
  | @nested _ _ j _ _ _ hj =>
    cases hx
    exact ⟨j, rfl, hj⟩
  | nestedAnswer => cases hx
  | made => cases hx

theorem InPlace.of_orderly {before : NameCache} (h : m.Orderly)
    (hb : before.toList <+: m.cache.toList) : m.InPlace a before where
  kept := hb
  place_eq _ _ := h.place_eq
  nested_found n k i place ws hx hw := by
    obtain ⟨j, rfl, hj⟩ := h.nested_found hx hw
    refine ⟨by omega, by omega, m.cache[j], ?_, ?_⟩
    · rw [Int.toNat_natCast, Array.getElem?_eq_getElem hj]
    · obtain ⟨x, waiting, cache⟩ := m
      cases hx
      rw [Moment.next, if_neg (by simpa using hj), found_natCast hj]
      simp only [Array.getD, dif_pos hj]
      rfl
  round_adds n hx hn := by
    obtain ⟨x, waiting, cache⟩ := m
    cases hx
    obtain ⟨i, rfl⟩ := Int.eq_ofNat_of_zero_le (show 0 ≤ n by omega)
    refine ⟨entry a cache cache.size, ?_, leadsTo_round (by simpa using hn) waiting⟩
    exact congrArg Except.ok (newName_of_le (Nat.le_refl _))
  added m' hn := by
    rcases next_cases hn with hcache | ⟨t, i, place, ws, cache, rfl, rfl⟩
    · exact .inl hcache
    · have hplace : place = cache.size := h.place_eq List.mem_cons_self
      subst hplace
      exact .inr ⟨t, i, ws, rfl, rfl⟩
  shallow := h.shallow

end Moment

theorem inPlace_of_leadsTo {c : Call} {m : Moment} (h : (c.start cache).LeadsTo a m) :
    m.InPlace a cache :=
  .of_orderly (h.orderly .alone) h.cache_prefix

/-! ## The growth of the cache -/

/-- **The cache grows by the names that are missing.**  Whatever a cache holds, asking for a name
    comes to an end.  Afterwards the cache reaches to the name; if the name is only made, to the
    earlier name that it needs.  In between, a round adds one name at the place that it was made for,
    what it needs for that is there, and nothing that is there changes. -/
theorem growth_exact (a : Alphabet) (cache : NameCache) :
    (∀ i : Nat, ∃ t grown, (Call.name i).Ends a cache (.ok t) grown ∧
      nameAt a cache i = .ok (t, grown) ∧ grown.size = max cache.size (i + 1)) ∧
    (∀ i : Nat, ∃ t grown, (Call.newName i).Ends a cache (.ok t) grown ∧
      newNameAt a cache i = .ok (t, grown) ∧
      grown.size = if i < a.size then cache.size else max cache.size (i / a.size)) ∧
    (∀ n : Int, n < 0 → ∃ r r', (Call.name n).Ends a cache r cache ∧
      nameAt a cache n = r.map (·, cache) ∧
      (Call.newName n).Ends a cache r' cache ∧ newNameAt a cache n = r'.map (·, cache)) ∧
    ∀ (c : Call) (m : Moment), (c.start cache).LeadsTo a m → m.InPlace a cache := by
  refine ⟨?_, ?_, ?_, fun _ _ h => inPlace_of_leadsTo h⟩
  · intro i
    exact ⟨_, _, ends_name a cache i, rfl, size_name a cache i⟩
  · intro i
    refine ⟨_, _, ends_newName a cache i, rfl, ?_⟩
    rw [size_newName]
    split
    · rename_i hlt
      rw [Nat.div_eq_of_lt hlt, Nat.max_zero]
    · rfl
  · intro n hn
    obtain ⟨i, rfl⟩ := Int.eq_negSucc_of_lt_zero hn
    exact ⟨_, _, ends_name_of_neg hn, nameAt_negSucc_eq a cache i, ends_newName_of_neg hn,
      newNameAt_negSucc_eq a cache i⟩

/-- A cache of small letters may hold anything: with a stranger at each of 26 places, the name for
    place 27 is made in two rounds, the first of which needs place 0. -/
theorem growth_exact_strangers :
    let strangers : NameCache := Array.replicate 26 ['?']
    let nested : Moment := ⟨.asked (.name 0), [.letter 26, .round 27 26], strangers⟩
    (∃ t grown, (Call.name 27).Ends .latin strangers (.ok t) grown ∧
      nameAt .latin strangers 27 = .ok (t, grown) ∧ grown.size = 28) ∧
    (∃ t grown, (Call.newName 800).Ends .latin strangers (.ok t) grown ∧
      newNameAt .latin strangers 800 = .ok (t, grown) ∧ grown.size = 30) ∧
    (-1 : Int) < 0 ∧
    (∃ r r', (Call.name (-1)).Ends .latin strangers r strangers ∧
      nameAt .latin strangers (-1) = r.map (·, strangers) ∧
      (Call.newName (-1)).Ends .latin strangers r' strangers ∧
      newNameAt .latin strangers (-1) = r'.map (·, strangers)) ∧
    ((Call.name 27).start strangers).LeadsTo .latin nested ∧ nested.InPlace .latin strangers := by
  intro strangers nested
  have hled : ((Call.name 27).start strangers).LeadsTo .latin nested :=
    .head rfl (.of_next (Moment.next_stem (i := 26) (by decide) _ strangers))
  obtain ⟨hname, hnew, hneg, hplace⟩ := growth_exact .latin strangers
  exact ⟨hname 27, hnew 800, by decide, hneg (-1) (by decide), hled, hplace _ nested hled⟩

end NameCache

end FreshNames
