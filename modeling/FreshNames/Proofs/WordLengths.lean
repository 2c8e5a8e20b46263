import FreshNames.Proofs.WordNumbers
import Mathlib.Algebra.Order.BigOperators.Group.Finset
import Mathlib.Data.Int.ConditionallyCompleteOrder
import Mathlib.Data.Int.Interval
import Mathlib.Data.Set.Card

/-!
# The lengths of words

Over an alphabet of `N` characters there are `N ^ L` words of length `L`, and their numbers are next
to each other: they begin behind those of all shorter words, of which there are
`N + N ^ 2 + … + N ^ (L - 1)`.  So no short word is left out before a longer one is used.

* `sumOfPowers` - this number of words;
* `sumOfPowers_lt_weight`, `weight_le_sumOfPowers` - the numbers of a word's length;
* `length_word_le_iff`, `length_word_iff` - the length of the word with a given number;
* `encode_bijOn` - a range of numbers and a set of words that belong together;
* `encode_lengths` - the numbers of the words of one length, and of those that are no longer.
-/

set_option autoImplicit false

namespace FreshNames.Alphabet

open Finset

variable {a : Alphabet} {t : Text}

/-- The sum of the first `L` powers of the size of an alphabet, from the first power on. -/
def sumOfPowers (a : Alphabet) (L : Nat) : Nat := ∑ k ∈ range L, a.size ^ (k + 1)

/-- The words of length `L`. -/
def wordsOfLength (a : Alphabet) (L : Nat) : Set Text := {t | a.Spells t ∧ t.length = L}

/-- The words of length `L` at most, without the empty one. -/
def wordsUpTo (a : Alphabet) (L : Nat) : Set Text := {t | a.Spells t ∧ t ≠ [] ∧ t.length ≤ L}

theorem word_mem_wordsOfLength_iff {L n : Nat} :
    a.word n ∈ a.wordsOfLength L ↔ (a.word n).length = L := by
  simp [wordsOfLength, word_spells]

theorem word_mem_wordsUpTo_iff {L n : Nat} : a.word n ∈ a.wordsUpTo L ↔ (a.word n).length ≤ L := by
  simp [wordsUpTo, word_spells, word_ne_nil]

/-! ## The sum of the powers -/

theorem sumOfPowers_zero (a : Alphabet) : a.sumOfPowers 0 = 0 := rfl

theorem sumOfPowers_succ (a : Alphabet) (L : Nat) :
    a.sumOfPowers (L + 1) = a.sumOfPowers L + a.size ^ (L + 1) :=
  sum_range_succ _ _

/-- A place more in front of all words multiplies the sum. -/
theorem sumOfPowers_succ' (a : Alphabet) (L : Nat) :
    a.sumOfPowers (L + 1) = a.size + a.size * a.sumOfPowers L := by
  rw [sumOfPowers, sum_range_succ', sumOfPowers, mul_sum]
  simp only [pow_succ', zero_add, pow_zero, mul_one]
  omega

theorem sumOfPowers_mono (a : Alphabet) : Monotone a.sumOfPowers :=
  monotone_nat_of_le_succ fun L => by
    rw [sumOfPowers_succ]
    exact Nat.le_add_right _ _

/-! ## The numbers of a length -/

theorem weight_le_sumOfPowers (h : a.Spells t) : a.weight t ≤ a.sumOfPowers t.length := by
  induction t with
  | nil => simp [weight]
  | cons c t ih =>
    have hc := h.idxOf_head_lt
    have hrest : a.size * a.weight t ≤ a.size * a.sumOfPowers t.length :=
      Nat.mul_le_mul_left _ (ih h.tail)
    rw [weight, List.length_cons, sumOfPowers_succ']
    omega

theorem sumOfPowers_lt_weight (a : Alphabet) (c : Char) (t : Text) :
    a.sumOfPowers t.length < a.weight (c :: t) := by
  induction t generalizing c with
  | nil =>
    rw [List.length_nil, sumOfPowers_zero, weight]
    omega
  | cons d t ih =>
    have hrest : a.size * (a.sumOfPowers t.length + 1) ≤ a.size * a.weight (d :: t) :=
      Nat.mul_le_mul_left _ (ih d)
    rw [weight, List.length_cons, sumOfPowers_succ']
    rw [Nat.mul_add] at hrest
    omega

/-- The number of a word lies between the sums for its length. -/
theorem weight_bounds (h : a.Spells t) (hne : t ≠ []) :
    a.sumOfPowers (t.length - 1) < a.weight t ∧ a.weight t ≤ a.sumOfPowers t.length := by
  cases t with
  | nil => exact absurd rfl hne
  | cons c t => exact ⟨a.sumOfPowers_lt_weight c t, weight_le_sumOfPowers h⟩

theorem length_word_le_iff (a : Alphabet) {L : Nat} (n : Nat) :
    (a.word n).length ≤ L ↔ n < a.sumOfPowers L := by
  have hbounds := weight_bounds (a.word_spells n) (a.word_ne_nil n)
  rw [weight_word] at hbounds
  constructor
  · intro hle
    have := a.sumOfPowers_mono hle
    omega
  · intro hlt
    -- the numbers of longer words begin behind the sum
    by_contra hgt
    have := a.sumOfPowers_mono (Nat.le_sub_one_of_lt (Nat.lt_of_not_le hgt))
    omega

/-- **The length of a word, told by its number.** -/
theorem length_word_iff (a : Alphabet) {L : Nat} (n : Nat) :
    (a.word n).length = L ↔ a.sumOfPowers (L - 1) ≤ n ∧ n < a.sumOfPowers L := by
  have hpos : 0 < (a.word n).length := List.length_pos_iff.2 (a.word_ne_nil n)
  have hlow := a.length_word_le_iff (L := L - 1) n
  have hhigh := a.length_word_le_iff (L := L) n
  omega

/-! ## Numbers and words that belong together -/

/-- If a set of words holds those whose numbers are in a set of numbers, then these numbers are
    encoded as these words, each by exactly one of them. -/
theorem encode_bijOn {I : Set Int} {W : Set Text} (hI : ∀ i ∈ I, 0 ≤ i)
    (hW : ∀ t ∈ W, a.Spells t ∧ t ≠ []) (h : ∀ n : Nat, (n : Int) ∈ I ↔ a.word n ∈ W) :
    Set.BijOn a.encode I (Except.ok '' W) := by
  refine ⟨?_, ?_, ?_⟩
  · intro i hi
    obtain ⟨n, rfl⟩ := Int.eq_ofNat_of_zero_le (hI i hi)
    exact ⟨a.word n, (h n).1 hi, rfl⟩
  · intro i hi j hj hij
    obtain ⟨m, rfl⟩ := Int.eq_ofNat_of_zero_le (hI i hi)
    obtain ⟨n, rfl⟩ := Int.eq_ofNat_of_zero_le (hI j hj)
    have hword : a.word m = a.word n := Except.ok.inj hij
    rw [a.word_injective hword]
  · rintro _ ⟨t, ht, rfl⟩
    obtain ⟨hspell, hne⟩ := hW t ht
    obtain ⟨n, hn⟩ := Nat.exists_eq_succ_of_ne_zero (Nat.ne_of_gt (weight_pos (a := a) hne))
    have hword := word_of_weight_eq hspell hn
    refine ⟨n, (h n).2 (hword ▸ ht), ?_⟩
    rw [encode_natCast, hword]

/-- **No short word is left out.**  A name has length `L` if its number is one of the `N ^ L` behind
    the sum of the smaller powers of `N`, and the names with these numbers are all the words of this
    length, each once.  So the first names are the words that are no longer. -/
theorem encode_lengths (a : Alphabet) {L : Nat} (hL : 1 ≤ L) :
    (∀ i : Int, 0 ≤ i → ∃ t, a.encode i = .ok t ∧
      (t.length = L ↔ (a.sumOfPowers (L - 1) : Int) ≤ i ∧ i < a.sumOfPowers L)) ∧
    (Set.Ico (a.sumOfPowers (L - 1) : Int) (a.sumOfPowers L)).ncard = a.size ^ L ∧
    Set.BijOn a.encode (Set.Ico (a.sumOfPowers (L - 1) : Int) (a.sumOfPowers L))
      (Except.ok '' a.wordsOfLength L) ∧
    Set.BijOn a.encode (Set.Ico 0 (a.sumOfPowers L : Int)) (Except.ok '' a.wordsUpTo L) := by
  obtain ⟨M, rfl⟩ : ∃ M, L = M + 1 := ⟨L - 1, by omega⟩
  refine ⟨?_, ?_, ?_, ?_⟩
  · intro i hi
    obtain ⟨n, rfl⟩ := Int.eq_ofNat_of_zero_le hi
    refine ⟨a.word n, a.encode_natCast n, ?_⟩
    rw [length_word_iff]
    omega
  · rw [Set.ncard_eq_toFinset_card', Set.toFinset_Ico, Int.card_Ico, Nat.add_sub_cancel,
      sumOfPowers_succ]
    omega
  · refine encode_bijOn ?_ ?_ ?_
    · intro i hi
      have := hi.1
      omega
    · rintro t ⟨hspell, hlen⟩
      exact ⟨hspell, List.ne_nil_of_length_eq_add_one hlen⟩
    · intro n
      rw [word_mem_wordsOfLength_iff, length_word_iff, Set.mem_Ico]
      omega
  · refine encode_bijOn (fun i hi => hi.1) ?_ ?_
    · rintro t ⟨hspell, hne, -⟩
      exact ⟨hspell, hne⟩
    · intro n
      rw [word_mem_wordsUpTo_iff, length_word_le_iff, Set.mem_Ico]
      omega

/-- Over three letters the numbers from three to eleven are those of the nine words of length two;
    over a single letter, the only word of length two has number one. -/
theorem encode_lengths_small :
    let xyz : Alphabet := ⟨['x', 'y', 'z'], by decide, by decide⟩
    let o : Alphabet := ⟨['o'], by decide, by decide⟩
    1 ≤ 2 ∧
      ((∀ i : Int, 0 ≤ i → ∃ t, xyz.encode i = .ok t ∧ (t.length = 2 ↔ 3 ≤ i ∧ i < 12)) ∧
        (Set.Ico (3 : Int) 12).ncard = 9 ∧
        Set.BijOn xyz.encode (Set.Ico 3 12) (Except.ok '' xyz.wordsOfLength 2) ∧
        Set.BijOn xyz.encode (Set.Ico 0 12) (Except.ok '' xyz.wordsUpTo 2)) ∧
      (∀ i : Int, 0 ≤ i → ∃ t, o.encode i = .ok t ∧ (t.length = 2 ↔ 1 ≤ i ∧ i < 2)) ∧
        (Set.Ico (1 : Int) 2).ncard = 1 ∧
        Set.BijOn o.encode (Set.Ico 1 2) (Except.ok '' o.wordsOfLength 2) ∧
        Set.BijOn o.encode (Set.Ico 0 2) (Except.ok '' o.wordsUpTo 2) := by
  intro xyz o
  exact ⟨by decide, encode_lengths xyz (L := 2) (by decide), encode_lengths o (L := 2) (by decide)⟩

end FreshNames.Alphabet
