import FreshNames.Alphabet
import Mathlib.Algebra.BigOperators.Fin
import Mathlib.Tactic.Ring

/-!
# The numbers of words

A word over an alphabet of `N` characters has a number: its character at position `k`, the `p`-th of
the alphabet counted from one, stands for `p * N ^ k`, and numbers begin at zero.  This file shows
that `Alphabet.word` is the way back:

* `weight_eq_sum` - the sum over the positions of a word, by recursion on the word;
* `weight_word`, `word_of_weight_eq` - going from numbers to words and back, in both orders;
* `word_injective` - different numbers have different words;
* `encode_bijective` - encoding is a bijection between the natural numbers and the words that are
  not empty.
-/

set_option autoImplicit false

namespace FreshNames.Alphabet

variable {a : Alphabet}

/-- The text consists of characters of the alphabet. -/
def Spells (a : Alphabet) (t : Text) : Prop := ∀ c ∈ t, c ∈ a.letters

theorem Spells.tail {c : Char} {t : Text} (h : a.Spells (c :: t)) : a.Spells t :=
  fun d hd => h d (List.mem_cons_of_mem c hd)

theorem Spells.idxOf_head_lt {c : Char} {t : Text} (h : a.Spells (c :: t)) :
    a.letters.idxOf c < a.size :=
  List.idxOf_lt_length_of_mem (h c List.mem_cons_self)

/-- The number of a word, as a sum over its positions. -/
def number (a : Alphabet) (t : Text) : Int :=
  (∑ k : Fin t.length, ((a.letters.idxOf t[k] : Int) + 1) * (a.size : Int) ^ (k : Nat)) - 1

/-- One more than the number of a word, character by character. -/
def weight (a : Alphabet) : Text → Nat
  | [] => 0
  | c :: rest => a.letters.idxOf c + 1 + a.size * weight a rest

/-! ## The sum -/

theorem weight_eq_sum (a : Alphabet) (t : Text) :
    (a.weight t : Int) =
      ∑ k : Fin t.length, ((a.letters.idxOf t[k] : Int) + 1) * (a.size : Int) ^ (k : Nat) := by
  induction t with
  | nil => simp [weight]
  | cons c rest ih =>
    have htail : ∀ k : Fin rest.length,
        ((a.letters.idxOf (c :: rest)[k.succ] : Int) + 1) * (a.size : Int) ^ (k.succ : Nat) =
          a.size * (((a.letters.idxOf rest[k] : Int) + 1) * (a.size : Int) ^ (k : Nat)) := by
      intro k
      simp only [Fin.getElem_fin, Fin.val_succ, List.getElem_cons_succ, pow_succ]
      ring
    show _ = ∑ k : Fin (rest.length + 1),
      ((a.letters.idxOf (c :: rest)[k] : Int) + 1) * (a.size : Int) ^ (k : Nat)
    rw [Fin.sum_univ_succ]
    simp only [htail]
    rw [← Finset.mul_sum, ← ih, weight]
    simp

theorem number_eq (a : Alphabet) (t : Text) : a.number t = a.weight t - 1 := by
  rw [number, weight_eq_sum]

theorem weight_pos {t : Text} (h : t ≠ []) : 0 < a.weight t := by
  cases t with
  | nil => exact absurd rfl h
  | cons c rest => rw [weight]; omega

/-! ## Digits and characters -/

theorem idxOf_letter (a : Alphabet) (d : Fin a.size) : a.letters.idxOf (a.letter d) = d :=
  a.distinct.idxOf_getElem d.val d.isLt

theorem weight_map_letter (a : Alphabet) (ds : List (Fin a.size)) :
    a.weight (ds.map a.letter) = Numeral.value a.size ds := by
  induction ds with
  | nil => rfl
  | cons d ds ih => rw [List.map_cons, weight, Numeral.value, ih, idxOf_letter]

theorem exists_digits {t : Text} (h : a.Spells t) : ∃ ds : List (Fin a.size), t = ds.map a.letter := by
  induction t with
  | nil => exact ⟨[], rfl⟩
  | cons c rest ih =>
    obtain ⟨ds, hds⟩ := ih h.tail
    obtain ⟨p, hp, hc⟩ := List.getElem_of_mem (h c (List.mem_cons_self ..))
    exact ⟨⟨p, hp⟩ :: ds, by rw [List.map_cons, ← hds]; exact congrArg (· :: rest) hc.symm⟩

/-! ## There and back -/

theorem weight_word (a : Alphabet) (n : Nat) : a.weight (a.word n) = n + 1 := by
  rw [word, weight_map_letter, Numeral.value_digits]

theorem word_of_weight_eq {t : Text} {n : Nat} (h : a.Spells t) (hw : a.weight t = n + 1) :
    a.word n = t := by
  obtain ⟨ds, rfl⟩ := exists_digits h
  rw [weight_map_letter] at hw
  rw [word, ← hw, Numeral.digits_value]

theorem word_spells (a : Alphabet) (n : Nat) : a.Spells (a.word n) := fun _ => mem_letters_of_mem_word

theorem word_injective (a : Alphabet) : Function.Injective a.word := by
  intro m n h
  have hw := congrArg a.weight h
  rw [weight_word, weight_word] at hw
  omega

/-- **Encoding is a bijection between the numbers from zero on and the words that are not empty.** -/
theorem encode_bijective (a : Alphabet) :
    (∀ i : Int, 0 ≤ i → ∃ t, a.encode i = .ok t ∧ t ≠ [] ∧ a.Spells t ∧ a.number t = i) ∧
      ∀ t, t ≠ [] → a.Spells t → 0 ≤ a.number t ∧ a.encode (a.number t) = .ok t := by
  constructor
  · intro i hi
    obtain ⟨n, rfl⟩ := Int.eq_ofNat_of_zero_le hi
    refine ⟨a.word n, a.encode_natCast n, a.word_ne_nil n, a.word_spells n, ?_⟩
    rw [number_eq, weight_word]
    omega
  · intro t hne hspell
    have hpos := weight_pos (a := a) hne
    obtain ⟨n, hn⟩ : ∃ n, a.weight t = n + 1 := ⟨a.weight t - 1, by omega⟩
    have hnum : a.number t = n := by rw [number_eq, hn]; omega
    rw [hnum, encode_natCast, word_of_weight_eq hspell hn]
    exact ⟨by omega, rfl⟩

/-- The word with number nine over three letters, and a word over a single one. -/
theorem encode_bijective_small :
    let xyz : Alphabet := ⟨['x', 'y', 'z'], by decide, by decide⟩
    let o : Alphabet := ⟨['o'], by decide, by decide⟩
    (∃ t, xyz.encode 9 = .ok t ∧ t ≠ [] ∧ xyz.Spells t ∧ xyz.number t = 9) ∧
      0 ≤ o.number ['o', 'o', 'o'] ∧ o.encode (o.number ['o', 'o', 'o']) = .ok ['o', 'o', 'o'] :=
  ⟨(encode_bijective _).1 9 (by decide), (encode_bijective _).2 _ (by decide) (by simp [Spells])⟩

end FreshNames.Alphabet
