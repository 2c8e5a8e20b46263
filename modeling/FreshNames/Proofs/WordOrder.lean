import FreshNames.Proofs.WordNumbers

/-!
# The order of words

Words come in the order of their numbers: the shorter ones first, and among words of one length the
one whose last differing character stands first in the alphabet.

* `Precedes` - this order, by the lengths and the last place where two words differ;
* `precedes_of_weight_lt` - a word with a smaller number comes first;
* `encode_precedes` - names are handed out in this order, and never become shorter.
-/

set_option autoImplicit false

namespace FreshNames.Alphabet

variable {a : Alphabet} {s t : Text}

/-- Two words are equally long, and at the last place where they differ the first one has the
    character that stands before the other in the alphabet. -/
def LastBefore (a : Alphabet) (s t : Text) : Prop :=
  s.length = t.length ∧
    ∃ (k : Nat) (hs : k < s.length) (ht : k < t.length),
      a.letters.idxOf s[k] < a.letters.idxOf t[k] ∧ ∀ m, k < m → s[m]? = t[m]?

/-- A word comes before another. -/
def Precedes (a : Alphabet) (s t : Text) : Prop := s.length < t.length ∨ a.LastBefore s t

theorem Precedes.length_le (h : a.Precedes s t) : s.length ≤ t.length := by
  rcases h with h | h
  · exact Nat.le_of_lt h
  · exact Nat.le_of_eq h.1

/-! ## In front of a word -/

/-- Words that only differ in their first character are told apart there. -/
theorem lastBefore_head {c d : Char} (h : a.letters.idxOf c < a.letters.idxOf d) (t : Text) :
    a.LastBefore (c :: t) (d :: t) := by
  refine ⟨rfl, 0, by simp, by simp, h, ?_⟩
  intro m hm
  obtain ⟨m, rfl⟩ := Nat.exists_eq_succ_of_ne_zero (Nat.ne_of_gt hm)
  simp

/-- Whatever comes in front, the last place where words differ stays the last one. -/
theorem LastBefore.cons (h : a.LastBefore s t) (c d : Char) :
    a.LastBefore (c :: s) (d :: t) := by
  obtain ⟨hlen, k, hs, ht, hlt, hrest⟩ := h
  refine ⟨by simp [hlen], k + 1, by simpa using hs, by simpa using ht, by simpa using hlt, ?_⟩
  intro m hm
  cases m with
  | zero => omega
  | succ m => simpa using hrest m (by omega)

theorem Precedes.cons (h : a.Precedes s t) (c d : Char) : a.Precedes (c :: s) (d :: t) := by
  rcases h with h | h
  · exact .inl (by simpa using h)
  · exact .inr (h.cons c d)

/-! ## Numbers and order -/

/-- Words with one number are one word. -/
theorem eq_of_weight_eq (hs : a.Spells s) (ht : a.Spells t) (h : a.weight s = a.weight t) :
    s = t := by
  obtain ⟨ds, rfl⟩ := exists_digits hs
  obtain ⟨es, rfl⟩ := exists_digits ht
  rw [weight_map_letter, weight_map_letter] at h
  have hdigits := congrArg (Numeral.digits a.size a.size_pos) h
  rw [Numeral.digits_value, Numeral.digits_value] at hdigits
  rw [hdigits]

/-- **The smaller number comes first.** -/
theorem precedes_of_weight_lt (hs : a.Spells s) (ht : a.Spells t) (h : a.weight s < a.weight t) :
    a.Precedes s t := by
  -- the rests decide, being worth a whole round of the first character; if they are equal, that does
  induction s generalizing t with
  | nil =>
    cases t with
    | nil => simp at h
    | cons d t => exact .inl (by simp)
  | cons c s ih =>
    cases t with
    | nil => simp [weight] at h
    | cons d t =>
      have hc := hs.idxOf_head_lt
      have hd := ht.idxOf_head_lt
      simp only [weight] at h
      rcases Nat.lt_trichotomy (a.weight s) (a.weight t) with hlt | heq | hgt
      · exact (ih hs.tail ht.tail hlt).cons c d
      · obtain rfl := eq_of_weight_eq hs.tail ht.tail heq
        exact .inr (lastBefore_head (by omega) s)
      · have hround : a.size * (a.weight t + 1) ≤ a.size * a.weight s := Nat.mul_le_mul_left _ hgt
        rw [Nat.mul_add] at hround
        omega

/-- **Names come in strictly increasing order**: the name with the smaller number is shorter, or it
    is as long and comes first at the last place where the names differ.  So names never become
    shorter. -/
theorem encode_precedes (a : Alphabet) {i j : Int} (hi : 0 ≤ i) (hij : i < j) :
    ∃ s t, a.encode i = .ok s ∧ a.encode j = .ok t ∧ a.Precedes s t ∧ s.length ≤ t.length := by
  obtain ⟨m, rfl⟩ := Int.eq_ofNat_of_zero_le hi
  obtain ⟨n, rfl⟩ := Int.eq_ofNat_of_zero_le (by omega : 0 ≤ j)
  have hlt : a.weight (a.word m) < a.weight (a.word n) := by
    rw [weight_word, weight_word]
    omega
  have hprecedes := precedes_of_weight_lt (a.word_spells m) (a.word_spells n) hlt
  exact ⟨a.word m, a.word n, a.encode_natCast m, a.encode_natCast n, hprecedes,
    hprecedes.length_le⟩

/-- Over three letters a carry is made between the words with the numbers 5 and 6, and the one with
    number 12 is longer than that before it; over a single letter every word is. -/
theorem encode_precedes_carries :
    let xyz : Alphabet := ⟨['x', 'y', 'z'], by decide, by decide⟩
    let o : Alphabet := ⟨['o'], by decide, by decide⟩
    (0 ≤ (5 : Int) ∧ (5 : Int) < 6 ∧ ∃ s t, xyz.encode 5 = .ok s ∧ xyz.encode 6 = .ok t ∧
        xyz.Precedes s t ∧ s.length ≤ t.length) ∧
      (0 ≤ (11 : Int) ∧ (11 : Int) < 12 ∧ ∃ s t, xyz.encode 11 = .ok s ∧ xyz.encode 12 = .ok t ∧
        xyz.Precedes s t ∧ s.length ≤ t.length) ∧
      (0 ≤ (1 : Int) ∧ (1 : Int) < 2 ∧ ∃ s t, o.encode 1 = .ok s ∧ o.encode 2 = .ok t ∧
        o.Precedes s t ∧ s.length ≤ t.length) :=
  ⟨⟨by decide, by decide, encode_precedes _ (by decide) (by decide)⟩,
    ⟨by decide, by decide, encode_precedes _ (by decide) (by decide)⟩,
    ⟨by decide, by decide, encode_precedes _ (by decide) (by decide)⟩⟩

end FreshNames.Alphabet
