import FreshNames.Alphabet
import Mathlib.Algebra.Field.Rat
import Mathlib.Data.Finset.Card
import Mathlib.Tactic.Ring

/-!
# Equal values

Values of different types may be equal, and a set keeps only one of them.  Lists and records are not
compared; no set can keep them.

* `Value.worth?` - what a value counts as in a set; `same_iff` - values that count as the same are
  equal, also across types;
* `Value.gather` - a set that is filled item by item; `exists_gather_length_iff` - when it is as large
  as the list of the items;
* `Alphabet.hasDuplicates_eq_false_iff` - items that are compared with each other.
-/

set_option autoImplicit false

namespace FreshNames

namespace Value

variable {v w item : Value} {items kept : List Value}

/-! ## Equality across types -/

/-- What a value counts as in a set. -/
inductive Worth
  | nothing
  | number (q : ℚ)
  | infinity (isNegative : Bool)
  | text (t : Text)
  deriving DecidableEq

/-- What a number counts as: a finite one as the rational number that it is, exactly. -/
def Worth.ofAmount : Amount → Worth
  | .finite m e => .number (m * 2 ^ e)
  | .infinite isNegative => .infinity isNegative

@[simp] theorem Worth.ofAmount_ne_nothing (a : Amount) : Worth.ofAmount a ≠ .nothing := by
  cases a <;> simp [ofAmount]

@[simp] theorem Worth.ofAmount_ne_text (a : Amount) (t : Text) : Worth.ofAmount a ≠ .text t := by
  cases a <;> simp [ofAmount]

/-- Truth values and numbers of all types count as the numbers that they are; lists and records as
    nothing that a set could keep. -/
def worth? : Value → Option Worth
  | null => some .nothing
  | bool b => some (.number (if b then 1 else 0))
  | int n => some (.number n)
  | float x => some (.ofAmount x.amount)
  | text t => some (.text t)
  | list _ => none
  | record _ => none

theorem isHashable_iff : v.isHashable = true ↔ v.worth? ≠ none := by
  cases v <;> simp [isHashable, worth?]

theorem not_isHashable_iff : (!v.isHashable) = true ↔ v.worth? = none := by
  cases v <;> simp [isHashable, worth?]

/-- What a set can keep is nothing, a text or a number. -/
theorem worth_cases (h : v.worth? ≠ none) :
    v = null ∨ (∃ t, v = text t) ∨ ∃ a, v.amount? = some a := by
  cases v with
  | null => exact .inl rfl
  | text t => exact .inr (.inl ⟨t, rfl⟩)
  | bool b => exact .inr (.inr ⟨_, rfl⟩)
  | int n => exact .inr (.inr ⟨_, rfl⟩)
  | float x => exact .inr (.inr ⟨_, rfl⟩)
  | list items => exact absurd rfl h
  | record fields => exact absurd rfl h

theorem worth?_of_amount? {a : Amount} (h : v.amount? = some a) :
    v.worth? = some (.ofAmount a) := by
  cases v with
  | null => cases h
  | text t => cases h
  | list items => cases h
  | record fields => cases h
  | bool b =>
    cases h
    cases b <;> simp [worth?, Worth.ofAmount]
  | int n =>
    cases h
    simp [worth?, Worth.ofAmount]
  | float x =>
    cases h
    rfl

/-- Moving a number to a smaller exponent multiplies the mantissa. -/
theorem mul_zpow_eq_of_le {d e : Int} (h : e ≤ d) (m : Int) :
    (m : ℚ) * 2 ^ d = (m * 2 ^ (d - e).toNat : Int) * 2 ^ e := by
  have hshift : d = ((d - e).toNat : Int) + e := by omega
  conv_lhs => rw [hshift, zpow_add₀ (by decide : (2 : ℚ) ≠ 0), zpow_natCast]
  push_cast
  ring

theorem same_finite_iff {m d n e : Int} :
    (Amount.finite m d).same (.finite n e) = true ↔ (m : ℚ) * 2 ^ d = n * 2 ^ e := by
  have hpow : (2 : ℚ) ^ min d e ≠ 0 := zpow_ne_zero _ (by decide)
  rw [mul_zpow_eq_of_le (min_le_left d e) m, mul_zpow_eq_of_le (min_le_right d e) n,
    mul_left_inj' hpow, Int.cast_inj]
  exact beq_iff_eq

/-- Numbers are compared by what they are, not by how they are given. -/
theorem same_amount_iff {a b : Amount} :
    a.same b = true ↔ Worth.ofAmount a = Worth.ofAmount b := by
  cases a with
  | finite m d =>
    cases b with
    | finite n e => simpa [Worth.ofAmount] using same_finite_iff
    | infinite s => simp [Amount.same, Worth.ofAmount]
  | infinite r => cases b <;> simp [Amount.same, Worth.ofAmount]

theorem same_of_amount? {a b : Amount} (hv : v.amount? = some a) (hw : w.amount? = some b) :
    v.same w = a.same b := by
  unfold same
  split
  · cases hv
  · cases hv
  · rw [hv, hw]

/-- A number is equal to nothing else. -/
theorem same_eq_false_of_amount? {a : Amount} (hv : v.amount? = none) (hw : w.amount? = some a) :
    v.same w = false ∧ w.same v = false := by
  constructor
  · unfold same
    split
    · cases hw
    · cases hw
    · rw [hv]
  · unfold same
    split
    · cases hw
    · cases hw
    · rw [hv, hw]

/-- **Values are equal if they count as the same**, of whatever types they are. -/
theorem same_iff (hv : v.worth? ≠ none) (hw : w.worth? ≠ none) :
    v.same w = true ↔ v.worth? = w.worth? := by
  rcases worth_cases hv with rfl | ⟨s, rfl⟩ | ⟨a, ha⟩
  · rcases worth_cases hw with rfl | ⟨t, rfl⟩ | ⟨b, hb⟩
    · simp [same]
    · simp [same, worth?, amount?]
    · rw [(same_eq_false_of_amount? rfl hb).1, worth?_of_amount? hb]
      simp [worth?, (Worth.ofAmount_ne_nothing b).symm]
  · rcases worth_cases hw with rfl | ⟨t, rfl⟩ | ⟨b, hb⟩
    · simp [same, worth?, amount?]
    · simp [same, worth?]
    · rw [(same_eq_false_of_amount? rfl hb).1, worth?_of_amount? hb]
      simp [worth?, (Worth.ofAmount_ne_text b s).symm]
  · rcases worth_cases hw with rfl | ⟨t, rfl⟩ | ⟨b, hb⟩
    · rw [(same_eq_false_of_amount? rfl ha).2, worth?_of_amount? ha]
      simp [worth?]
    · rw [(same_eq_false_of_amount? rfl ha).2, worth?_of_amount? ha]
      simp [worth?]
    · rw [same_of_amount? ha hb, worth?_of_amount? ha, worth?_of_amount? hb, Option.some.injEq]
      exact same_amount_iff

theorem any_same_iff (hv : v.worth? ≠ none) (h : ∀ i ∈ items, i.worth? ≠ none) :
    items.any v.same = true ↔ v.worth? ∈ items.map worth? := by
  rw [List.any_eq_true, List.mem_map]
  constructor
  · rintro ⟨i, hi, hsame⟩
    exact ⟨i, hi, ((same_iff hv (h i hi)).1 hsame).symm⟩
  · rintro ⟨i, hi, hworth⟩
    exact ⟨i, hi, (same_iff hv (h i hi)).2 hworth.symm⟩

/-! ## Sets -/

/-- Joins an item to a set, unless one that is equal is there already. -/
def join (kept : List Value) (item : Value) : List Value :=
  if kept.any item.same then kept else kept ++ [item]

/-- Puts items into a set, which is given with what it has kept so far.  An item that no set can keep
    ends everything. -/
def gather (kept : List Value) : List Value → Except Value (List Value)
  | [] => .ok kept
  | item :: rest => if item.isHashable then gather (join kept item) rest else .error item

/-- No two values in a set are equal, and each of them can be there. -/
structure IsSet (set : List Value) : Prop where
  hashable : ∀ i ∈ set, i.worth? ≠ none
  nodup : (set.map worth?).Nodup

theorem isSet_nil : IsSet [] := ⟨nofun, List.nodup_nil⟩

theorem gather_of_unhashable {before after : List Value} (hbefore : ∀ i ∈ before, i.worth? ≠ none)
    (hitem : item.worth? = none) (kept : List Value) :
    gather kept (before ++ item :: after) = .error item := by
  induction before generalizing kept with
  | nil => rw [List.nil_append, gather, if_neg (by simp [isHashable_iff, hitem])]
  | cons i before ih =>
    obtain ⟨hi, hrest⟩ := List.forall_mem_cons.1 hbefore
    rw [List.cons_append, gather, if_pos (isHashable_iff.2 hi)]
    exact ih hrest _

/-- A joined item is in the set, and nothing else comes into it. -/
theorem IsSet.join (h : IsSet kept) (hitem : item.worth? ≠ none) :
    IsSet (Value.join kept item) ∧
      ((Value.join kept item).map worth?).toFinset = insert item.worth? (kept.map worth?).toFinset := by
  by_cases hany : kept.any item.same = true
  · have hjoined : Value.join kept item = kept := if_pos hany
    have hmem := (any_same_iff hitem h.hashable).1 hany
    rw [hjoined, Finset.insert_eq_of_mem (List.mem_toFinset.2 hmem)]
    exact ⟨h, rfl⟩
  · have hjoined : Value.join kept item = kept ++ [item] := if_neg hany
    have hmem : item.worth? ∉ kept.map worth? := by
      intro hmem
      exact hany ((any_same_iff hitem h.hashable).2 hmem)
    rw [hjoined, List.map_append, List.toFinset_append]
    refine ⟨⟨?_, ?_⟩, ?_⟩
    · intro i hi
      rcases List.mem_append.1 hi with hi | hi
      · exact h.hashable i hi
      · rw [List.mem_singleton.1 hi]
        exact hitem
    · rw [List.map_append]
      apply List.nodup_append'.2
      exact ⟨h.nodup, List.nodup_singleton _, by simpa using hmem⟩
    · rw [Finset.union_comm]
      rfl

/-- If every item can be in a set, they all come into it, and those that are equal only once. -/
theorem exists_gather (hitems : ∀ i ∈ items, i.worth? ≠ none) (hkept : IsSet kept) :
    ∃ set, gather kept items = .ok set ∧ IsSet set ∧
      (set.map worth?).toFinset = (kept.map worth?).toFinset ∪ (items.map worth?).toFinset := by
  induction items generalizing kept with
  | nil => exact ⟨kept, rfl, hkept, by simp⟩
  | cons item items ih =>
    obtain ⟨hitem, hrest⟩ := List.forall_mem_cons.1 hitems
    obtain ⟨hjoined, hworths⟩ := hkept.join hitem
    obtain ⟨set, hset, hisSet, hworths'⟩ := ih hrest hjoined
    refine ⟨set, ?_, hisSet, ?_⟩
    · rw [gather, if_pos (isHashable_iff.2 hitem), hset]
    · rw [hworths', hworths, List.map_cons, List.toFinset_cons, Finset.insert_union,
        Finset.union_insert]

/-- **A set is as large as the list of its items** if and only if no two of them are equal. -/
theorem exists_gather_length_iff (h : ∀ i ∈ items, i.worth? ≠ none) :
    ∃ set, gather [] items = .ok set ∧
      (set.length = items.length ↔ (items.map worth?).Nodup) := by
  obtain ⟨set, hset, hisSet, hworths⟩ := exists_gather h isSet_nil
  refine ⟨set, hset, ?_⟩
  rw [List.map_nil, List.toFinset_nil, Finset.empty_union] at hworths
  have hlength : set.length = (items.map worth?).toFinset.card := by
    rw [← hworths, List.toFinset_card_of_nodup hisSet.nodup, List.length_map]
  rw [hlength, ← List.length_map worth?]
  exact Multiset.toFinset_card_eq_card_iff_nodup

end Value

namespace Alphabet

variable {items : List Value}

theorem hasDuplicates_eq_false_iff (h : ∀ i ∈ items, i.worth? ≠ none) :
    hasDuplicates items = false ↔ (items.map Value.worth?).Nodup := by
  induction items with
  | nil => simp [hasDuplicates]
  | cons item items ih =>
    obtain ⟨hitem, hrest⟩ := List.forall_mem_cons.1 h
    rw [hasDuplicates, Bool.or_eq_false_iff, List.map_cons, List.nodup_cons, ih hrest,
      ← Value.any_same_iff hitem hrest, Bool.not_eq_true]

/-- Letters are equal as values if they are the same. -/
theorem nodup_worths_letters_iff {letters : List Char} :
    ((letters.map fun c => Value.text [c]).map Value.worth?).Nodup ↔ letters.Nodup := by
  rw [List.map_map]
  refine List.nodup_map_iff fun c d h => ?_
  simpa [Value.worth?] using h

end Alphabet

end FreshNames
