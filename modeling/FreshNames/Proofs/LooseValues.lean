import FreshNames.Proofs.CollectedLetters

/-!
# Alphabets of loosely typed values

Whatever can be gone through may be tried as an alphabet.  Its items are put into a set first, which
becomes too small if two of them are equal; only then are they asked whether they are characters.

* `Alphabet.ofItems` - the alphabet of items by way of a set; `ofItems_eq` - without it, it is the same;
* `Alphabet.Judged` - what is found out about items, in this order; `ofItems_eq_iff` - it decides;
* `Alphabet.ofValue_exact` - which values are accepted, and why the others are refused.
-/

set_option autoImplicit false

namespace FreshNames

/-! ## Items as an alphabet -/

namespace Alphabet

variable {v : Value} {items : List Value} {a : Alphabet} {r : Except AlphabetError Alphabet}

/-- The alphabet of items as it is made: they are put into a set, and if one is lost there, two of them
    are equal. -/
def ofItems (items : List Value) : Except AlphabetError Alphabet :=
  if items.isEmpty then .error .empty
  else match Value.gather [] items with
    | .error item => .error (.unhashable item.typeName)
    | .ok set =>
      if set.length ≠ items.length then .error .duplicates
      else match items.mapM single? with
        | none => .error .notSingle
        | some letters =>
          match ofLetters? letters with
          | none => .error .duplicates
          | some a => .ok a

theorem find?_unhashable_cases (items : List Value) :
    (∃ before item after, items = before ++ item :: after ∧ (∀ i ∈ before, i.worth? ≠ none) ∧
      item.worth? = none ∧ items.find? (!·.isHashable) = some item) ∨
    (∀ i ∈ items, i.worth? ≠ none) ∧ items.find? (!·.isHashable) = none := by
  cases h : items.find? (!·.isHashable) with
  | some item =>
    left
    obtain ⟨hitem, before, after, hitems, hbefore⟩ := List.find?_eq_some_iff_append.1 h
    refine ⟨before, item, after, hitems, fun i hi => ?_, Value.not_isHashable_iff.1 hitem, rfl⟩
    apply Value.isHashable_iff.1
    simpa using hbefore i hi
  | none =>
    right
    refine ⟨fun i hi => ?_, rfl⟩
    apply Value.isHashable_iff.1
    simpa using List.find?_eq_none.1 h i hi

/-- **The set finds the same items wrong** as the comparison of each item with those behind it. -/
theorem ofItems_eq (items : List Value) : ofItems items = ofValue (.list items) := by
  unfold ofItems ofValue Value.items?
  dsimp only
  rcases find?_unhashable_cases items with
    ⟨before, item, after, hitems, hbefore, hitem, hfind⟩ | ⟨hhash, hfind⟩
  · rw [hfind, hitems, Value.gather_of_unhashable hbefore hitem]
  · obtain ⟨set, hset, hlength⟩ := Value.exists_gather_length_iff hhash
    rw [hfind, hset]
    dsimp only
    congr 2
    rw [← hasDuplicates_eq_false_iff hhash] at hlength
    simp [hlength]

/-! ## Acceptance and refusal -/

/-- Each item is a single character. -/
def AreLetters (items : List Value) : Prop := ∀ i ∈ items, ∃ c, i = .text [c]

/-- What is found out about items, in the order in which it is looked for. -/
inductive Judged (items : List Value) : Except AlphabetError Alphabet → Prop
  /-- There are none. -/
  | empty (h : items = []) : Judged items (.error .empty)
  /-- The first item that no set can keep. -/
  | unhashable {before after : List Value} {item : Value} (h : items = before ++ item :: after)
      (hbefore : ∀ i ∈ before, i.worth? ≠ none) (hitem : item.worth? = none) :
      Judged items (.error (.unhashable item.typeName))
  /-- Two of them are equal, whatever they are. -/
  | duplicates (hhash : ∀ i ∈ items, i.worth? ≠ none) (h : ¬ (items.map Value.worth?).Nodup) :
      Judged items (.error .duplicates)
  /-- One of them is no single character. -/
  | notSingle (hhash : ∀ i ∈ items, i.worth? ≠ none) (hnodup : (items.map Value.worth?).Nodup)
      (h : ¬ AreLetters items) : Judged items (.error .notSingle)
  /-- They are the letters of an alphabet. -/
  | accepted {a : Alphabet} (h : items = a.letters.map fun c => .text [c]) : Judged items (.ok a)

theorem areLetters_iff :
    AreLetters items ↔ ∃ letters : List Char, items = letters.map fun c => .text [c] := by
  constructor
  · intro h
    induction items with
    | nil => exact ⟨[], rfl⟩
    | cons item items ih =>
      obtain ⟨⟨c, rfl⟩, hrest⟩ := List.forall_mem_cons.1 h
      obtain ⟨letters, rfl⟩ := ih hrest
      exact ⟨c :: letters, rfl⟩
  · rintro ⟨letters, rfl⟩ i hi
    obtain ⟨c, -, rfl⟩ := List.mem_map.1 hi
    exact ⟨c, rfl⟩

theorem single?_eq_some_iff {c : Char} : single? v = some c ↔ v = .text [c] := by
  constructor
  · intro h
    unfold single? at h
    split at h
    · cases h
      rfl
    · cases h
  · rintro rfl
    rfl

theorem mapM_single?_eq_none (h : ¬ AreLetters items) : items.mapM single? = none := by
  induction items with
  | nil => exact absurd nofun h
  | cons item items ih =>
    rw [List.mapM_cons]
    cases hitem : single? item with
    | none => rfl
    | some c =>
      have hrest : ¬ AreLetters items := by
        intro hrest
        exact h (List.forall_mem_cons.2 ⟨⟨c, single?_eq_some_iff.1 hitem⟩, hrest⟩)
      rw [ih hrest]
      rfl

/-- Each judgement is the one that is made with the set. -/
theorem Judged.ofItems_eq (h : Judged items r) : ofItems items = r := by
  cases h with
  | empty h =>
    rw [h]
    rfl
  | unhashable h hbefore hitem =>
    have hne : items ≠ [] := by simp [h]
    rw [ofItems, List.isEmpty_eq_false_iff.2 hne, h, Value.gather_of_unhashable hbefore hitem]
    rfl
  | duplicates hhash h =>
    have hne : items ≠ [] := by
      rintro rfl
      exact h List.nodup_nil
    obtain ⟨set, hset, hlength⟩ := Value.exists_gather_length_iff hhash
    have hshort : set.length ≠ items.length := fun hsame => h (hlength.1 hsame)
    rw [ofItems, List.isEmpty_eq_false_iff.2 hne, hset]
    exact if_pos hshort
  | notSingle hhash hnodup h =>
    have hne : items ≠ [] := by
      rintro rfl
      exact h nofun
    obtain ⟨set, hset, hlength⟩ := Value.exists_gather_length_iff hhash
    have hlong : ¬ set.length ≠ items.length := fun hshort => hshort (hlength.2 hnodup)
    rw [ofItems, List.isEmpty_eq_false_iff.2 hne, hset, mapM_single?_eq_none h]
    exact if_neg hlong
  | @accepted a h =>
    rw [Alphabet.ofItems_eq, h]
    exact ofValue_letters a.nonempty a.distinct

/-- There is always one. -/
theorem exists_judged (items : List Value) : ∃ r, Judged items r := by
  rcases find?_unhashable_cases items with
    ⟨before, item, after, hitems, hbefore, hitem, -⟩ | ⟨hhash, -⟩
  · exact ⟨_, .unhashable hitems hbefore hitem⟩
  · by_cases hnodup : (items.map Value.worth?).Nodup
    · by_cases hletters : AreLetters items
      · obtain ⟨letters, rfl⟩ := areLetters_iff.1 hletters
        by_cases hne : letters = []
        · exact ⟨_, .empty (by rw [hne, List.map_nil])⟩
        · exact ⟨.ok ⟨letters, hne, nodup_worths_letters_iff.1 hnodup⟩, .accepted rfl⟩
      · exact ⟨_, .notSingle hhash hnodup hletters⟩
    · exact ⟨_, .duplicates hhash hnodup⟩

theorem ofValue_of_items (h : v.items? = some items) : ofValue v = ofItems items := by
  rw [ofItems_eq, ofValue, h]
  rfl

/-- **What comes of items is what is first found out about them.** -/
theorem ofItems_eq_iff : ofItems items = r ↔ Judged items r := by
  constructor
  · rintro rfl
    obtain ⟨r, hr⟩ := exists_judged items
    rwa [hr.ofItems_eq]
  · exact Judged.ofItems_eq

theorem ofItems_eq_ok_iff : ofItems items = .ok a ↔ items = a.letters.map fun c => .text [c] := by
  rw [ofItems_eq_iff]
  constructor
  · rintro (_ | _ | _ | _ | h)
    exact h
  · exact .accepted

theorem ofValue_eq_ok_iff :
    ofValue v = .ok a ↔ v.items? = some (a.letters.map fun c => .text [c]) := by
  cases h : v.items? with
  | none =>
    rw [ofValue, h]
    simp
  | some items => rw [ofValue_of_items h, ofItems_eq_ok_iff, Option.some.injEq]

/-- Distinct letters, at least one, are accepted. -/
theorem exists_ofItems_eq_ok_iff : (∃ a, ofItems items = .ok a) ↔
    items ≠ [] ∧ AreLetters items ∧ (items.map Value.worth?).Nodup := by
  constructor
  · rintro ⟨a, ha⟩
    rw [ofItems_eq_ok_iff.1 ha]
    have hne : (a.letters.map fun c => Value.text [c]) ≠ [] := by simp [a.nonempty]
    exact ⟨hne, areLetters_iff.2 ⟨_, rfl⟩, nodup_worths_letters_iff.2 a.distinct⟩
  · rintro ⟨hne, hletters, hnodup⟩
    obtain ⟨letters, rfl⟩ := areLetters_iff.1 hletters
    have hsome : letters ≠ [] := by
      rintro rfl
      exact hne rfl
    exact ⟨⟨letters, hsome, nodup_worths_letters_iff.1 hnodup⟩, ofItems_eq_ok_iff.2 rfl⟩

/-- The texts that letters are, one behind the other. -/
theorem exists_texts_of_letters (letters : List Char) :
    ∃ texts : List Text, (letters.map fun c => Value.text [c]) = texts.map .text ∧
      texts.flatten = letters := by
  refine ⟨letters.map fun c => [c], ?_, ?_⟩
  · rw [List.map_map]
    rfl
  · exact List.flatMap_singleton' letters

/-- **The valid alphabets are accepted, and nothing else.**  Any value may be given.  One that cannot
    be gone through is refused; the items of the others are put into a set.  They are accepted if
    there is one at least, each is a single character, and no two are equal.  The alphabet then has
    these characters in their order, and it can be made of them again.  Otherwise it is told what is
    wrong, and in this order: no items, an item that no set can keep, two that are equal across all
    types, and only then an item that is no character. -/
theorem ofValue_exact (v : Value) :
    (v.items? = none → ofValue v = .error (.notIterable v.typeName)) ∧
    (∀ items, v.items? = some items →
      ofValue v = ofItems items ∧ (∀ r, ofValue v = r ↔ Judged items r) ∧
      ((∃ a, ofValue v = .ok a) ↔
        items ≠ [] ∧ AreLetters items ∧ (items.map Value.worth?).Nodup) ∧
      ∀ a, ofValue v = .ok a →
        items = (a.letters.map fun c => .text [c]) ∧
        ∃ texts : List Text, items = texts.map .text ∧ texts.flatten = a.letters) ∧
    ∀ a, ofValue v = .ok a → (∃ items, v.items? = some items) ∧ ofValue (.text a.letters) = .ok a := by
  refine ⟨fun hnone => ?_, fun items hitems => ?_, fun a ha => ⟨?_, ?_⟩⟩
  · rw [ofValue, hnone]
  · rw [ofValue_of_items hitems]
    refine ⟨rfl, fun r => ofItems_eq_iff, exists_ofItems_eq_ok_iff, fun a ha => ?_⟩
    have hletters := ofItems_eq_ok_iff.1 ha
    exact ⟨hletters, hletters ▸ exists_texts_of_letters a.letters⟩
  · exact ⟨_, ofValue_eq_ok_iff.1 ha⟩
  · exact ofValue_eq_ok_iff.2 rfl

/-- One in floating point, given by another exponent than a whole number. -/
def halves : Binary64 := .finite 2 (-1) (by decide)

/-- A truth value, a letter and a number in floating point. -/
def mixedItems : List Value := [.bool true, .text ['a'], .float halves]

/-- A truth value equals a number, and this is found out before anything is asked about characters;
    and a record is gone through by its keys. -/
theorem ofValue_exact_mixed :
    ofValue (.list mixedItems) = .error .duplicates ∧ ∃ a,
      ofValue (.record [("b".toList, .list []), ("a".toList, .null)]) = .ok a ∧
        a.letters = "ba".toList ∧ ofValue (.text "ba".toList) = .ok a := by
  obtain ⟨-, hmixed, -⟩ := ofValue_exact (.list mixedItems)
  obtain ⟨-, hrecord, hagain⟩ :=
    ofValue_exact (.record [("b".toList, .list []), ("a".toList, .null)])
  obtain ⟨-, -, haccepted, hletters⟩ := hrecord [.text ['b'], .text ['a']] rfl
  constructor
  · apply ((hmixed mixedItems rfl).2.1 _).2
    apply Judged.duplicates
    · simp [mixedItems, Value.worth?]
    · simp [mixedItems, halves, Value.worth?, Value.Worth.ofAmount, Binary64.amount]
  · have hdistinct : (([.text ['b'], .text ['a']] : List Value).map Value.worth?).Nodup := by
      simp [Value.worth?]
    obtain ⟨a, ha⟩ := haccepted.2 ⟨by simp, areLetters_iff.2 ⟨['b', 'a'], rfl⟩, hdistinct⟩
    have hba : a.letters = "ba".toList := by
      have hitems : (a.letters.map fun c => Value.text [c]) = ['b', 'a'].map fun c => .text [c] :=
        (hletters a ha).1.symm
      have hinj : ∀ c d : Char, Value.text [c] = .text [d] → c = d := by simp
      exact (List.map_inj_right hinj).1 hitems
    exact ⟨a, ha, hba, hba ▸ (hagain a ha).2⟩

/-- A list inside is found out before two numbers that are equal. -/
example : ofValue (.list [.int 1, .float halves, .list [.null], .record []]) =
    .error (.unhashable "list") := rfl

/-- An infinity is equal to itself and to no number. -/
example : ofValue (.list [.float (.infinity false), .float (.infinity true), .int 1]) =
    .error .notSingle := rfl

end Alphabet

end FreshNames
