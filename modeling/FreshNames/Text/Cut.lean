import FreshNames.Text.CodeTable

/-!
# Cutting text at a character

* `cut` - a text before and after the first place of a character;
* `cutLast` - the same for the last place;
* `parts` - the parts of a text between the places of a character;
* `cut_eq_some_iff` - cutting is the inverse of putting together.
-/

set_option autoImplicit false

namespace FreshNames.Text

/-- The text before and after the first place of a character, if it occurs. -/
def cut (sep : Char) : Text → Option (Text × Text)
  | [] => none
  | c :: rest => if c = sep then some ([], rest) else (cut sep rest).map fun (a, b) => (c :: a, b)

/-- The text before and after the last place of a character, if it occurs. -/
def cutLast (sep : Char) (t : Text) : Option (Text × Text) :=
  (cut sep t.reverse).map fun (a, b) => (b.reverse, a.reverse)

/-- The parts between the places of a character; one more than there are such places. -/
def parts (sep : Char) : Text → List Text
  | [] => [[]]
  | c :: rest =>
    if c = sep then [] :: parts sep rest
    else
      match parts sep rest with
      | [] => [[c]]
      | p :: more => (c :: p) :: more

theorem cut_eq_some_iff {sep : Char} {t a b : Text} :
    cut sep t = some (a, b) ↔ t = a ++ sep :: b ∧ sep ∉ a := by
  induction t generalizing a b with
  | nil => simp [cut]
  | cons c rest ih =>
    by_cases hc : c = sep
    · subst hc
      simp only [cut, if_pos, Option.some.injEq, Prod.mk.injEq]
      constructor
      · rintro ⟨rfl, rfl⟩
        simp
      · rintro ⟨h, hm⟩
        cases a with
        | nil => simpa using h
        | cons d a =>
          obtain ⟨rfl, -⟩ := List.cons.inj h
          simp at hm
    · simp only [cut, if_neg hc, Option.map_eq_some_iff, Prod.exists, Prod.mk.injEq]
      constructor
      · rintro ⟨x, y, hxy, rfl, rfl⟩
        obtain ⟨rfl, hm⟩ := ih.1 hxy
        exact ⟨rfl, by simp [hm, Ne.symm hc]⟩
      · rintro ⟨h, hm⟩
        cases a with
        | nil => exact absurd (List.cons.inj h).1 hc
        | cons d a =>
          obtain ⟨rfl, rfl⟩ := List.cons.inj h
          exact ⟨a, b, ih.2 ⟨rfl, fun e => hm (by simp [e])⟩, rfl, rfl⟩

theorem cut_eq_none_iff {sep : Char} {t : Text} : cut sep t = none ↔ sep ∉ t := by
  induction t with
  | nil => simp [cut]
  | cons c rest ih =>
    by_cases hc : c = sep
    · simp [cut, hc]
    · simp [cut, hc, ih, Ne.symm hc]

theorem parts_append {sep : Char} {l : Text} (h : sep ∉ l) (rest : Text) :
    parts sep (l ++ sep :: rest) = l :: parts sep rest := by
  induction l with
  | nil => simp [parts]
  | cons c l ih =>
    have hc : c ≠ sep := fun e => h (e ▸ List.mem_cons_self)
    have hl : sep ∉ l := fun hm => h (List.mem_cons_of_mem c hm)
    rw [List.cons_append, parts, if_neg hc, ih hl]

theorem parts_of_not_mem {sep : Char} {t : Text} (h : sep ∉ t) : parts sep t = [t] := by
  induction t with
  | nil => rfl
  | cons c rest ih =>
    have hc : c ≠ sep := fun e => h (e ▸ List.mem_cons_self)
    rw [parts, if_neg hc, ih fun hm => h (List.mem_cons_of_mem c hm)]

end FreshNames.Text
