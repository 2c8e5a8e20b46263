/-!
# Sets of code points as ordered tables of ranges

A character property is given by inclusive ranges `(first, last)` in increasing order.
`CodeTable.contains` looks a code point up by halving the table; `CodeTable.Covers` is what the
table means.

* `contains_sound` - a code point that is found lies in one of the ranges.
-/

set_option autoImplicit false

namespace FreshNames

/-- Text is a sequence of characters. -/
abbrev Text := List Char

namespace Text

/-- A set of code points: inclusive ranges in increasing order. -/
structure CodeTable where
  ranges : Array (Nat × Nat)

namespace CodeTable

/-- Some range of the table holds the code point. -/
def Covers (t : CodeTable) (code : Nat) : Prop :=
  ∃ r ∈ t.ranges, r.1 ≤ code ∧ code ≤ r.2

/-- Looks for a code point between two positions of the table, by halving. -/
def search (ranges : Array (Nat × Nat)) (code lo hi : Nat) : Bool :=
  if lo < hi then
    let mid := (lo + hi) / 2
    match ranges[mid]? with
    | none => false
    | some (first, last) =>
      if code < first then search ranges code lo mid
      else if last < code then search ranges code (mid + 1) hi
      else true
  else false
termination_by hi - lo

/-- Whether a code point belongs to the set. -/
def contains (t : CodeTable) (code : Nat) : Bool :=
  search t.ranges code 0 t.ranges.size

theorem search_sound (ranges : Array (Nat × Nat)) (code lo hi : Nat)
    (h : search ranges code lo hi = true) :
    ∃ r ∈ ranges, r.1 ≤ code ∧ code ≤ r.2 := by
  fun_induction search ranges code lo hi with
  | case1 => simp at h
  | case2 lo hi _ mid first last hr hlt ih => exact ih h
  | case3 lo hi _ mid first last hr h1 h2 ih => exact ih h
  | case4 lo hi _ mid first last hr h1 h2 =>
    exact ⟨(first, last), Array.mem_of_getElem? hr, by omega, by omega⟩
  | case5 => simp at h

theorem contains_sound {t : CodeTable} {code : Nat} (h : t.contains code = true) :
    t.Covers code :=
  search_sound _ _ _ _ h

end CodeTable

end Text

end FreshNames
