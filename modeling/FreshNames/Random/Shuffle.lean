import FreshNames.Random.Twister

/-!
# Shuffling

A shuffler puts a list into another order, and goes on to its next state.  The random one walks
from the last place down to the second and exchanges each item with one that stands at a drawn
place up to there; the others have a fixed order.

* `Shuffler.shuffle` - the reordered list and the shuffler afterwards;
* `Shuffler.shuffle_perm` - the reordered list has the same items;
* `Shuffler.shuffle_short` - fewer than two items draw nothing and stay as they are.
-/

set_option autoImplicit false

namespace FreshNames

/-- A source of orders. -/
inductive Shuffler
  /-- Orders drawn from the generator. -/
  | twister (t : Twister)
  /-- Leaves the list as it is. -/
  | inOrder
  /-- Turns the list round. -/
  | backwards
  /-- Moves the first item to the end. -/
  | rotated
  deriving DecidableEq

namespace Shuffler

/-- Exchanges the items at the places `i, …, 1` with items at drawn places not behind them. -/
def exchange {α : Type} : (i : Nat) → Array α → Twister → Array α × Twister
  | 0, items, t => (items, t)
  | i + 1, items, t =>
    let (j, t) := t.drawBelow (i + 2)
    exchange i (items.swapIfInBounds (i + 1) j) t

/-- The reordered list, and the shuffler for the next one. -/
def shuffle {α : Type} : Shuffler → List α → List α × Shuffler
  | twister t, items =>
    let (items, t) := exchange (items.length - 1) items.toArray t
    (items.toList, twister t)
  | inOrder, items => (items, inOrder)
  | backwards, items => (items.reverse, backwards)
  | rotated, [] => ([], rotated)
  | rotated, x :: rest => (rest ++ [x], rotated)

theorem exchange_perm {α : Type} (i : Nat) (items : Array α) (t : Twister) :
    (exchange i items t).1.Perm items := by
  induction i generalizing items t with
  | zero => simp only [exchange]; exact Array.Perm.refl _
  | succ i ih =>
    simp only [exchange]
    refine (ih _ _).trans ?_
    unfold Array.swapIfInBounds
    split
    · split
      · exact Array.swap_perm ..
      · exact Array.Perm.refl _
    · exact Array.Perm.refl _

theorem shuffle_perm {α : Type} (s : Shuffler) (items : List α) :
    (s.shuffle items).1.Perm items := by
  cases s with
  | twister t => simpa [shuffle, Array.perm_iff_toList_perm] using exchange_perm _ items.toArray t
  | inOrder => exact List.Perm.refl _
  | backwards => exact List.reverse_perm _
  | rotated =>
    cases items with
    | nil => exact List.Perm.refl _
    | cons x rest =>
      have : (rest ++ [x]).Perm ([x] ++ rest) := List.perm_append_comm
      exact this

theorem shuffle_short {α : Type} (s : Shuffler) {items : List α} (h : items.length < 2) :
    s.shuffle items = (items, s) := by
  match items, h with
  | [], _ => cases s <;> simp [shuffle, exchange]
  | [x], _ => cases s <;> simp [shuffle, exchange]
  | _ :: _ :: _, h => exact absurd h (by simp)

end Shuffler

end FreshNames
