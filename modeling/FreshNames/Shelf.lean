import FreshNames.Factory

/-!
# Shelves of factories

All factories stand on a shelf, the newest in front.  The place of a factory is the number of older
ones behind it, so that it never changes, and a factory refers to older factories only.

* `Shelf.add`, `Shelf.get?`, `Shelf.modify`;
* `Shelf.reset` - resets a factory and those along its chain of delegates;
* `Shelf.next` - the next name of a factory; `Shelf.names` - several names.
-/

set_option autoImplicit false

namespace FreshNames

/-! ## Factories by their places -/

namespace Factory

/-- The factory at a place, the newest factory being the first of the list. -/
def at? : List Factory → Nat → Option Factory
  | [], _ => none
  | f :: older, place => if place = older.length then some f else at? older place

/-- The factories with the one at a place changed. -/
def modifyAt (change : Factory → Factory) : List Factory → Nat → List Factory
  | [], _ => []
  | f :: older, place =>
    if place = older.length then change f :: older else f :: modifyAt change older place

/-- Resets the factory at a place and then the one it delegates to, among the older ones. -/
def resetAt : List Factory → Nat → List Record × List Factory
  | [], _ => ([], [])
  | f :: older, place =>
    if place = older.length then
      match f.delegate? with
      | none => (f.resetRecords, f.rewound :: older)
      | some delegate =>
        let (records, older) := resetAt older delegate
        (f.resetRecords ++ records, f.rewound :: older)
    else
      let (records, older) := resetAt older place
      (records, f :: older)

/-- The next name of the factory at a place: the prefixes on the way and a name of the first factory
    that has its own.  Where there is none, the first factory may have changed all the same. -/
def nextAt (caches : NameCaches) :
    List Factory → Nat → Except NameProblem Text × List Factory × NameCaches
  | [], _ => (.ok [], [], caches)
  | f :: older, place =>
    if place = older.length then
      match f with
      | prefixing inner pre =>
        let (name, older, caches) := nextAt caches older inner
        (name.map (pre ++ ·), prefixing inner pre :: older, caches)
      | f =>
        let (name, f, caches) := f.draw caches
        (name, f :: older, caches)
    else
      let (name, older, caches) := nextAt caches older place
      (name, f :: older, caches)

theorem length_modifyAt (change : Factory → Factory) (fs : List Factory) (place : Nat) :
    (modifyAt change fs place).length = fs.length := by
  induction fs with
  | nil => rfl
  | cons f older ih =>
    simp only [modifyAt]
    split
    · rfl
    · simp [ih]

theorem length_resetAt (fs : List Factory) (place : Nat) :
    (resetAt fs place).2.length = fs.length := by
  induction fs generalizing place with
  | nil => rfl
  | cons f older ih =>
    simp only [resetAt]
    split
    · split
      · rfl
      · simp [ih]
    · simp [ih]

theorem length_nextAt (caches : NameCaches) (fs : List Factory) (place : Nat) :
    (nextAt caches fs place).2.1.length = fs.length := by
  induction fs generalizing place with
  | nil => rfl
  | cons f older ih =>
    simp only [nextAt]
    split
    · split
      · simp [ih]
      · rfl
    · simp [ih]

end Factory

/-! ## Shelves -/

/-- The factories, the newest first, and the caches of simple names, which they share. -/
structure Shelf where
  factories : List Factory
  caches : NameCaches

namespace Shelf

/-- The shelf with nothing on it. -/
def empty : Shelf := ⟨[], .empty⟩

/-- The factory at a place. -/
def get? (s : Shelf) (place : Nat) : Option Factory := Factory.at? s.factories place

/-- The place of the next factory that is put on the shelf. -/
def size (s : Shelf) : Nat := s.factories.length

/-- Puts a factory in front. -/
def add (s : Shelf) (f : Factory) : Shelf := { s with factories := f :: s.factories }

/-- Changes the factory at a place. -/
def modify (s : Shelf) (place : Nat) (change : Factory → Factory) : Shelf :=
  { s with factories := Factory.modifyAt change s.factories place }

/-- Resets a factory and those it delegates to, and tells what is logged. -/
def reset (s : Shelf) (place : Nat) : List Record × Shelf :=
  let (records, factories) := Factory.resetAt s.factories place
  (records, { s with factories })

/-- The next name of a factory. -/
def next (s : Shelf) (place : Nat) : Except NameProblem Text × Shelf :=
  let (name, factories, caches) := Factory.nextAt s.caches s.factories place
  (name, ⟨factories, caches⟩)

/-- The next names of a factory, as many as asked for.  It stops at the first number that has no
    name, and the names before it are lost. -/
def names (s : Shelf) (place : Nat) : (count : Nat) → Except NameProblem (List Text) × Shelf
  | 0 => (.ok [], s)
  | count + 1 =>
    match s.next place with
    | (.error e, s) => (.error e, s)
    | (.ok t, s) =>
      match s.names place count with
      | (.error e, s) => (.error e, s)
      | (.ok ts, s) => (.ok (t :: ts), s)

theorem get?_add_size (s : Shelf) (f : Factory) : (s.add f).get? s.size = some f := by
  simp [get?, add, size, Factory.at?]

theorem size_reset (s : Shelf) (place : Nat) : (s.reset place).2.size = s.size :=
  Factory.length_resetAt _ _

theorem size_next (s : Shelf) (place : Nat) : (s.next place).2.size = s.size :=
  Factory.length_nextAt s.caches s.factories place

end Shelf

end FreshNames
