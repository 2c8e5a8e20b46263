import FreshNames.Charset.Layout

/-!
# Feeds of bytes

A feed delivers bytes in pieces.  Each reading gives the bytes of one piece, at most as many as are
asked for; an empty piece looks like the end of the data, whatever comes behind it.  After the last
piece a feed is at its end, or fails.

* `Feed.next` - one reading; `Feed.rest` - everything up to the end;
* `Feed.slabs` - the pieces that successive readings of one size give;
* `Feed.flatten_slabs` - together these are the bytes of the feed.
-/

set_option autoImplicit false

namespace FreshNames

/-- How a stream fails. -/
inductive StreamFailure
  /-- The stream itself stops working. -/
  | brokeDown
  /-- The device below it does. -/
  | device
  /-- The stream cannot tell what it is asked for. -/
  | confused
  deriving DecidableEq, Repr

/-- The bytes to come, piece by piece, and the failure behind them, if any. -/
structure Feed where
  pieces : List Bytes
  failure : Option StreamFailure
  deriving DecidableEq

namespace Feed

/-- A feed with all its bytes in one piece. -/
def ofBytes (bytes : Bytes) : Feed := ⟨[bytes], none⟩

/-- One reading of at most `size` bytes. -/
def next (size : Nat) (f : Feed) : Except StreamFailure (Bytes × Feed) :=
  match f.pieces with
  | [] =>
    match f.failure with
    | some failure => .error failure
    | none => .ok ([], f)
  | p :: rest =>
    if p.length ≤ size then .ok (p, { f with pieces := rest })
    else .ok (p.take size, { f with pieces := p.drop size :: rest })

/-- The bytes up to an empty piece or the end. -/
def restFrom (failure : Option StreamFailure) : List Bytes → Except StreamFailure (Bytes × Feed)
  | [] =>
    match failure with
    | some failure => .error failure
    | none => .ok ([], ⟨[], none⟩)
  | p :: rest =>
    if p.isEmpty then .ok ([], ⟨rest, failure⟩)
    else
      match restFrom failure rest with
      | .error e => .error e
      | .ok (bytes, f) => .ok (p ++ bytes, f)

/-- Everything up to the end. -/
def rest (f : Feed) : Except StreamFailure (Bytes × Feed) := restFrom f.failure f.pieces

/-- The number of readings that can give something, and more. -/
def size (f : Feed) : Nat := f.pieces.length + f.pieces.flatten.length

/-- The parts of a piece that successive readings give. -/
def cut (size : Nat) (pos : 0 < size) (p : Bytes) : List Bytes :=
  if p.length ≤ size then [p] else p.take size :: cut size pos (p.drop size)
termination_by p.length
decreasing_by simp only [List.length_drop]; omega

/-- The pieces that successive readings of one size give. -/
def slabs (size : Nat) (pos : 0 < size) (f : Feed) : List Bytes := f.pieces.flatMap (cut size pos)

theorem flatten_cut (size : Nat) (pos : 0 < size) (p : Bytes) : (cut size pos p).flatten = p := by
  fun_induction cut size pos p with
  | case1 p h => simp
  | case2 p h ih => simp [ih]

theorem flatten_slabs (size : Nat) (pos : 0 < size) (f : Feed) :
    (f.slabs size pos).flatten = f.pieces.flatten := by
  unfold slabs
  induction f.pieces with
  | nil => rfl
  | cons p rest ih => simp [flatten_cut, ih]

end Feed

end FreshNames
