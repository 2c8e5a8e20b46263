import FreshNames.Text.Cut

/-!
# Paths

A path names a place among files: components between slashes, from the root if it begins with one,
else from the current directory.

* `Path.components` - the components that are walked; a slash at the end asks for a directory, as
  the component `.` does;
* `Path.normal` - the normal form of a path, without empty components and single dots;
* `Path.resolve` - the place that a path names, as components from the root.
-/

set_option autoImplicit false

namespace FreshNames.Path

open Text

/-- Does the path begin at the root? -/
def isAbsolute (t : Text) : Bool := t.head? == some '/'

/-- The component that stays where it is. -/
def here : Text := ['.']

/-- The component that goes to the directory above. -/
def above : Text := ['.', '.']

/-- The components between the slashes that are not empty; a slash at the end adds one more that
    stays in place. -/
def components (t : Text) : List Text :=
  (parts '/' t).filter (!·.isEmpty) ++ (if t.getLast? = some '/' then [here] else [])

/-- The slashes at the head of a normal form: exactly two are kept, any other number is one. -/
def root (t : Text) : Text :=
  let slashes := (t.takeWhile (· == '/')).length
  if slashes = 0 then [] else if slashes = 2 then ['/', '/'] else ['/']

/-- The normal form of a path; nothing at all is the current directory. -/
def normal (t : Text) : Text :=
  let kept := (parts '/' t).filter fun p => !p.isEmpty && p != here
  if kept.isEmpty && (root t).isEmpty then here else root t ++ List.intercalate ['/'] kept

/-- The place where components lead from another one. -/
def follow : (place : List Text) → List Text → List Text
  | place, [] => place
  | place, c :: rest =>
    if c = here then follow place rest
    else if c = above then follow place.dropLast rest
    else follow (place ++ [c]) rest

/-- The place that a path names for somebody who is at `home`. -/
def resolve (home : List Text) (t : Text) : List Text :=
  follow (if isAbsolute t then [] else home) (components t)

end FreshNames.Path
