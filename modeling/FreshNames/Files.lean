import FreshNames.Charset.Layout
import FreshNames.Path

/-!
# Files

Directories and files, and the directory that relative paths begin at.  A path is walked component
by component; what is in the way is reported in the order in which the walk meets it.

* `Files.entryAt` - what stands at a place; `Files.walk` - where a path leads;
* `Files.stat` - whether something stands at a path; `Files.read` - the bytes of a file;
* `FileError` - why not.
-/

set_option autoImplicit false

namespace FreshNames

/-- Why the system refuses a path. -/
inductive FileProblem
  | missing
  | notDirectory
  | isDirectory
  | nameTooLong
  deriving DecidableEq, Repr

namespace FileProblem

/-- The number of the problem. -/
def number : FileProblem → Nat
  | missing => 2
  | notDirectory => 20
  | isDirectory => 21
  | nameTooLong => 36

/-- The wording of the problem. -/
def text : FileProblem → String
  | missing => "No such file or directory"
  | notDirectory => "Not a directory"
  | isDirectory => "Is a directory"
  | nameTooLong => "File name too long"

/-- The message about a path. -/
def message (p : FileProblem) (path : Text) : Text :=
  s!"[Errno {p.number}] {p.text}: ".toList ++ Text.quoted path

end FileProblem

/-- Why a file cannot be read. -/
inductive FileError
  /-- The system refuses the path. -/
  | refused (p : FileProblem) (path : Text)
  /-- The path holds the character that ends paths. -/
  | nullInPath
  deriving DecidableEq, Repr

/-- What stands at a place. -/
inductive Entry
  | directory
  | file (bytes : Bytes)
  deriving DecidableEq

/-- The current directory and the entries, all by their components from the root.  The directories
    on the way to an entry need no entry of their own. -/
structure Files where
  home : List Text
  entries : List (List Text × Entry)

namespace Files

/-- What stands at a place, given from the root. -/
def entryAt (fs : Files) (place : List Text) : Option Entry :=
  match fs.entries.find? (·.1 == place) with
  | some e => some e.2
  | none =>
    if place.isPrefixOf fs.home || fs.entries.any (place.isPrefixOf ·.1) then some .directory
    else none

/-- The most bytes of a component. -/
def componentLimit : Nat := 255

/-- The number of bytes that a path has to stay below. -/
def pathLimit : Nat := 4096

/-- What stands where the components lead from a place. -/
def walk (fs : Files) : (place : List Text) → List Text → Except FileProblem Entry
  | place, [] =>
    match fs.entryAt place with
    | some e => .ok e
    | none => .error .missing
  | place, c :: rest =>
    match fs.entryAt place with
    | none => .error .missing
    | some (.file _) => .error .notDirectory
    | some .directory =>
      if c = Path.here then walk fs place rest
      else if c = Path.above then walk fs place.dropLast rest
      else if componentLimit < (Charset.utf8Bytes c).length then .error .nameTooLong
      else walk fs (place ++ [c]) rest

/-- What stands at a path. -/
def find (fs : Files) (path : Text) : Except FileProblem Entry :=
  if path.isEmpty then .error .missing
  else if pathLimit ≤ (Charset.utf8Bytes path).length then .error .nameTooLong
  else fs.walk (if Path.isAbsolute path then [] else fs.home) (Path.components path)

/-- Is there anything at the path? -/
def stat (fs : Files) (path : Text) : Except FileError Unit :=
  if path.contains '\x00' then .error .nullInPath
  else
    match fs.find path with
    | .error p => .error (.refused p path)
    | .ok _ => .ok ()

/-- The bytes of the file at the path. -/
def read (fs : Files) (path : Text) : Except FileError Bytes :=
  if path.contains '\x00' then .error .nullInPath
  else
    match fs.find path with
    | .error p => .error (.refused p path)
    | .ok .directory => .error (.refused .isDirectory path)
    | .ok (.file bytes) => .ok bytes

theorem stat_eq_ok_iff {fs : Files} {path : Text} :
    fs.stat path = .ok () ↔ path.contains '\x00' = false ∧ ∃ e, fs.find path = .ok e := by
  unfold stat
  cases path.contains '\x00' <;> cases fs.find path <;> simp

end Files

end FreshNames
