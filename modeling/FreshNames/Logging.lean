import FreshNames.Logging.Record
import FreshNames.Text.UpperCase

/-!
# Logging

One family of loggers is set up together: the logger of the program and those below it.  A set-up
takes the name of a level and leaves one handler, which writes to the standard error.

* `Logging.levelOf` - the level of a name; `UnusableLevel` - the two names that are no level and yet
  are not passed over;
* `Logging.setUp` - the logging after a set-up;
* `Logging.isInFamily` - the loggers that are below the head, as far as loggers are known;
* `Logging.write` - what is written for a record of the program; `Logging.writeAll` - for several;
* `Logging.history` - set-ups and records in any order, of which each makes a logger known;
* `setUp_handlers` - a set-up leaves one handler on the level of the logger.
-/

set_option autoImplicit false

namespace FreshNames

/-- Names that stand for something else than a level. -/
inductive UnusableLevel
  /-- The standard form of messages. -/
  | format
  /-- The table of styles of messages. -/
  | styles
  deriving DecidableEq, Repr

/-- The wording of the error. -/
def UnusableLevel.message : UnusableLevel → String
  | format => "Unknown level: '%(levelname)s:%(name)s:%(message)s'"
  | styles =>
    "Level not an integer or a valid string: \x7b'%': (<class 'logging.PercentStyle'>, "
      ++ "'%(levelname)s:%(name)s:%(message)s'), '\x7b': (<class 'logging.StrFormatStyle'>, "
      ++ "'\x7blevelname\x7d:\x7bname\x7d:\x7bmessage\x7d'), '$': "
      ++ "(<class 'logging.StringTemplateStyle'>, "
      ++ "'$\x7blevelname\x7d:$\x7bname\x7d:$\x7bmessage\x7d')\x7d"

/-- The state of the family of loggers: the level of its head, the levels of its handlers, and
    whether records are passed on to the root. -/
structure Logging where
  level : Int
  handlers : List Int
  propagates : Bool
  deriving DecidableEq, Repr

namespace Logging

/-- The logging before any set-up. -/
def initial : Logging := ⟨Level.unset.number, [], true⟩

/-! ## Setting up -/

/-- The names of levels that a set-up understands. -/
def levelNames : List (Text × Level) := [
  ("NOTSET".toList, .unset), ("DEBUG".toList, .debug), ("INFO".toList, .info),
  ("WARN".toList, .warning), ("WARNING".toList, .warning), ("ERROR".toList, .error),
  ("FATAL".toList, .critical), ("CRITICAL".toList, .critical)]

/-- The level of a name in any case; a name that is none means warnings. -/
def levelOf (name : Text) : Except UnusableLevel Int :=
  let name := Text.upper name
  if name = "BASIC_FORMAT".toList then .error .format
  else if name = "_STYLES".toList then .error .styles
  else .ok ((levelNames.lookup name).getD .warning).number

/-- The name of the level of a set-up: the one that is given, or else that of the environment, or
    else warnings. -/
def chosenName (environment given : Option Text) : Text :=
  (given.or environment).getD Level.warning.name

/-- The logging after a set-up.  An unusable name changes nothing. -/
def setUp (environment given : Option Text) : Except UnusableLevel Logging :=
  match levelOf (chosenName environment given) with
  | .error e => .error e
  | .ok level => .ok ⟨level, [level], false⟩

/-! ## Loggers -/

/-- The head of the family of loggers. -/
def head : Text := "namefactory".toList

/-- Is a logger below the head?  Its name is given the other way round.  It is cut at its dots, the last
    one first, until what is left is the name of a known logger, and this one is cut in its turn.
    Where a dot has led to none, the character in front of it is passed over, even if it is a dot
    itself. -/
def isBelow (known : List Text) : (reversed : Text) → Bool
  | [] => false
  | [_] => false
  | c :: d :: rest =>
    if c = '.' then
      if (d :: rest).reverse = head then true
      else if known.contains (d :: rest).reverse then isBelow known (d :: rest)
      else isBelow known rest
    else isBelow known (d :: rest)

/-- Does the logger belong to the family? -/
def isInFamily (known : List Text) (logger : Text) : Bool :=
  logger == head || isBelow known logger.reverse

/-! ## Writing -/

/-- The least level that a logger lets through, which may be a member of the family.  A level that is
    not set is that of the root. -/
def threshold (l : Logging) (isMember : Bool) : Int :=
  if isMember && l.level != Level.unset.number then l.level else Level.warning.number

/-- Does a logger let a level through?  A level that is not above zero is never let through. -/
def passes (l : Logging) (isMember : Bool) (level : Int) : Bool :=
  decide (0 < level) && decide (l.threshold isMember ≤ level)

/-- The line that a handler writes for a record. -/
def line (r : Record) : Text :=
  r.logger ++ " - ".toList ++ Level.nameOf r.level ++ " - ".toList ++ r.message ++ ['\n']

/-- What is written for a record that a logger lets through: a line for each handler that takes it;
    where there is no handler at all, the bare message of a warning or worse. -/
def handled (l : Logging) (isMember : Bool) (r : Record) : Text :=
  if isMember && !l.handlers.isEmpty then
    (l.handlers.filter (· ≤ r.level)).flatMap fun _ => line r
  else if Level.warning.number ≤ r.level then r.message ++ ['\n']
  else []

/-- What is written for a record of the program itself. -/
def write (l : Logging) (r : Record) : Text :=
  let isMember := isInFamily [] r.logger
  if l.passes isMember r.level then l.handled isMember r else []

/-- What is written for several records. -/
def writeAll (l : Logging) (rs : List Record) : Text := rs.flatMap l.write

/-! ## Histories -/

/-- What happens to logging. -/
inductive Event
  /-- A set-up is tried. -/
  | setUp (environment given : Option Text)
  /-- A record is sent. -/
  | send (r : Record)
  deriving DecidableEq, Repr

/-- The loggers that are known, and the levels that they have been found to let through, or not to, since
    the last set-up. -/
structure Loggers where
  known : List Text
  found : List ((Text × Int) × Bool)
  deriving DecidableEq, Repr

/-- Logging as far as it has come: what is set up, the loggers, and all that has been written. -/
structure Course where
  logging : Logging
  loggers : Loggers
  written : Text
  deriving DecidableEq, Repr

/-- Logging before anything has happened. -/
def Course.start (l : Logging) : Course := ⟨l, ⟨[], []⟩, []⟩

/-- Logging after an event.  An unusable name changes nothing.  What a logger has been found to let
    through it goes on to let through, even if loggers in between get known. -/
def Course.happen (c : Course) : Event → Course
  | .setUp environment given =>
    match setUp environment given with
    | .error _ => c
    | .ok logging => { c with logging, loggers := { c.loggers with found := [] } }
  | .send r =>
    let isMember := isInFamily c.loggers.known r.logger
    let passes := (c.loggers.found.lookup (r.logger, r.level)).getD (c.logging.passes isMember r.level)
    { c with
      loggers :=
        ⟨r.logger :: c.loggers.known, ((r.logger, r.level), passes) :: c.loggers.found⟩
      written := c.written ++ if passes then c.logging.handled isMember r else [] }

/-- Logging after several events. -/
def Course.after (c : Course) (es : List Event) : Course := es.foldl happen c

/-- The logging after several events, and what is written in all. -/
def history (l : Logging) (es : List Event) : Logging × Text :=
  let c := (Course.start l).after es
  (c.logging, c.written)

theorem setUp_handlers {environment given : Option Text} {l : Logging}
    (h : setUp environment given = .ok l) : l.handlers = [l.level] ∧ l.propagates = false := by
  unfold setUp at h
  split at h
  · cases h
  · simp only [Except.ok.injEq] at h
    subst h
    exact ⟨rfl, rfl⟩

theorem writeAll_append (l : Logging) (rs rs' : List Record) :
    l.writeAll (rs ++ rs') = l.writeAll rs ++ l.writeAll rs' := by
  simp [writeAll]

end Logging

end FreshNames
