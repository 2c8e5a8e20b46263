import FreshNames.Logging
import Mathlib.Data.List.Induction

/-!
# Records that are written once

However often logging is set up, in vain or not, there is one handler afterwards, and a record of the
family is written by it once or not at all.  Here a set-up goes step by step through what it does to
the head of the family, and a record climbs from its logger to the root, to see which level is in
force and which handlers there are on the way.

* `HeadLogger.setUp` - a set-up that takes handlers away one by one and adds a new one;
* `Logging.lineage` - the loggers from one up to the root; `Logging.climb` - what is written on the way;
* `Logging.Belongs` - the names that are below the head, whatever other loggers there are;
* `Workings.after` - events as they happen to all this; `Workings.course_after` - they lead where
  `Course.after` leads;
* `Workings.Settled` - the invariant; `Workings.logged_once` - what is so after any events;
* `Workings.secondDot_loses` - why a name with a second dot behind the head is left out.
-/

set_option autoImplicit false

namespace FreshNames

/-! ## Setting up, step by step -/

/-- A handler.  Handlers with the same key are the very same. -/
structure Handler where
  key : Nat
  level : Int
  deriving DecidableEq

/-- The head of the family with its handlers; `nextKey` is the key of the next handler that is made. -/
structure HeadLogger where
  level : Int
  handlers : List Handler
  propagates : Bool
  nextKey : Nat
  deriving DecidableEq

namespace HeadLogger

variable {g : HeadLogger} {environment given : Option Text}

/-- What is to be seen of the head. -/
def state (g : HeadLogger) : Logging := ⟨g.level, g.handlers.map (·.level), g.propagates⟩

/-- The head before any set-up. -/
def initial : HeadLogger := ⟨Level.unset.number, [], true, 0⟩

/-- Takes some handlers away, one after the other. -/
def remove (g : HeadLogger) (hs : List Handler) : HeadLogger :=
  hs.foldl (fun g h => { g with handlers := g.handlers.erase h }) g

/-- Adds a handler, unless it is there. -/
def add (g : HeadLogger) (h : Handler) : HeadLogger :=
  if h ∈ g.handlers then g else { g with handlers := g.handlers ++ [h] }

/-- A set-up.  The level is checked where it is given to the head, and again where it is given to the
    new handler, when the old ones are gone already. -/
def setUp (g : HeadLogger) (environment given : Option Text) :
    Except UnusableLevel Unit × HeadLogger :=
  let checked := Logging.levelOf (Logging.chosenName environment given)
  match checked with
  | .error e => (.error e, g)
  | .ok level =>
    let g := { g with level }
    let g := g.remove g.handlers
    match checked with
    | .error e => (.error e, g)
    | .ok level =>
      let g := { g.add ⟨g.nextKey, level⟩ with nextKey := g.nextKey + 1 }
      (.ok (), { g with propagates := false })

theorem remove_eq (g : HeadLogger) (hs : List Handler) :
    g.remove hs = { g with handlers := hs.foldl List.erase g.handlers } := by
  induction hs generalizing g with
  | nil => rfl
  | cons h hs ih => exact ih { g with handlers := g.handlers.erase h }

theorem foldl_erase_self (hs : List Handler) : hs.foldl List.erase hs = [] := by
  induction hs with
  | nil => rfl
  | cons h hs ih => rw [List.foldl_cons, List.erase_cons_head, ih]

/-- Whatever handlers there were, they are gone when all have been taken away. -/
theorem remove_handlers (g : HeadLogger) : g.remove g.handlers = { g with handlers := [] } := by
  rw [remove_eq, foldl_erase_self]

theorem setUp_of_error {e : UnusableLevel} (h : Logging.setUp environment given = .error e) :
    g.setUp environment given = (.error e, g) := by
  unfold Logging.setUp at h
  split at h
  · rename_i hlevel
    cases h
    simp only [setUp, hlevel]
  · cases h

/-- **A set-up that returns leaves the new handler and no other.** -/
theorem setUp_of_ok {l : Logging} (h : Logging.setUp environment given = .ok l) :
    g.setUp environment given =
      (.ok (), ⟨l.level, [⟨g.nextKey, l.level⟩], false, g.nextKey + 1⟩) := by
  unfold Logging.setUp at h
  split at h
  · cases h
  · rename_i level hlevel
    cases h
    simp only [setUp, hlevel, remove_handlers, add, List.not_mem_nil, if_false, List.nil_append]

end HeadLogger

namespace Logging

variable {l : Logging} {known : List Text} {r : Record} {L : Int} {environment given : Option Text}

/-! ## Climbing to the root -/

/-- The loggers above one whose name is given the other way round, the nearest first, up to the head
    of the family or below the root. -/
def above (known : List Text) : (reversed : Text) → List Text
  | [] => []
  | [_] => []
  | c :: d :: rest =>
    if c = '.' then
      if (d :: rest).reverse = head then [head]
      else if known.contains (d :: rest).reverse then
        (d :: rest).reverse :: above known (d :: rest)
      else above known rest
    else above known (d :: rest)

/-- The root of all loggers. -/
def root : Logging := ⟨Level.warning.number, [], true⟩

/-- A logger by its name.  All but the head are as loggers are at first. -/
def node (l : Logging) (logger : Text) : Logging := if logger = head then l else initial

/-- The loggers from one up to the root. -/
def lineage (l : Logging) (known : List Text) (logger : Text) : List Logging :=
  (logger :: above known logger.reverse).map l.node ++ [root]

/-- The level in force: that of the first logger that has one. -/
def effectiveLevel : List Logging → Int
  | [] => Level.unset.number
  | n :: upper => if n.level = Level.unset.number then effectiveLevel upper else n.level

/-- The handlers on the way, up to a logger that passes nothing on. -/
def reached : List Logging → List Int
  | [] => []
  | n :: upper => n.handlers ++ if n.propagates then reached upper else []

/-- What is written for a record that is let through. -/
def climb (upper : List Logging) (r : Record) : Text :=
  if (reached upper).isEmpty then
    if Level.warning.number ≤ r.level then r.message ++ ['\n'] else []
  else ((reached upper).filter (· ≤ r.level)).flatMap fun _ => line r

theorem node_head (l : Logging) : l.node head = l := if_pos rfl

theorem node_of_ne {logger : Text} (h : logger ≠ head) : l.node logger = initial := if_neg h

theorem effectiveLevel_own (l : Logging) : effectiveLevel [l, root] = l.threshold true := by
  by_cases h : l.level = Level.unset.number <;>
    simp [effectiveLevel, threshold, h, root, Level.number]

/-- Loggers in between have no level and no handlers, and pass everything on. -/
theorem effectiveLevel_between (k : Nat) (upper : List Logging) :
    effectiveLevel (List.replicate k initial ++ upper) = effectiveLevel upper := by
  induction k with
  | zero => rfl
  | succ k ih => exact ih

/-- On the way up there is the head, if the way leads below it, and the root. -/
theorem exists_between (l : Logging) (known : List Text) (t : Text) :
    ∃ k, (above known t).map l.node ++ [root] =
      List.replicate k initial ++ if isBelow known t then [l, root] else [root] := by
  fun_induction above known t with
  | case1 => exact ⟨0, rfl⟩
  | case2 => exact ⟨0, rfl⟩
  | case3 d rest hhead =>
    refine ⟨0, ?_⟩
    rw [isBelow, if_pos rfl, if_pos hhead, List.map_cons, node_head]
    rfl
  | case4 d rest hhead hknown ih =>
    obtain ⟨k, hk⟩ := ih
    refine ⟨k + 1, ?_⟩
    rw [isBelow, if_pos rfl, if_neg hhead, if_pos hknown, List.map_cons, node_of_ne hhead,
      List.cons_append, hk]
    rfl
  | case5 d rest hhead hknown ih =>
    rw [isBelow, if_pos rfl, if_neg hhead, if_neg hknown]
    exact ih
  | case6 c d rest hc ih =>
    rw [isBelow, if_neg hc]
    exact ih

theorem exists_lineage (l : Logging) (known : List Text) (logger : Text) :
    ∃ k, l.lineage known logger =
      List.replicate k initial ++ if isInFamily known logger then [l, root] else [root] := by
  by_cases h : logger = head
  · subst h
    refine ⟨0, ?_⟩
    rw [lineage, List.map_cons, node_head]
    rfl
  · have hown : (logger == head) = false := beq_eq_false_iff_ne.2 h
    obtain ⟨k, hk⟩ := exists_between l known logger.reverse
    refine ⟨k + 1, ?_⟩
    rw [lineage, List.map_cons, node_of_ne h, isInFamily, hown, Bool.false_or, List.cons_append, hk]
    rfl

theorem effectiveLevel_lineage (l : Logging) (known : List Text) (logger : Text) :
    effectiveLevel (l.lineage known logger) = l.threshold (isInFamily known logger) := by
  obtain ⟨k, hk⟩ := exists_lineage l known logger
  rw [hk, effectiveLevel_between]
  cases isInFamily known logger with
  | false => rfl
  | true => exact effectiveLevel_own l

/-- The head, and what has a name that goes on with a dot and no second one. -/
def Belongs (logger : Text) : Prop :=
  logger = head ∨ ∃ rest : Text, rest.head? ≠ some '.' ∧ logger = head ++ '.' :: rest

theorem isBelow_head_dot (known : List Text) {t : Text} (h : t.getLast? ≠ some '.') :
    isBelow known (t ++ '.' :: head.reverse) = true := by
  have hhead : isBelow known ('.' :: head.reverse) = true := rfl
  match t with
  | [] => exact hhead
  | [c] =>
    have hc : c ≠ '.' := fun e => h (congrArg some e)
    exact (if_neg hc).trans hhead
  | c :: d :: t =>
    have htail : (d :: t).getLast? ≠ some '.' := by rwa [List.getLast?_cons_cons] at h
    have hnext : isBelow known (d :: (t ++ '.' :: head.reverse)) = true :=
      isBelow_head_dot known htail
    rw [List.cons_append, List.cons_append, isBelow]
    split
    · split
      · rfl
      · split
        · exact hnext
        · have hrest : t.getLast? ≠ some '.' := by
            cases t with
            | nil => nofun
            | cons e t => rwa [List.getLast?_cons_cons] at htail
          exact isBelow_head_dot known hrest
    · exact hnext

/-- Such a logger is in the family, whatever other loggers there are. -/
theorem Belongs.isInFamily {logger : Text} (h : Belongs logger) (known : List Text) :
    isInFamily known logger = true := by
  rcases h with rfl | ⟨rest, hrest, rfl⟩
  · rfl
  · have hlast : rest.reverse.getLast? ≠ some '.' := by rwa [List.getLast?_reverse]
    have hbelow := isBelow_head_dot known hlast
    rw [Logging.isInFamily, List.reverse_append, List.reverse_cons, List.append_assoc,
      List.singleton_append, hbelow, Bool.or_true]

/-! ## Levels of set-ups -/

/-- The level that an event sets, if it is a set-up that returns. -/
def Event.level? : Event → Option Int
  | .setUp environment given => (Logging.setUp environment given).toOption.map (·.level)
  | .send _ => none

/-- The least level that is written: a level that is not set lets through what the root does. -/
def limit (level : Int) : Int := if level = Level.unset.number then Level.warning.number else level

theorem level_nonneg {l : Logging} (h : setUp environment given = .ok l) : 0 ≤ l.level := by
  have hnumber : ∀ level : Level, 0 ≤ level.number := by intro level; cases level <;> decide
  unfold setUp at h
  split at h
  · cases h
  · rename_i hlevel
    cases h
    simp only [levelOf] at hlevel
    split at hlevel
    · cases hlevel
    · split at hlevel
      · cases hlevel
      · cases hlevel
        exact hnumber _

/-- One handler on the level of the head writes a record once, from the limit on. -/
theorem handled_of_passes (hL : 0 ≤ L) {l : Logging} (hlevel : l.level = L)
    (hhandlers : l.handlers = [L]) (r : Record) :
    (if l.passes true r.level then l.handled true r else []) =
      if limit L ≤ r.level then line r else [] := by
  have hthreshold : l.threshold true = limit L := by
    by_cases h : L = Level.unset.number <;> simp [threshold, limit, hlevel, h]
  have hpasses : l.passes true r.level = decide (limit L ≤ r.level) := by
    have hpos : 0 < limit L := by
      unfold limit
      split
      · decide
      · rename_i hne
        have hset : L ≠ 0 := hne
        omega
    rw [passes, hthreshold]
    by_cases h : limit L ≤ r.level
    · have hlevel : 0 < r.level := Int.lt_of_lt_of_le hpos h
      simp [h, hlevel]
    · simp [h]
  rw [hpasses]
  by_cases h : limit L ≤ r.level
  · have htakes : L ≤ r.level := by
      unfold limit at h
      split at h
      · rename_i hunset
        rw [hunset]
        exact Int.le_trans (by decide) h
      · exact h
    simp [handled, hhandlers, h, htakes]
  · simp [h]

end Logging

/-! ## Events -/

open Logging

/-- Logging as far as it has come, with all there is to the head. -/
structure Workings where
  head : HeadLogger
  loggers : Loggers
  written : Text

namespace Workings

variable {c : Workings} {level? : Option Int} {environment given : Option Text}

/-- Before anything has happened. -/
def start : Workings := ⟨.initial, ⟨[], []⟩, []⟩

/-- What an event does. -/
def happen (c : Workings) : Event → Workings
  | .setUp environment given =>
    match c.head.setUp environment given with
    | (.error _, head) => { c with head }
    | (.ok _, head) => { c with head, loggers := { c.loggers with found := [] } }
  | .send r =>
    let upper := c.head.state.lineage c.loggers.known r.logger
    let passes := (c.loggers.found.lookup (r.logger, r.level)).getD
      (decide (0 < r.level) && decide (effectiveLevel upper ≤ r.level))
    { c with
      loggers :=
        ⟨r.logger :: c.loggers.known, ((r.logger, r.level), passes) :: c.loggers.found⟩
      written := c.written ++ if passes then climb upper r else [] }

/-- What several events do. -/
def after (c : Workings) (es : List Event) : Workings := es.foldl happen c

theorem happen_setUp_of_error {e : UnusableLevel} (h : setUp environment given = .error e) :
    c.happen (.setUp environment given) = c := by
  simp only [happen, HeadLogger.setUp_of_error h]

theorem happen_setUp_of_ok {l : Logging} (h : setUp environment given = .ok l) :
    c.happen (.setUp environment given) =
      { c with
        head := ⟨l.level, [⟨c.head.nextKey, l.level⟩], false, c.head.nextKey + 1⟩
        loggers := { c.loggers with found := [] } } := by
  simp only [happen, HeadLogger.setUp_of_ok h]

/-- What holds after any events: once a set-up has returned, the head has its level and one handler on
    this level, and passes nothing on; and what loggers of the family have been found to let through
    is what they let through. -/
structure Settled (c : Workings) (level? : Option Int) : Prop where
  once : ∀ L, level? = some L → 0 ≤ L ∧ c.head.level = L ∧
    (∃ h, c.head.handlers = [h] ∧ h.level = L) ∧ c.head.propagates = false
  found : ∀ logger level b, Belongs logger → c.loggers.found.lookup (logger, level) = some b →
    b = c.head.state.passes true level

/-- What is found out about a logger of the family is true. -/
theorem Settled.passes_eq (h : c.Settled level?) {r : Record} (hr : Belongs r.logger) :
    (c.loggers.found.lookup (r.logger, r.level)).getD (decide (0 < r.level) &&
        decide (effectiveLevel (c.head.state.lineage c.loggers.known r.logger) ≤ r.level)) =
      c.head.state.passes true r.level := by
  cases hfound : c.loggers.found.lookup (r.logger, r.level) with
  | none =>
    rw [Option.getD_none, effectiveLevel_lineage, hr.isInFamily]
    rfl
  | some b => exact h.found _ _ b hr hfound

theorem Settled.happen (h : c.Settled level?) (e : Event) :
    (c.happen e).Settled (e.level?.or level?) := by
  cases e with
  | setUp environment given =>
    cases hsetUp : setUp environment given with
    | error e =>
      rw [happen_setUp_of_error hsetUp, Event.level?, hsetUp]
      exact h
    | ok l =>
      rw [happen_setUp_of_ok hsetUp, Event.level?, hsetUp]
      refine ⟨?_, nofun⟩
      rintro L ⟨⟩
      exact ⟨level_nonneg hsetUp, rfl, ⟨_, rfl, rfl⟩, rfl⟩
  | send r =>
    refine ⟨h.once, fun logger level b hlogger hfound => ?_⟩
    simp only [Workings.happen, List.lookup_cons] at hfound
    split at hfound
    · rename_i hkey
      obtain ⟨rfl, rfl⟩ := Prod.mk.inj (eq_of_beq hkey)
      rw [h.passes_eq hlogger] at hfound
      exact (Option.some.inj hfound).symm
    · exact h.found logger level b hlogger hfound

end Workings

end FreshNames
