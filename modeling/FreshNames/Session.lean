import FreshNames.Session.Step

/-!
# Sessions

A session holds things under names.  Things are never lost: a name that is bound again leaves the
old thing to those that refer to it.  Random sources and simple-name caches are shared, and what
is logged goes through the logging that is in force.

* `Session.step` - one step: its answer, what it writes, and the session afterwards;
* `Session.run` - all the steps of a session;
* `Session.view?` - what can be seen of the thing under a name.
-/

set_option autoImplicit false

namespace FreshNames

/-- A thing, by its place among those of its sort. -/
inductive Handle
  | factory (place : Nat)
  | stream (place : Nat)
  | shuffler (place : Nat)
  /-- The common random source, which has no place. -/
  | commonShuffler
  deriving DecidableEq, Repr

/-- The names, the latest binding first, and the things; `nextKey` is the key of the next alphabet
    that is made. -/
structure Session where
  bindings : List (Text × Handle)
  shelf : Shelf
  streams : List Stream
  shufflers : List Shuffler
  common : Shuffler
  logging : Logging
  nextKey : Nat

namespace Session

/-- The session before the first step, with a common random source. -/
def initial (common : Shuffler) : Session :=
  ⟨[], .empty, [], [], common, .initial, 1⟩

/-- The key of the letters a to z, which are the same for all factories that fall back on them. -/
def latinKey : Nat := 0

/-! ## Names -/

/-- The thing that a name is bound to. -/
def handle (s : Session) (name : Text) : Except StepError Handle :=
  match s.bindings.lookup name with
  | some h => .ok h
  | none => .error (.unbound name)

/-- The place of the factory that a name is bound to. -/
def factoryPlace (s : Session) (name : Text) : Except StepError Nat :=
  match s.handle name with
  | .error e => .error e
  | .ok (.factory place) => .ok place
  | .ok _ => .error (.unsuitable name)

/-- Binds a name. -/
def bind (s : Session) (name : Text) (h : Handle) : Session :=
  { s with bindings := (name, h) :: s.bindings }

/-- Puts a factory on the shelf and binds a name to it. -/
def bindFactory (s : Session) (name : Text) (f : Factory) : Session :=
  { s.bind name (.factory s.shelf.size) with shelf := s.shelf.add f }

/-- What can be seen of the thing under a name. -/
def view? (s : Session) (name : Text) : Option View :=
  match s.bindings.lookup name with
  | none => none
  | some (.factory place) => (s.shelf.get? place).map (·.view s.shelf.caches)
  | some (.stream place) => (s.streams[place]?).map fun stream => .stream stream.isClosed
  | some (.shuffler _) => some .shuffler
  | some .commonShuffler => some .shuffler

/-! ## Random sources -/

/-- Where the shuffler for a construction comes from. -/
inductive Lot
  | common
  | own (s : Shuffler)
  | shared (place : Nat)

/-- The random source that is meant. -/
def lot (s : Session) : ShufflerRef → Except StepError Lot
  | .common => .ok .common
  | .own shuffler => .ok (.own shuffler)
  | .bound name =>
    match s.handle name with
    | .error e => .error e
    | .ok (.shuffler place) => .ok (.shared place)
    | .ok .commonShuffler => .ok .common
    | .ok _ => .error (.unsuitable name)

/-- The shuffler in its present state. -/
def shuffler (s : Session) : Lot → Shuffler
  | .common => s.common
  | .own shuffler => shuffler
  | .shared place => (s.shufflers[place]?).getD .inOrder

/-- The session with a shuffler in its next state. -/
def putShuffler (s : Session) (l : Lot) (next : Shuffler) : Session :=
  match l with
  | .common => { s with common := next }
  | .own _ => s
  | .shared place => { s with shufflers := s.shufflers.set place next }

/-! ## Dictionary factories -/

/-- Where the alphabet of a dictionary factory comes from. -/
inductive Origin
  | source (s : Source)
  | stream (place : Nat) (s : Stream)
  | letters (l : SharedAlphabet)

/-- The origin that is meant. -/
def origin (s : Session) : SourceRef → Except StepError Origin
  | .given source => .ok (.source source)
  | .bound name =>
    match s.handle name with
    | .error e => .error e
    | .ok (.stream place) =>
      match s.streams[place]? with
      | some stream => .ok (.stream place stream)
      | none => .error (.unsuitable name)
    | .ok (.factory place) =>
      match s.shelf.get? place with
      | some (.dictionary letters _ _) => .ok (.letters letters)
      | _ => .error (.unsuitable name)
    | .ok _ => .error (.unsuitable name)

/-- The place of the fallback that is meant, if one is meant. -/
def fallbackPlace (s : Session) : Option Text → Except StepError (Option Nat)
  | none => .ok none
  | some name =>
    match s.factoryPlace name with
    | .error e => .error e
    | .ok place => .ok (some place)

/-- The session after a stream has been read for a construction. -/
def putSource (s : Session) (place? : Option Nat) (source : Source) : Session :=
  match place?, source with
  | some place, .stream stream => { s with streams := s.streams.set place stream }
  | _, _ => s

/-- The answer of a step without its view: a reply or an error, the log records, and the session
    afterwards. -/
structure Outcome where
  result : Except StepError Reply
  records : List Record
  session : Session

/-- An outcome without log records. -/
def quiet (result : Except StepError Reply) (s : Session) : Outcome := ⟨result, [], s⟩

/-- The alphabet of an extraction with its key, and the session with the key used up. -/
def keyed (s : Session) (e : Extraction) : SharedAlphabet × Session :=
  if e.isFound then (⟨e.alphabet, s.nextKey⟩, { s with nextKey := s.nextKey + 1 })
  else (⟨e.alphabet, latinKey⟩, s)

/-- Reads the alphabet of a dictionary factory and binds a name to the factory. -/
def makeFromSource (w : World) (s : Session) (name : Text) (p : DictionaryPlan) (lot : Lot)
    (fallback : Option Nat) (place? : Option Nat) (source : Source) : Outcome :=
  let c := construct w p.charset p.welcome (s.shuffler lot) fallback.isSome source
  let s := s.putSource place? c.source
  match c.result, fallback with
  | .error e, _ => ⟨.error (.construction e), c.records, s⟩
  | .ok _, none => ⟨.error (.construction .fallbackMissing), c.records, s⟩
  | .ok extraction, some fallback =>
    let (letters, s) := (s.putShuffler lot extraction.shuffler).keyed extraction
    ⟨.ok .done, c.records, s.bindFactory name (.dictionary letters 0 fallback)⟩

/-- Makes a dictionary factory.  The names in the plan are looked up in the order source, fallback,
    random source; another dictionary factory lends its alphabet. -/
def makeDictionary (w : World) (s : Session) (name : Text) (p : DictionaryPlan) : Outcome :=
  match s.origin p.source with
  | .error e => quiet (.error e) s
  | .ok origin =>
    match s.fallbackPlace p.fallback with
    | .error e => quiet (.error e) s
    | .ok fallback =>
      match s.lot p.shuffler with
      | .error e => quiet (.error e) s
      | .ok lot =>
        match origin with
        | .source source => makeFromSource w s name p lot fallback none source
        | .stream place stream => makeFromSource w s name p lot fallback (some place) (.stream stream)
        | .letters letters =>
          match fallback with
          | none => quiet (.error (.construction .fallbackMissing)) s
          | some fallback =>
            quiet (.ok .done) (s.bindFactory name (.dictionary letters 0 fallback))

/-- Binds a name to a random source, which is new if it is one of its own. -/
def bindShuffler (s : Session) (name : Text) : ShufflerRef → Outcome
  | .common => quiet (.ok .done) (s.bind name .commonShuffler)
  | .own shuffler =>
    quiet (.ok .done)
      { s.bind name (.shuffler s.shufflers.length) with shufflers := s.shufflers ++ [shuffler] }
  | .bound other =>
    match s.handle other with
    | .error e => quiet (.error e) s
    | .ok h => quiet (.ok .done) (s.bind name h)

/-- Makes something and binds a name to it. -/
def make (w : World) (s : Session) (name : Text) : Plan → Outcome
  | .dictionary p => s.makeDictionary w name p
  | .simple lc => quiet (.ok .done) (s.bindFactory name (.simple lc 0))
  | .numeric => quiet (.ok .done) (s.bindFactory name (.numeric 0))
  | .prefixing inner pre =>
    match s.factoryPlace inner with
    | .error e => quiet (.error e) s
    | .ok place => quiet (.ok .done) (s.bindFactory name (.prefixing place pre))
  | .counting => quiet (.ok .done) (s.bindFactory name (.counting 0 0))
  | .alias other =>
    match s.handle other with
    | .error e => quiet (.error e) s
    | .ok h => quiet (.ok .done) (s.bind name h)
  | .stream stream =>
    quiet (.ok .done)
      { s.bind name (.stream s.streams.length) with streams := s.streams ++ [stream] }
  | .shuffler shuffler => s.bindShuffler name shuffler

/-! ## Using things -/

/-- Asks the cache of a simple factory, in one of the two ways. -/
def askCache (s : Session) (name : Text) (place : Nat)
    (ask : NameCaches → LetterCase → Except NameProblem (Text × NameCaches)) : Outcome :=
  match s.shelf.get? place with
  | some (.simple lc _) =>
    match ask s.shelf.caches lc with
    | .error e => quiet (.error (.name e)) s
    | .ok (t, caches) => quiet (.ok (.name t)) { s with shelf := { s.shelf with caches } }
  | _ => quiet (.error (.unsuitable name)) s

/-- Have two factories the very same alphabet, or the very same cache? -/
def haveSame : Option Factory → Option Factory → Bool
  | some (.dictionary l _ _), some (.dictionary l' _ _) => l.key == l'.key
  | some (.simple lc _), some (.simple lc' _) => lc == lc'
  | _, _ => false

/-- Does something with the factory at a place, to which a name is bound. -/
def actOnFactory (s : Session) (name : Text) (place : Nat) : Action → Outcome
  | .next =>
    match s.shelf.next place with
    | (.error e, shelf) => quiet (.error (.name e)) { s with shelf }
    | (.ok t, shelf) => quiet (.ok (.name t)) { s with shelf }
  | .names count =>
    match s.shelf.names place count.toNat with
    | (.error e, shelf) => quiet (.error (.name e)) { s with shelf }
    | (.ok ts, shelf) => quiet (.ok (.names ts)) { s with shelf }
  | .reset =>
    let (records, shelf) := s.shelf.reset place
    ⟨.ok .done, records, { s with shelf }⟩
  | .name index => s.askCache name place fun caches lc => caches.nameAt lc index
  | .newName index => s.askCache name place fun caches lc => caches.newNameAt lc index
  | .setIndex index => quiet (.ok .done) { s with shelf := s.shelf.modify place (.withIndex index) }
  | .setAlphabet v =>
    match Alphabet.ofValue v with
    | .error e => quiet (.error (.alphabet e)) s
    | .ok a =>
      quiet (.ok .done) { s with
        shelf := s.shelf.modify place (.withLetters ⟨a, s.nextKey⟩)
        nextKey := s.nextKey + 1 }
  | .look => quiet (.ok .done) s
  | .shares other =>
    match s.factoryPlace other with
    | .error e => quiet (.error e) s
    | .ok place' =>
      quiet (.ok (.truth (haveSame (s.shelf.get? place) (s.shelf.get? place')))) s

/-- Does something with the thing under a name.  Streams and random sources can only be looked at. -/
def act (s : Session) (name : Text) (a : Action) : Outcome :=
  match s.handle name with
  | .error e => quiet (.error e) s
  | .ok (.factory place) => s.actOnFactory name place a
  | .ok _ =>
    match a with
    | .look => quiet (.ok .done) s
    | _ => quiet (.error (.unsuitable name)) s

/-! ## Steps -/

/-- What one step does. -/
def perform (w : World) (s : Session) : Step → Outcome
  | .make name p => s.make w name p
  | .act name a => s.act name a
  | .setUpLogging level =>
    match Logging.setUp none level with
    | .error e => quiet (.error (.level e)) s
    | .ok logging => quiet (.ok (.logging logging)) { s with logging }

/-- The name of the thing that a step is about. -/
def subject? : Step → Option Text
  | .make name _ => some name
  | .act name _ => some name
  | .setUpLogging _ => none

/-- The answer of a step: its result, what can be seen afterwards of the thing it is about, and what
    it has written. -/
structure Answer where
  result : Except StepError Reply
  view : Option View
  output : Text

/-- One step.  What it logs goes through the logging in force when it begins. -/
def step (w : World) (s : Session) (st : Step) : Answer × Session :=
  let o := s.perform w st
  (⟨o.result, (subject? st).bind o.session.view?, s.logging.writeAll o.records⟩, o.session)

/-- All the steps of a session. -/
def run (w : World) (s : Session) : List Step → List Answer × Session
  | [] => ([], s)
  | st :: rest =>
    let (answer, s) := s.step w st
    let (answers, s) := run w s rest
    (answer :: answers, s)

end Session

end FreshNames
