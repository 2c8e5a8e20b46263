import FreshNames.Source

/-!
# Constructing a dictionary factory

A dictionary factory needs a fallback and an alphabet.  The alphabet is extracted from a source; the
fallback is asked for first, and nothing is read without it.

* `construct` - the extraction that a source gives, and the source afterwards;
* `construct_fallbackMissing` - without a fallback nothing happens to the source.
-/

set_option autoImplicit false

namespace FreshNames

/-- Why there is no factory. -/
inductive ConstructionError
  /-- There is nothing to fall back on. -/
  | fallbackMissing
  /-- The source gives no alphabet. -/
  | source (e : SourceError)
  deriving DecidableEq, Repr

/-- The wording of the error. -/
def ConstructionError.message : ConstructionError → Text
  | fallbackMissing => "a fallback name factory is required".toList
  | source e => e.message

/-- What comes of a construction: what is logged, the extraction, and the source afterwards. -/
structure Construction where
  records : List Record
  result : Except ConstructionError Extraction
  source : Source

/-- The source after somebody has tried to read all of it. -/
def Source.afterReading (codecs : Codecs) (charset : Text) : Source → Source
  | stream s => stream (s.afterReading codecs charset)
  | s => s

/-- Reads the alphabet of a dictionary factory from a source. -/
def construct (w : World) (charset : Text) (welcome : Welcome) (shuffler : Shuffler)
    (hasFallback : Bool) (s : Source) : Construction :=
  if hasFallback then
    let reading := s.extract w charset welcome shuffler
    ⟨reading.records,
      match reading.result with
      | .error e => .error (.source e)
      | .ok extraction => .ok extraction,
      s.afterReading w.codecs charset⟩
  else ⟨[], .error .fallbackMissing, s⟩

theorem construct_fallbackMissing (w : World) (charset : Text) (welcome : Welcome)
    (shuffler : Shuffler) (s : Source) :
    construct w charset welcome shuffler false s = ⟨[], .error .fallbackMissing, s⟩ := rfl

end FreshNames
