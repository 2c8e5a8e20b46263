/-!
# Limits of numbers

Whole numbers have any size, but two uses of them are limited: a place or a length fits into a word
of the machine, and a number with very many digits is neither read nor written.

* `fitsWord` - whether a number fits into a word, up to `wordLimit`;
* `isWritable` - whether a number is written in digits, up to `writeLimit`.
-/

set_option autoImplicit false

namespace FreshNames

/-- The first number that is too large for a signed word of 64 bits. -/
def wordLimit : Nat := 0x8000000000000000

/-- Does the number fit into a signed word of 64 bits? -/
def fitsWord : Int → Bool
  | .ofNat n => n < wordLimit
  | .negSucc n => n < wordLimit

theorem fitsWord_iff {n : Int} : fitsWord n = true ↔ -(wordLimit : Int) ≤ n ∧ n < wordLimit := by
  cases n with
  | ofNat n =>
    simp only [fitsWord, decide_eq_true_eq, Int.ofNat_eq_natCast]
    omega
  | negSucc n =>
    simp only [fitsWord, decide_eq_true_eq, Int.negSucc_eq]
    omega

/-- What is said of a place or a length that does not fit into a word. -/
def beyondWordMessage : String := "cannot fit 'int' into an index-sized integer"

/-- The most digits that are read or written. -/
def digitLimit : Nat := 4300

/-- The first number with more digits. -/
def writeLimit : Nat := Nat.pow 10 digitLimit

/-- Is the number written in digits?  Its sign does not count as one. -/
def isWritable (n : Int) : Bool := n.natAbs < writeLimit

/-- That the limit of digits is exceeded. -/
def beyondDigits : String :=
  s!"Exceeds the limit ({digitLimit} digits) for integer string conversion"

/-- How the limit of digits can be raised. -/
def digitAdvice : String := "; use sys.set_int_max_str_digits() to increase the limit"

/-- What is said of a number that is not written. -/
def unwritableMessage : String := beyondDigits ++ digitAdvice

end FreshNames
