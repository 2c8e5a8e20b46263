import FreshNames.CommandLine

/-!
# Arguments of the command

For every plan of the command there are arguments that ask for it, whatever the toolkit, as long as it
is lawful: a number that is written in digits is read again, and each switch is taken for what it is.

* `Text.readInteger_toString` - numbers that are written and read again;
* `CommandLine.Asks` - arguments that ask for a plan; `run_of_asks` - what the program does with them;
* `SamplePlan.arguments` - arguments for a plan; `asks_arguments` - they ask for it;
* `plainToolkit` - a toolkit that knows the lawful forms only.
-/

set_option autoImplicit false

namespace FreshNames

/-! ## Numbers in digits -/

namespace Text

variable {c : Char} {t : Text}

theorem toNat_of_isDigit (h : c.isDigit = true) : 48 ≤ c.toNat ∧ c.toNat < 58 := by
  have hc : 48 ≤ c.toNat ∧ c.toNat ≤ 57 := Char.isDigit_iff_toNat.1 h
  omega

/-- No blank stands among the digits or just before them, where the sign is. -/
theorem isNumberBlank_of_toNat (hlo : 45 ≤ c.toNat) (hhi : c.toNat < 58) :
    isNumberBlank c = false := by
  have hranges : ∀ r ∈ blanks.ranges, r.2 < 45 ∨ 58 ≤ r.1 := by decide
  rw [isNumberBlank, Bool.and_eq_false_iff, Bool.eq_false_iff]
  refine .inl fun hblank => ?_
  obtain ⟨r, hr, hle⟩ := CodeTable.contains_sound hblank
  have := hranges r hr
  omega

theorem digit?_of_isDigit (h : c.isDigit = true) : digit? c = some (c.toNat - '0'.toNat) := by
  have hc := toNat_of_isDigit h
  simp [digit?, zeros, hc.1, hc.2]

/-- A run of digits is read to its end. -/
theorem digitRun_of_digits (h : ∀ c ∈ t, c.isDigit = true) (count value : Nat) :
    digitRun count value true t = some (count + t.length, Nat.ofDigitChars 10 t value, []) := by
  induction t generalizing count value with
  | nil => rfl
  | cons c t ih =>
    obtain ⟨hc, ht⟩ := List.forall_mem_cons.1 h
    rw [digitRun, digit?_of_isDigit hc]
    simp only
    rw [ih ht, List.length_cons, Nat.ofDigitChars_cons, Nat.mul_comm 10]
    congr 2
    omega

theorem isDigit_of_mem_toDigits {n : Nat} (h : c ∈ Nat.toDigits 10 n) : c.isDigit = true :=
  Nat.isDigit_of_mem_toDigits (by decide) (by decide) h

/-- A number in digits begins with one. -/
theorem exists_toDigits (n : Nat) :
    ∃ c t, Nat.toDigits 10 n = c :: t ∧ c.isDigit = true ∧ ∀ d ∈ t, d.isDigit = true := by
  have hdigits : ∀ c ∈ Nat.toDigits 10 n, c.isDigit = true := fun _ => isDigit_of_mem_toDigits
  obtain ⟨c, t, h⟩ := List.exists_cons_of_ne_nil (Nat.toDigits_ne_nil (n := n) (b := 10))
  rw [h] at hdigits
  obtain ⟨hc, ht⟩ := List.forall_mem_cons.1 hdigits
  exact ⟨c, t, h, hc, ht⟩

theorem digitRun_toDigits (n : Nat) : digitRun 0 0 false (Nat.toDigits 10 n) =
    some ((Nat.toDigits 10 n).length, n, []) := by
  have hvalue : Nat.ofDigitChars 10 (Nat.toDigits 10 n) 0 = n :=
    Nat.ofDigitChars_toDigits (by decide) (by decide)
  obtain ⟨c, t, h, hc, ht⟩ := exists_toDigits n
  rw [h] at hvalue ⊢
  rw [digitRun, digit?_of_isDigit hc]
  simp only
  rw [digitRun_of_digits ht, ← hvalue, List.length_cons, Nat.ofDigitChars_cons]
  simp [Nat.add_comm]

theorem length_toDigits_le {n k : Nat} (hk : 0 < k) (h : n < Nat.pow 10 k) :
    (Nat.toDigits 10 n).length ≤ k :=
  (Nat.length_toDigits_le_iff (by decide) hk).2 h

theorem length_toDigits_of_lt_writeLimit {n : Nat} (h : n < writeLimit) :
    (Nat.toDigits 10 n).length ≤ digitLimit := by
  unfold writeLimit at h
  exact length_toDigits_le (by decide) h

theorem readInteger_toDigits {n : Nat} (h : n < writeLimit) :
    readInteger (Nat.toDigits 10 n) = .ok n := by
  have hblank : ∀ c ∈ Nat.toDigits 10 n, isNumberBlank c = false := by
    intro c hc
    have := toNat_of_isDigit (isDigit_of_mem_toDigits hc)
    exact isNumberBlank_of_toNat (by omega) this.2
  have hrun := digitRun_toDigits n
  have hlength := length_toDigits_of_lt_writeLimit h
  generalize (Nat.toDigits 10 n).length = k at hrun hlength
  unfold readInteger
  dsimp only
  rw [dropAround_of_none hblank]
  obtain ⟨c, t, hdigits, hc, -⟩ := exists_toDigits n
  rw [hdigits] at hrun ⊢
  have hminus : c ≠ '-' := by
    rintro rfl
    cases hc
  have hplus : c ≠ '+' := by
    rintro rfl
    cases hc
  simp [hminus, hplus, hrun, hlength]

theorem readInteger_minus {n : Nat} (h : n < writeLimit) :
    readInteger ('-' :: Nat.toDigits 10 n) = .ok (-n) := by
  have hblank : ∀ c ∈ '-' :: Nat.toDigits 10 n, isNumberBlank c = false := by
    refine List.forall_mem_cons.2 ⟨isNumberBlank_of_toNat (by decide) (by decide), fun c hc => ?_⟩
    have := toNat_of_isDigit (isDigit_of_mem_toDigits hc)
    exact isNumberBlank_of_toNat (by omega) this.2
  have hlength := length_toDigits_of_lt_writeLimit h
  unfold readInteger
  dsimp only
  rw [dropAround_of_none hblank]
  simp only [digitRun_toDigits]
  rw [if_neg (by omega)]
  rfl

theorem toList_toString_ofNat (n : Nat) : (toString (Int.ofNat n)).toList = Nat.toDigits 10 n :=
  Nat.toList_repr

theorem toList_toString_negSucc (n : Nat) :
    (toString (Int.negSucc n)).toList = '-' :: Nat.toDigits 10 (n + 1) := by
  show ("-" ++ Nat.repr (n + 1)).toList = _
  rw [String.toList_append, Nat.toList_repr]
  rfl

/-- **A number that is written is read again**, if it can be written at all. -/
theorem readInteger_toString {n : Int} (h : isWritable n = true) :
    readInteger (toString n).toList = .ok n := by
  have hlt : n.natAbs < writeLimit := of_decide_eq_true h
  cases n with
  | ofNat n =>
    rw [toList_toString_ofNat]
    exact readInteger_toDigits hlt
  | negSucc n =>
    rw [toList_toString_negSucc]
    exact readInteger_minus hlt

end Text

/-! ## Arguments for a plan -/

namespace CommandLine

variable {s : Surroundings} {k : Toolkit} {words : List Text} {plan : SamplePlan}

/-- The words ask the program for its command, and the command to do what is planned. -/
inductive Asks (k : Toolkit) (words : List Text) (plan : SamplePlan) : Prop
  | intro {own : List Text} {a b : Asked} (htop : k.read .top words = .asked a) (hwords : a.words = [])
      (hcommand : a.command = some own) (hown : k.read .sample own = .asked b)
      (hplan : SamplePlan.ofAsked b = .ok plan)

/-- Where nothing else is asked for, the command is carried out with the words behind it. -/
theorem top_of_command {own : List Text} {a : Asked} (htop : s.toolkit.read .top words = .asked a)
    (hwords : a.words = []) (hcommand : a.command = some own) {logging logging' : Logging}
    (hlogging : switchedLogging a logging = .ok logging') (sink : Sink) :
    top s logging sink words = sample s logging' sink own := by
  simp only [top, htop, hlogging, hwords, hcommand]

/-- What the program does when it is asked, once the level in the environment has been used: all
    that the switches of the program can change is what is logged. -/
theorem run_of_asks (h : Asks s.toolkit words plan) {logging : Logging}
    (hlogging : Logging.setUp s.level? none = .ok logging) (sink : Sink) :
    ∃ logging', run s sink words = samplePrinting s logging' sink plan := by
  obtain ⟨htop, hwords, hcommand, hown, hplan⟩ := h
  rename_i own a b
  obtain ⟨logging', hlogging'⟩ := exists_switchedLogging a logging
  refine ⟨logging', ?_⟩
  simp only [run, hlogging, top_of_command htop hwords hcommand hlogging', sample, hown, hplan]

namespace SamplePlan

/-- The switch that makes every character welcome. -/
def welcomeWords : Welcome → List Text
  | .anything => ["--any-characters".toList]
  | .identifiers => []

/-- The switch for a seed. -/
def seedWords : Option Int → List Text
  | some seed => ["--seed".toList, (toString seed).toList]
  | none => []

/-- The switch for a number of names. -/
def countWords (count : Nat) : List Text := ["--count".toList, (toString (count : Int)).toList]

/-- Arguments that ask for names as planned. -/
def arguments (plan : SamplePlan) : List Text :=
  commandWord :: (welcomeWords plan.welcome ++ (seedWords plan.seed ++
    (countWords plan.count ++ [dashes, plan.dictionary])))

/-- What the switches for a welcome and for a seed ask for. -/
def welcomeFlags : Welcome → List Flag
  | .anything => [.anyCharacters]
  | .identifiers => []

def seedNumbers : Option Int → List (Setting × Int)
  | some seed => [(.seed, seed)]
  | none => []

theorem isWritable_of_le {n : Nat} (h : (n : Int) ≤ Setting.greatestCount) :
    isWritable n = true := by
  have hlt : n < 10 ^ 19 := by
    simp only [Setting.greatestCount] at h
    omega
  have hle (k : Nat) (hk : 19 ≤ k) : 10 ^ 19 ≤ Nat.pow 10 k := Nat.pow_le_pow_right (by decide) hk
  have hlimit : 10 ^ 19 ≤ writeLimit := by
    unfold writeLimit
    exact hle digitLimit (by decide)
  simp only [isWritable, Int.natAbs_natCast, decide_eq_true_eq]
  exact Nat.lt_of_lt_of_le hlt hlimit

section

variable (hk : k.IsLawful) {a : Asked}

include hk

theorem read_welcomeWords (welcome : Welcome) (hflags : a.flags = [])
    (h : k.read .sample words = .asked a) :
    k.read .sample (welcomeWords welcome ++ words) =
      .asked { a with flags := welcomeFlags welcome } := by
  obtain ⟨flags, numbers, words', command⟩ := a
  cases hflags
  cases welcome with
  | identifiers => exact h
  | anything => exact hk.flag .anyCharacters _ _ words List.mem_cons_self (by simp) h

theorem read_seedWords {seed : Option Int} (hseed : ∀ n, seed = some n → isWritable n = true)
    (hnone : a.numbers.lookup .seed = none) (h : k.read .sample words = .asked a) :
    k.read .sample (seedWords seed ++ words) =
      .asked { a with numbers := seedNumbers seed ++ a.numbers } := by
  cases seed with
  | none => exact h
  | some n =>
    exact hk.setting .seed a _ _ n words List.mem_cons_self hnone
      (Text.readInteger_toString (hseed n rfl)) rfl h

theorem read_countWords {count : Nat} (hcount : (count : Int) ≤ Setting.greatestCount)
    (hnone : a.numbers.lookup .count = none) (h : k.read .sample words = .asked a) :
    k.read .sample (countWords count ++ words) =
      .asked { a with numbers := (.count, count) :: a.numbers } := by
  have htakes : Setting.count.takes count = true := by simp [Setting.takes, hcount]
  exact hk.setting .count a _ _ count words (List.mem_cons_of_mem _ List.mem_cons_self) hnone
    (Text.readInteger_toString (isWritable_of_le hcount)) htakes h

/-- **Every plan for names can be asked for**, if its seed can be written and its number of names is
    one that is taken. -/
theorem asks_arguments {plan : SamplePlan} (hcount : (plan.count : Int) ≤ Setting.greatestCount)
    (hseed : ∀ n, plan.seed = some n → isWritable n = true) (halphabet : plan.showsAlphabet = false) :
    Asks k plan.arguments plan := by
  obtain ⟨dictionary, count, seed, welcome, showsAlphabet⟩ := plan
  cases halphabet
  -- the words are understood from the last one to the first
  have hdictionary := hk.dashes dictionary
  have hcounted := read_countWords hk hcount rfl hdictionary
  have hseeded := read_seedWords hk hseed rfl hcounted
  have hown := read_welcomeWords hk welcome rfl hseeded
  refine .intro (hk.command _) rfl rfl hown ?_
  cases welcome <;> cases seed <;> rfl

end

end SamplePlan

end CommandLine

/-! ## A plain toolkit -/

namespace PlainToolkit

/-- The flag of a name. -/
def flag? (app : Application) (w : Text) : Option Flag :=
  [Flag.verbose, .anyCharacters, .alphabet].find? fun f => f.owner == app && f.names.contains w

/-- The setting of a name. -/
def setting? (app : Application) (w : Text) : Option Setting :=
  if app = .sample then [Setting.count, .seed].find? (·.names.contains w) else none

/-- Words that are not understood. -/
def usage : Reading := .told ["Error\n".toList] 2

/-- Adds a flag to what is asked for. -/
def addFlag (f : Flag) : Reading → Reading
  | .asked a => if f ∈ a.flags then usage else .asked { a with flags := f :: a.flags }
  | r => r

/-- Adds a setting to what is asked for, with the number that a text writes. -/
def addSetting (s : Setting) (t : Text) : Reading → Reading
  | .asked a =>
    match Text.readInteger t with
    | .error _ => usage
    | .ok n =>
      if s.takes n && (a.numbers.lookup s).isNone then .asked { a with numbers := (s, n) :: a.numbers }
      else usage
  | r => r

/-- What words say: switches, and then the command or two dashes. -/
def read (app : Application) : List Text → Reading
  | [] => if app = .top then .asked (.ofWords []) else usage
  | w :: rest =>
    if app = .top ∧ w = commandWord then .asked (.ofCommand rest)
    else if w = dashes then
      if app = .top ∨ rest.length = 1 then .asked (.ofWords rest) else usage
    else
      match flag? app w with
      | some f => addFlag f (read app rest)
      | none =>
        match setting? app w with
        | none => usage
        | some s =>
          match rest with
          | [] => usage
          | t :: rest => addSetting s t (read app rest)

theorem flag?_of_mem : ∀ f : Flag, ∀ w ∈ f.names,
    flag? f.owner w = some f ∧ w ≠ commandWord ∧ w ≠ dashes
  | .verbose => by decide
  | .anyCharacters => by decide
  | .alphabet => by decide

theorem setting?_of_mem : ∀ s : Setting, ∀ w ∈ s.names,
    setting? .sample w = some s ∧ flag? .sample w = none ∧ w ≠ dashes
  | .count => by decide
  | .seed => by decide

end PlainToolkit

/-- A toolkit that knows the lawful forms and no others. -/
def plainToolkit : Toolkit := ⟨["Usage\n".toList], PlainToolkit.read⟩

open PlainToolkit in
theorem isLawful_plainToolkit : plainToolkit.IsLawful where
  command words := by simp [plainToolkit, PlainToolkit.read]
  flag f a w words hw hf h := by
    obtain ⟨hflag, hcommand, hdashes⟩ := flag?_of_mem f w hw
    have hrest : PlainToolkit.read f.owner words = .asked a := h
    simp [plainToolkit, PlainToolkit.read, hcommand, hdashes, hflag, hrest, addFlag, hf]
  setting s a w t n words hw hnone hn htakes h := by
    obtain ⟨hsetting, hflag, hdashes⟩ := setting?_of_mem s w hw
    have hrest : PlainToolkit.read .sample words = .asked a := h
    simp [plainToolkit, PlainToolkit.read, hdashes, hflag, hsetting, hrest, addSetting, hn, htakes,
      hnone]
  dashes t := by simp [plainToolkit, PlainToolkit.read]

end FreshNames
