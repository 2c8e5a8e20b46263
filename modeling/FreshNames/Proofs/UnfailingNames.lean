import FreshNames.Proofs.CollectedLetters
import FreshNames.Proofs.Independence
import FreshNames.Proofs.PrintedNames

/-!
# Names that never run out

A dictionary factory has a name for every index that is not negative, and it is nobody but the caller
who makes an index negative.  Its alphabet always has a letter, and no letter twice, so that the loop
that writes a number with these letters divides by their number, which is not zero, and finds a letter
for every remainder.

* `Alphabet.spell` - the loop, with all that may go wrong in it; `spell_letters` - over an alphabet it
  goes wrong for negative numbers only;
* `Session.after`, `Session.exists_assignment` - a history of steps, and where in it a negative index
  comes from;
* `Session.Supplies` - what a dictionary factory answers, and where it is afterwards;
* `Session.dictionary_supplies` - this is so in every session that can arise.
-/

set_option autoImplicit false

namespace FreshNames

/-! ## Writing numbers with letters -/

/-- What can go wrong while a number is written with letters. -/
inductive SpellFailure
  /-- The number is negative. -/
  | negative (e : Alphabet.NegativeIndex)
  /-- There are no letters, and nothing can be divided by their number. -/
  | noLetters
  /-- There is no letter for a digit. -/
  | noLetter (digit : Nat)
  deriving DecidableEq, Repr

namespace Alphabet

/-- The rounds of the loop: the number is made one smaller and divided by the number of letters, and
    the remainder is the place of the next letter, until nothing is left. -/
def spellRounds (letters : List Char) : Nat → Except SpellFailure Text
  | 0 => .ok []
  | n + 1 =>
    if letters.isEmpty then .error .noLetters
    else
      match letters[n % letters.length]? with
      | none => .error (.noLetter (n % letters.length))
      | some c =>
        match spellRounds letters (n / letters.length) with
        | .error e => .error e
        | .ok t => .ok (c :: t)
termination_by n => n
decreasing_by exact Nat.lt_succ_of_le (Nat.div_le_self n letters.length)

/-- Writes a number with letters, whatever these are. -/
def spell (letters : List Char) : Int → Except SpellFailure Text
  | .ofNat n => spellRounds letters (n + 1)
  | .negSucc n => .error (.negative ⟨.negSucc n⟩)

/-- Over an alphabet each round finds a letter, the one of the digit. -/
theorem spellRounds_letters (a : Alphabet) (n : Nat) :
    spellRounds a.letters n = .ok ((Numeral.digits a.size a.size_pos n).map a.letter) := by
  induction n using Nat.strongRecOn with
  | _ n ih =>
    cases n with
    | zero => rw [spellRounds, Numeral.digits_zero, List.map_nil]
    | succ n =>
      have hempty : ¬ a.letters.isEmpty = true := by simp [a.nonempty]
      have hdigit : n % a.letters.length < a.letters.length := Nat.mod_lt n a.size_pos
      have hrest := ih (n / a.letters.length) (Nat.lt_succ_of_le (Nat.div_le_self n _))
      rw [spellRounds, if_neg hempty, List.getElem?_eq_getElem hdigit, hrest, Numeral.digits_succ,
        List.map_cons]
      rfl

/-- **Over an alphabet nothing goes wrong but that a number is negative**: there is never nothing to
    divide by, nor a digit without a letter. -/
theorem spell_letters (a : Alphabet) (i : Int) :
    spell a.letters i = (a.encode i).mapError .negative := by
  cases i with
  | ofNat n => exact a.spellRounds_letters (n + 1)
  | negSucc n => rfl

end Alphabet

/-! ## Factories that are asked -/

namespace Shelf

variable {s s' : Shelf} {place q k fallback : Nat} {letters : SharedAlphabet} {index : Int}

/-- A dictionary factory with a negative index refuses, and nothing changes. -/
theorem next_of_negative (hf : s.get? place = some (.dictionary letters index fallback))
    (hi : index < 0) : s.next place = (.error (.negative ⟨index⟩), s) := by
  obtain ⟨n, rfl⟩ := Int.eq_negSucc_of_lt_zero hi
  have hnext : Factory.nextAt s.caches s.factories place = _ := Factory.nextAt_of_isGiver hf rfl
  have hsame : s.modify place (fun g => (g.draw s.caches).2.1) = s := modify_eq_self hf rfl
  rw [next, hnext]
  exact congrArg (Prod.mk _) hsame

theorem names_of_negative (hf : s.get? place = some (.dictionary letters index fallback))
    (hi : index < 0) (count : Nat) :
    s.names place (count + 1) = (.error (.negative ⟨index⟩), s) := by
  have hnext := next_of_negative hf hi
  rw [names_succ_of_error (congrArg Prod.fst hnext), hnext]

/-- Behind its names a dictionary factory has counted them all. -/
theorem get?_names_of_dictionary (h : s.get? place = some (.dictionary letters k fallback))
    (count : Nat) :
    (s.names place count).2.get? place = some (.dictionary letters (k + count : Nat) fallback) := by
  induction count generalizing s k with
  | zero => exact h
  | succ count ih =>
    obtain ⟨hname, hplace⟩ := next_of_dictionary h
    have hrest := ih hplace
    rw [names_succ_of_ok hname, hrest, Nat.add_assoc, Nat.add_comm 1]

/-- Nobody else moves a dictionary factory from a negative index either. -/
theorem get?_next_of_negative (hgr : s.Grounded)
    (hf : s.get? place = some (.dictionary letters index fallback)) (hi : index < 0)
    (hq : q < s.size) : (s.next q).2.get? place = some (.dictionary letters index fallback) := by
  obtain ⟨t, giver, hgives⟩ := hgr.exists_gives hq
  obtain ⟨g, hg, -⟩ := hgives.exists_giver
  obtain ⟨n, rfl⟩ := Int.eq_negSucc_of_lt_zero hi
  rw [next_eq hgr hgives hg]
  show (s.modify giver fun f => (f.draw s.caches).2.1).get? place = _
  rw [get?_modify, hf]
  split <;> rfl

theorem get?_names_of_negative (hgr : s.Grounded)
    (hf : s.get? place = some (.dictionary letters index fallback)) (hi : index < 0)
    (hq : q < s.size) (count : Nat) :
    (s.names q count).2.get? place = some (.dictionary letters index fallback) := by
  have hkeep : ∀ s' : Shelf,
      s'.Grounded ∧ q < s'.size ∧ s'.get? place = some (.dictionary letters index fallback) →
      (s'.next q).2.Grounded ∧ q < (s'.next q).2.size ∧
        (s'.next q).2.get? place = some (.dictionary letters index fallback) := by
    rintro s' ⟨hgr', hq', hf'⟩
    refine ⟨?_, ?_, get?_next_of_negative hgr' hf' hi hq'⟩
    · exact hgr'.pointwise (s'.next_onward q) Factory.Onward.delegate?_eq
    · rw [size_next]
      exact hq'
  exact (names_keeps hkeep ⟨hgr, hq, hf⟩ count).2.2

/-- A dictionary factory that is moved onward, and not from a negative index, has none afterwards. -/
theorem get?_of_onward (hon : s.Pointwise Factory.Onward s') (hi : index < 0)
    (hkeep : ∀ letters i fallback, i < 0 → s.get? place = some (.dictionary letters i fallback) →
      s'.get? place = some (.dictionary letters i fallback))
    (hf : s'.get? place = some (.dictionary letters index fallback)) :
    s.get? place = some (.dictionary letters index fallback) := by
  obtain ⟨f, hold, hrel⟩ := hon.back hf
  cases hrel with
  | @dictionary _ i _ _ hle =>
    have hsame := hkeep letters i fallback (Int.lt_of_le_of_lt hle hi) hold
    rw [hf] at hsame
    cases hsame
    exact hold

end Shelf

/-! ## Histories -/

namespace Session

variable {s s' : Session} {w : World} {st : Step} {x : Text} {place fallback : Nat} {index : Int}
  {letters : SharedAlphabet}

/-- The session behind the steps of a history, of which each may find another world. -/
def after (s : Session) : List (World × Step) → Session
  | [] => s
  | (w, st) :: rest => after (s.step w st).2 rest

theorem after_append (s : Session) (history history' : List (World × Step)) :
    s.after (history ++ history') = (s.after history).after history' := by
  induction history generalizing s with
  | nil => rfl
  | cons p history ih => exact ih (s.step p.1 p.2).2

theorem Reachable.after (h : s.Reachable) (history : List (World × Step)) :
    (s.after history).Reachable := by
  induction history generalizing s with
  | nil => exact h
  | cons p history ih => exact ih (h.step p.1 p.2)

/-- Every session that can arise has a history. -/
theorem Reachable.exists_history (h : s.Reachable) :
    ∃ common history, (Session.initial common).after history = s := by
  induction h with
  | initial common => exact ⟨common, [], rfl⟩
  | step w st _ ih =>
    obtain ⟨common, history, rfl⟩ := ih
    exact ⟨common, history ++ [(w, st)], after_append ..⟩

/-! ## Where a negative index comes from -/

/-- The factory at a place is a dictionary factory with the index. -/
def HasIndex (s : Session) (place : Nat) (index : Int) : Prop :=
  ∃ letters fallback, s.shelf.get? place = some (.dictionary letters index fallback)

/-- The step gives the factory at a place the index. -/
def Assigns (s : Session) (place : Nat) (index : Int) (st : Step) : Prop :=
  ∃ x, st = .act x (.setIndex index) ∧ s.handle x = .ok (.factory place)

theorem hasIndex_of_making (hm : s.Making x s') (hi : index < 0) (h : s'.HasIndex place index) :
    s.HasIndex place index := by
  obtain ⟨letters, fallback, hf⟩ := h
  rcases hm with ⟨-, hs⟩ | ⟨_, -, hs, -⟩ | ⟨f, -, hs, hfresh, -⟩
  · exact ⟨letters, fallback, hs ▸ hf⟩
  · exact ⟨letters, fallback, hs ▸ hf⟩
  · rw [hs] at hf
    by_cases hnew : place = s.shelf.size
    · rw [hnew, Shelf.get?_add_size] at hf
      cases hf
      cases hfresh
      exact absurd hi (by decide)
    · have hlt := Shelf.lt_size_of_get? hf
      rw [Shelf.size_add] at hlt
      rw [Shelf.get?_add_of_lt (by omega)] at hf
      exact ⟨letters, fallback, hf⟩

theorem hasIndex_of_actOnFactory (hs : s.Sound) {q : Nat} (hq : s.handle x = .ok (.factory q))
    (a : Action) (hi : index < 0) (h : (s.actOnFactory x q a).session.HasIndex place index) :
    s.HasIndex place index ∨ s.Assigns place index (.act x a) := by
  have hlt := hs.bound q (binds_of_handle hq)
  obtain ⟨letters, fallback, hf⟩ := h
  -- what has left the factories alone has not brought the index about
  have hsame (heq : (s.actOnFactory x q a).session.shelf.factories = s.shelf.factories) :
      s.HasIndex place index :=
    ⟨letters, fallback, (congrArg (Factory.at? · place) heq).symm.trans hf⟩
  cases a with
  | next =>
    rw [actOnFactory_next] at hf
    refine .inl ⟨letters, fallback, Shelf.get?_of_onward (s.shelf.next_onward q) hi ?_ hf⟩
    exact fun _ _ _ hneg hold => Shelf.get?_next_of_negative hs.grounded hold hneg hlt
  | names count =>
    rw [actOnFactory_names] at hf
    refine .inl ⟨letters, fallback,
      Shelf.get?_of_onward (s.shelf.names_onward q count.toNat) hi ?_ hf⟩
    exact fun _ _ _ hneg hold => Shelf.get?_names_of_negative hs.grounded hold hneg hlt _
  | reset =>
    obtain ⟨f, hold, hrel⟩ := (s.shelf.reset_pointwise q).back hf
    rcases hrel with rfl | hrewound
    · exact .inl ⟨letters, fallback, hold⟩
    · cases f <;> cases hrewound
      exact absurd hi (by decide)
  | setIndex i =>
    have hmodify := s.shelf.get?_modify (.withIndex i) q place
    rw [show (s.shelf.modify q (.withIndex i)).get? place = _ from hf] at hmodify
    split at hmodify
    · rename_i hplace
      subst hplace
      right
      cases hold : s.shelf.get? place with
      | none =>
        rw [hold] at hmodify
        cases hmodify
      | some f =>
        rw [hold] at hmodify
        cases f <;> cases hmodify
        exact ⟨x, rfl, hq⟩
    · exact .inl ⟨letters, fallback, hmodify.symm⟩
  | setAlphabet v =>
    left
    simp only [actOnFactory] at hf
    split at hf
    · exact ⟨letters, fallback, hf⟩
    · obtain ⟨f, hold, hrel⟩ := (s.shelf.modify_pointwise q (.withLetters _)).back hf
      rcases hrel with rfl | hletters
      · exact ⟨letters, fallback, hold⟩
      · cases f <;> cases hletters
        exact ⟨_, fallback, hold⟩
  | name i => exact .inl (hsame (askCache_factories ..))
  | newName i => exact .inl (hsame (askCache_factories ..))
  | look => exact .inl (hsame rfl)
  | shares other =>
    refine .inl (hsame ?_)
    simp only [actOnFactory]
    split <;> rfl

/-- **No step but an assignment makes an index negative.** -/
theorem hasIndex_of_step (hs : s.Sound) (w : World) (hi : index < 0)
    (h : (s.step w st).2.HasIndex place index) :
    s.HasIndex place index ∨ s.Assigns place index st := by
  cases st with
  | make x p => exact .inl (hasIndex_of_making (make_making w s x p) hi h)
  | setUpLogging level =>
    left
    simp only [step, perform] at h
    split at h <;> exact h
  | act x a =>
    have hact : (s.act x a).session.HasIndex place index := h
    rcases s.act_cases x a with heq | ⟨q, hq, heq⟩
    · rw [heq] at hact
      exact .inl hact
    · rw [heq] at hact
      exact hasIndex_of_actOnFactory hs hq a hi hact

/-- A negative index has been assigned, somewhere in the history. -/
theorem exists_assignment {common : Shuffler} {history : List (World × Step)} (hi : index < 0)
    (h : ((initial common).after history).HasIndex place index) :
    ∃ before w x later, history = before ++ (w, .act x (.setIndex index)) :: later ∧
      ((initial common).after before).handle x = .ok (.factory place) := by
  induction history using List.reverseRecOn with
  | nil =>
    obtain ⟨letters, fallback, hf⟩ := h
    cases hf
  | append_singleton before p ih =>
    obtain ⟨w, st⟩ := p
    have hsound := (Reachable.after (.initial common) before).sound
    rw [after_append] at h
    rcases hasIndex_of_step hsound w hi h with hold | ⟨x, rfl, hx⟩
    · obtain ⟨before', w', x, later, rfl, hx⟩ := ih hold
      exact ⟨before', w', x, later ++ [(w, st)], by simp, hx⟩
    · exact ⟨before, w, x, [], rfl, hx⟩

/-! ## What a dictionary factory answers -/

/-- What the dictionary factory at a place answers to those who ask it by a name, and where it is
    afterwards: it refuses at a negative index, and stays there; otherwise it gives the names for its
    index and the following ones, and goes on by as many as there are. -/
structure Supplies (s : Session) (x : Text) (place : Nat) (letters : SharedAlphabet) (index : Int)
    (fallback : Nat) : Prop where
  nextRefused : index < 0 → ∀ w,
    (s.step w (.act x .next)).1.result = .error (.name (.negative ⟨index⟩)) ∧
      (s.step w (.act x .next)).2 = s
  nextGiven : 0 ≤ index → ∀ w, ∃ t, letters.alphabet.encode index = .ok t ∧
    (s.step w (.act x .next)).1.result = .ok (.name t) ∧
    (s.step w (.act x .next)).2.shelf.get? place =
      some (.dictionary letters (index + 1) fallback)
  namesRefused : index < 0 → ∀ w (count : Int), 0 < count →
    (s.step w (.act x (.names count))).1.result = .error (.name (.negative ⟨index⟩)) ∧
      (s.step w (.act x (.names count))).2 = s
  namesGiven : 0 ≤ index → ∀ w (count : Nat), ∃ ts : List Text, ts.length = count ∧
    (∀ (k : Nat) (hk : k < ts.length), letters.alphabet.encode (index + k) = .ok ts[k]) ∧
    (s.step w (.act x (.names count))).1.result = .ok (.names ts) ∧
    (s.step w (.act x (.names count))).2.shelf.get? place =
      some (.dictionary letters (index + count) fallback)
  noneGiven : ∀ w (count : Int), count ≤ 0 →
    (s.step w (.act x (.names count))).1.result = .ok (.names []) ∧
      (s.step w (.act x (.names count))).2 = s

theorem step_next (hx : s.handle x = .ok (.factory place)) (w : World) :
    (s.step w (.act x .next)).1.result = nameResult (s.shelf.next place).1 ∧
      (s.step w (.act x .next)).2 = { s with shelf := (s.shelf.next place).2 } := by
  have hact : s.act x .next = _ := (act_of_handle hx .next).trans (s.actOnFactory_next x place)
  simp only [step, perform, hact, quiet]
  exact ⟨rfl, trivial⟩

theorem step_names (hx : s.handle x = .ok (.factory place)) (w : World) (count : Int) :
    (s.step w (.act x (.names count))).1.result =
        namesResult (s.shelf.names place count.toNat).1 ∧
      (s.step w (.act x (.names count))).2 =
        { s with shelf := (s.shelf.names place count.toNat).2 } := by
  have hact : s.act x (.names count) = _ :=
    (act_of_handle hx _).trans (s.actOnFactory_names x place count)
  simp only [step, perform, hact, quiet]
  exact ⟨rfl, trivial⟩

theorem supplies (hf : s.shelf.get? place = some (.dictionary letters index fallback))
    (hx : s.handle x = .ok (.factory place)) : s.Supplies x place letters index fallback where
  nextRefused hi w := by
    obtain ⟨hresult, hsession⟩ := step_next hx w
    rw [hresult, hsession, Shelf.next_of_negative hf hi]
    exact ⟨rfl, rfl⟩
  nextGiven hi w := by
    obtain ⟨k, rfl⟩ := Int.eq_ofNat_of_zero_le hi
    obtain ⟨hresult, hsession⟩ := step_next hx w
    obtain ⟨hname, hplace⟩ := Shelf.next_of_dictionary hf
    rw [hresult, hsession, hname]
    exact ⟨letters.alphabet.word k, letters.alphabet.encode_natCast k, rfl, hplace⟩
  namesRefused hi w count hcount := by
    obtain ⟨n, rfl⟩ := Int.eq_succ_of_zero_lt hcount
    obtain ⟨hresult, hsession⟩ := step_names hx w (n + 1 : Nat)
    rw [Int.toNat_natCast, Shelf.names_of_negative hf hi] at hresult hsession
    exact ⟨hresult, hsession⟩
  namesGiven hi w count := by
    obtain ⟨k, rfl⟩ := Int.eq_ofNat_of_zero_le hi
    obtain ⟨hresult, hsession⟩ := step_names hx w count
    rw [Int.toNat_natCast] at hresult hsession
    rw [hresult, hsession, Shelf.names_of_dictionary hf count]
    refine ⟨_, by simp, fun i hk => ?_, rfl, Shelf.get?_names_of_dictionary hf count⟩
    rw [← Int.natCast_add, Alphabet.encode_natCast]
    simp
  noneGiven w count hcount := by
    obtain ⟨hresult, hsession⟩ := step_names hx w count
    rw [Int.toNat_of_nonpos hcount] at hresult hsession
    exact ⟨hresult, hsession⟩

theorem exists_of_view {letters : Text}
    (h : (s.shelf.get? place).map (·.view s.shelf.caches) = some (.dictionary index letters)) :
    ∃ (shared : SharedAlphabet) (fallback : Nat), shared.alphabet.letters = letters ∧
      s.shelf.get? place = some (.dictionary shared index fallback) := by
  obtain ⟨f, hf, hview⟩ := Option.map_eq_some_iff.1 h
  cases f <;> cases hview
  exact ⟨_, _, rfl, hf⟩

/-- **Dictionary factories do not run out of names**, in any session that can arise: their letters
    make an alphabet, over which only negative numbers cannot be written; a negative index has been
    assigned; and whoever asks a factory gets the names for its index and the following ones. -/
theorem dictionary_supplies (h : s.Reachable)
    (hf : s.shelf.get? place = some (.dictionary letters index fallback)) :
    (letters.alphabet.letters ≠ [] ∧ letters.alphabet.letters.Nodup ∧
        Alphabet.ofValue (Alphabet.lettersValue letters.alphabet.letters) = .ok letters.alphabet) ∧
      (∀ i, Alphabet.spell letters.alphabet.letters i =
        (letters.alphabet.encode i).mapError .negative) ∧
      (index < 0 → ∀ common history, (initial common).after history = s →
        ∃ before w x later, history = before ++ (w, .act x (.setIndex index)) :: later ∧
          ((initial common).after before).handle x = .ok (.factory place)) ∧
      ∀ x, s.handle x = .ok (.factory place) → s.Supplies x place letters index fallback := by
  have hletters := letters.alphabet.nonempty
  have hnodup := letters.alphabet.distinct
  refine ⟨⟨hletters, hnodup, Alphabet.ofValue_letters hletters hnodup⟩,
    letters.alphabet.spell_letters, ?_, fun x hx => supplies hf hx⟩
  rintro hi common history rfl
  exact exists_assignment hi ⟨letters, fallback, hf⟩

/-- A dictionary factory over an empty text and a copy of it.  The copy is given no letters, in vain,
    and then two of its own; the first factory is sent to a negative index. -/
def steeredHistory : List (World × Step) := [
  (.nothing, .make ['c'] .counting),
  (.nothing, .make ['d'] (.dictionary
    ⟨.given (.stream ⟨.text [] none, false⟩), some ['c'], .identifiers, .common,
      "utf-8".toList⟩)),
  (.nothing, .make ['k'] (.dictionary ⟨.bound ['d'], some ['c'], .identifiers, .common, []⟩)),
  (.nothing, .act ['k'] (.setAlphabet (.list []))),
  (.nothing, .act ['k'] (.setAlphabet (Alphabet.lettersValue ['x', 'y']))),
  (.nothing, .act ['d'] (.setIndex (-2)))]

/-- The session behind these steps. -/
def steered : Session := (initial .inOrder).after steeredHistory

theorem dictionary_supplies_steered :
    steered.Reachable ∧
      (∃ (shared : SharedAlphabet) (fallback : Nat), shared.alphabet.letters = Alphabet.latin.letters ∧
        steered.shelf.get? 1 = some (.dictionary shared (-2) fallback) ∧
        steered.Supplies ['d'] 1 shared (-2) fallback ∧
        ∃ before w x later, steeredHistory = before ++ (w, .act x (.setIndex (-2))) :: later ∧
          ((initial .inOrder).after before).handle x = .ok (.factory 1)) ∧
      ∃ (own : SharedAlphabet) (fallback : Nat), own.alphabet.letters = ['x', 'y'] ∧
        steered.shelf.get? 2 = some (.dictionary own 0 fallback) ∧
        steered.Supplies ['k'] 2 own 0 fallback := by
  have hreach : steered.Reachable := Reachable.after (.initial .inOrder) steeredHistory
  have hd : steered.handle ['d'] = .ok (.factory 1) := handle_of_lookup (by decide +kernel)
  have hk : steered.handle ['k'] = .ok (.factory 2) := handle_of_lookup (by decide +kernel)
  refine ⟨hreach, ?_, ?_⟩
  · obtain ⟨shared, fallback, hletters, hf⟩ :=
      @exists_of_view steered 1 (-2) Alphabet.latin.letters (by decide +kernel)
    obtain ⟨-, -, hassigned, hsupplies⟩ := dictionary_supplies hreach hf
    exact ⟨shared, fallback, hletters, hf, hsupplies ['d'] hd,
      hassigned (by decide) .inOrder steeredHistory rfl⟩
  · obtain ⟨own, fallback, hletters, hf⟩ :=
      @exists_of_view steered 2 0 ['x', 'y'] (by decide +kernel)
    obtain ⟨-, -, -, hsupplies⟩ := dictionary_supplies hreach hf
    exact ⟨own, fallback, hletters, hf, hsupplies ['k'] hk⟩

end Session

end FreshNames
