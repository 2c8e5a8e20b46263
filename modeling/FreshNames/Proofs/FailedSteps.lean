import FreshNames.Proofs.Reachable

/-!
# Steps that fail

A step that fails leaves the session as it was, but for what has happened by the time that it is
found out.  A stream that a dictionary factory was to be made from may have been read and closed, and
a numeric factory that has come to a number too long to be written stays on it.  No other factory
fails behind a name that it has given, so that several names are not given halfway.

* `Shelf.names_of_error` - a factory that counts no numbers is as before when it gives no names;
* `Shelf.Overruns` - a numeric factory stays on the first number that it cannot write
  (`overruns_of_error`);
* `Session.Keeps` - what a step leaves as it was, with the two exceptions, `Session.Takes` and
  `Session.RunsOut`;
* `Session.failed_step_keeps` - every step that fails keeps the session so.
-/

set_option autoImplicit false

namespace FreshNames

/-! ## Factories that count no numbers -/

/-- Among places counted from the end, the next one is there too. -/
theorem position?_succ {size p : Nat} {i : Int} (h : position? size i = .ok p) (hi : i + 1 < 0) :
    ∃ p', position? size (i + 1) = .ok p' := by
  have hneg : i < 0 := by omega
  cases hfits : fitsWord i with
  | false => simp [position?, hfits] at h
  | true =>
    have hfits' : fitsWord (i + 1) = true := by
      rw [fitsWord_iff] at hfits ⊢
      omega
    simp only [position?, hfits, hfits', hneg, hi, Bool.not_true, Bool.false_eq_true, if_false,
      if_true] at h ⊢
    split at h
    · rw [if_pos (by omega)]
      exact ⟨_, rfl⟩
    · cases h

/-- Behind the last place of a cache counted from the end stands the first one from the front. -/
theorem NameCaches.exists_nameAt_succ {caches caches' : NameCaches} {lc : LetterCase} {i : Int}
    {t : Text} (h : caches.nameAt lc i = .ok (t, caches')) :
    ∃ r, caches'.nameAt lc (i + 1) = .ok r := by
  cases i with
  | ofNat n => exact ⟨_, nameAt_natCast caches' lc (n + 1)⟩
  | negSucc n =>
    have hsame := nameAt_negSucc h
    subst hsame
    cases n with
    | zero => exact ⟨_, nameAt_natCast caches' lc 0⟩
    | succ n =>
      simp only [nameAt, NameCache.nameAt] at h
      cases hp : position? (caches'.get lc).size (.negSucc (n + 1)) with
      | error e =>
        rw [hp] at h
        cases e <;> cases h
      | ok p =>
        have hnext : Int.negSucc (n + 1) + 1 = .negSucc n := by omega
        obtain ⟨p', hp'⟩ := position?_succ hp (by omega)
        rw [hnext] at hp' ⊢
        simp only [nameAt, NameCache.nameAt, hp']
        exact ⟨_, rfl⟩

namespace Factory

variable {f : Factory} {caches : NameCaches}

theorem draw_of_error (hn : ∀ i, f ≠ numeric i) {e : NameProblem}
    (h : (f.draw caches).1 = .error e) : (f.draw caches).2 = (f, caches) := by
  cases f with
  | dictionary letters index fallback =>
    simp only [draw] at h ⊢
    split at h
    · rfl
    · cases h
  | simple lc index =>
    simp only [draw] at h ⊢
    split at h
    · rfl
    · cases h
  | numeric i => exact absurd rfl (hn i)
  | prefixing inner pre => cases h
  | counting resets requests => cases h

/-- A factory that counts no numbers does not fail behind a name that it has given. -/
theorem draw_again (hn : ∀ i, f ≠ numeric i) {t : Text} (h : (f.draw caches).1 = .ok t) :
    ∃ u, ((f.draw caches).2.1.draw (f.draw caches).2.2).1 = .ok u := by
  cases f with
  | dictionary letters index fallback =>
    cases index with
    | ofNat n => exact ⟨_, rfl⟩
    | negSucc n => cases h
  | simple lc index =>
    simp only [draw] at h ⊢
    cases hname : caches.nameAt lc index with
    | error e =>
      rw [hname] at h
      cases h
    | ok r =>
      obtain ⟨r', hr'⟩ := NameCaches.exists_nameAt_succ hname
      simp only [hr']
      exact ⟨_, rfl⟩
  | numeric i => exact absurd rfl (hn i)
  | prefixing inner pre => exact ⟨[], rfl⟩
  | counting resets requests => exact ⟨_, rfl⟩

theorem Onward.ne_numeric {g : Factory} (h : f.Onward g) (hn : ∀ i, f ≠ .numeric i) :
    ∀ i, g ≠ .numeric i := by
  rintro i rfl
  cases h
  exact hn _ rfl

end Factory

namespace Shelf

variable {s s' : Shelf} {place giver count : Nat} {t : Text} {g : Factory} {e : NameProblem}

theorem next_of_error (hgr : s.Grounded) (h : s.Gives place t giver) (hg : s.get? giver = some g)
    (hn : ∀ i, g ≠ .numeric i) (he : (s.next place).1 = .error e) : (s.next place).2 = s := by
  rw [next_eq hgr h hg] at he ⊢
  cases hdraw : (g.draw s.caches).1 with
  | ok u =>
    rw [hdraw] at he
    cases he
  | error e' =>
    have hsame := Factory.draw_of_error hn hdraw
    rw [modify_eq_self hg (congrArg Prod.fst hsame), congrArg Prod.snd hsame]

theorem next_again (hgr : s.Grounded) (h : s.Gives place t giver) (hg : s.get? giver = some g)
    (hn : ∀ i, g ≠ .numeric i) {u : Text} (hu : (s.next place).1 = .ok u) :
    ∃ u', ((s.next place).2.next place).1 = .ok u' := by
  have hon := s.next_onward place
  have hgr' := hgr.pointwise hon Factory.Onward.delegate?_eq
  have hg' : (s.next place).2.get? giver = some (g.draw s.caches).2.1 := by
    rw [next_eq hgr h hg]
    show (s.modify giver _).get? giver = _
    rw [get?_modify, if_pos rfl, hg, Option.map_some]
  have hcaches : (s.next place).2.caches = (g.draw s.caches).2.2 := by rw [next_eq hgr h hg]
  rw [next_eq hgr h hg] at hu
  cases hdraw : (g.draw s.caches).1 with
  | error e =>
    rw [hdraw] at hu
    cases hu
  | ok own =>
    obtain ⟨own', hown'⟩ := Factory.draw_again hn hdraw
    rw [next_eq hgr' (hon.gives h) hg', hcaches, hown']
    exact ⟨_, rfl⟩

theorem names_of_next (hgr : s.Grounded) (h : s.Gives place t giver) (hg : s.get? giver = some g)
    (hn : ∀ i, g ≠ .numeric i) {u : Text} (hu : (s.next place).1 = .ok u) (count : Nat) :
    ∃ us, (s.names place count).1 = .ok us := by
  induction count generalizing s g u with
  | zero => exact ⟨[], rfl⟩
  | succ count ih =>
    have hon := s.next_onward place
    obtain ⟨g', hg', hong⟩ := hon.related hg
    obtain ⟨u', hu'⟩ := next_again hgr h hg hn hu
    obtain ⟨us, hus⟩ := ih (hgr.pointwise hon Factory.Onward.delegate?_eq) (hon.gives h) hg'
      (hong.ne_numeric hn) hu'
    rw [names_succ_of_ok hu, hus]
    exact ⟨_, rfl⟩

/-- **Where a factory that counts no numbers gives no names, nothing has changed.** -/
theorem names_of_error (hgr : s.Grounded) (h : s.Gives place t giver) (hg : s.get? giver = some g)
    (hn : ∀ i, g ≠ .numeric i) (he : (s.names place count).1 = .error e) :
    (s.names place count).2 = s := by
  cases count with
  | zero => cases he
  | succ count =>
    cases hnext : (s.next place).1 with
    | error e' =>
      rw [names_succ_of_error hnext]
      exact next_of_error hgr h hg hn hnext
    | ok u =>
      obtain ⟨us, hus⟩ := names_of_next hgr h hg hn hnext (count + 1)
      rw [hus] at he
      cases he

/-! ## Numeric factories -/

/-- Of the numbers that were wanted from it, the numeric factory at a place has written those before
    the first one that is too long, and it stays on that one. -/
inductive Overruns (s : Shelf) (giver wanted : Nat) (s' : Shelf) : Prop
  | intro (i : Int) (k : Nat) (hg : s.get? giver = some (.numeric i)) (hk : k < wanted)
      (written : ∀ m < k, isWritable (i + 1 + m) = true)
      (unwritable : isWritable (i + 1 + k) = false)
      (after : s' = s.modify giver fun _ => .numeric (i + 1 + k))

theorem modify_onward {g' : Factory} (hg : s.get? giver = some g) (hon : g.Onward g') :
    s.Pointwise Factory.Onward (s.modify giver fun _ => g') := by
  refine ⟨s.size_modify _ giver, fun {q f} hf => ?_⟩
  rw [get?_modify, hf]
  split
  · rename_i he
    rw [he, hg] at hf
    cases hf
    exact ⟨g', rfl, hon⟩
  · exact ⟨f, rfl, .refl f⟩

theorem next_of_numeric (hgr : s.Grounded) (h : s.Gives place t giver) {i : Int}
    (hg : s.get? giver = some (.numeric i)) :
    s.next place =
      ((Factory.numberName (i + 1)).map (t ++ ·), s.modify giver fun _ => .numeric (i + 1)) := by
  have hchange : s.modify giver (fun f => (f.draw s.caches).2.1) =
      s.modify giver fun _ => .numeric (i + 1) := modify_congr hg rfl
  rw [next_eq hgr h hg, hchange]
  simp only [Factory.draw]
  rfl

theorem exists_next_of_written (hgr : s.Grounded) (h : s.Gives place t giver) {i : Int}
    (hg : s.get? giver = some (.numeric i)) (hi : isWritable (i + 1) = true) :
    ∃ u, s.next place = (.ok u, s.modify giver fun _ => .numeric (i + 1)) := by
  rw [next_of_numeric hgr h hg, Factory.numberName, if_pos hi]
  exact ⟨_, rfl⟩

theorem next_of_unwritable (hgr : s.Grounded) (h : s.Gives place t giver) {i : Int}
    (hg : s.get? giver = some (.numeric i)) (hi : isWritable (i + 1) = false) :
    s.next place = (.error .unwritable, s.modify giver fun _ => .numeric (i + 1)) := by
  rw [next_of_numeric hgr h hg, Factory.numberName, hi]
  rfl

/-- As long as the numbers can be written, names are given. -/
theorem exists_names_of_written (hgr : s.Grounded) (h : s.Gives place t giver) {i : Int}
    (hg : s.get? giver = some (.numeric i)) {k : Nat}
    (written : ∀ m < k, isWritable (i + 1 + m) = true) (rest : Nat) :
    ∃ us, s.names place (k + rest) =
      (((s.modify giver fun _ => .numeric (i + k)).names place rest).1.map (us ++ ·),
        ((s.modify giver fun _ => .numeric (i + k)).names place rest).2) := by
  induction k generalizing s i with
  | zero =>
    have hsame : (s.modify giver fun _ => .numeric (i + (0 : Nat))) = s :=
      modify_eq_self hg (by rw [Nat.cast_zero, Int.add_zero])
    refine ⟨[], ?_⟩
    rw [hsame, Nat.zero_add]
    rcases s.names place rest with ⟨_ | us, s'⟩ <;> rfl
  | succ k ih =>
    have hfirst : isWritable (i + 1) = true := by simpa using written 0 (Nat.succ_pos k)
    obtain ⟨u, hu⟩ := exists_next_of_written hgr h hg hfirst
    have hon := s.next_onward place
    rw [hu] at hon
    have hg' : (s.modify giver fun _ => .numeric (i + 1)).get? giver = some (.numeric (i + 1)) := by
      rw [get?_modify, if_pos rfl, hg, Option.map_some]
    have hwritten (m : Nat) (hm : m < k) : isWritable (i + 1 + 1 + m) = true := by
      have hlater := written (m + 1) (Nat.succ_lt_succ hm)
      rwa [Nat.cast_succ, Int.add_comm (m : Int), ← Int.add_assoc] at hlater
    obtain ⟨us, hus⟩ := ih (hgr.pointwise hon Factory.Onward.delegate?_eq) (hon.gives h) hg' hwritten
    have hchange : ((s.modify giver fun _ => .numeric (i + 1)).modify giver
        fun _ => .numeric (i + 1 + k)) = s.modify giver fun _ => .numeric (i + (k + 1 : Nat)) := by
      rw [modify_modify, Nat.cast_succ, Int.add_comm (k : Int), ← Int.add_assoc]
      rfl
    rw [hchange] at hus
    refine ⟨u :: us, ?_⟩
    rw [Nat.succ_add, names_succ_of_ok (congrArg Prod.fst hu), hu, hus]
    cases ((s.modify giver fun _ => .numeric (i + (k + 1 : Nat))).names place rest).1 <;> rfl

/-- With the first number that is too long all names are lost. -/
theorem names_of_unwritable (hgr : s.Grounded) (h : s.Gives place t giver) {i : Int}
    (hg : s.get? giver = some (.numeric i)) {k : Nat} (hk : k < count)
    (written : ∀ m < k, isWritable (i + 1 + m) = true)
    (unwritable : isWritable (i + 1 + k) = false) :
    s.names place count = (.error .unwritable, s.modify giver fun _ => .numeric (i + 1 + k)) := by
  obtain ⟨rest, rfl⟩ : ∃ rest, count = k + (rest + 1) := ⟨count - k - 1, by omega⟩
  obtain ⟨us, hus⟩ := exists_names_of_written hgr h hg written (rest + 1)
  have hon : s.Pointwise Factory.Onward (s.modify giver fun _ => .numeric (i + k)) :=
    modify_onward hg (.numeric (Int.le_add_of_nonneg_right (Int.natCast_nonneg k)))
  have hg' : (s.modify giver fun _ => .numeric (i + k)).get? giver = some (.numeric (i + k)) := by
    rw [get?_modify, if_pos rfl, hg, Option.map_some]
  have hswap : i + k + 1 = i + 1 + k := by omega
  have hnext := next_of_unwritable (hgr.pointwise hon Factory.Onward.delegate?_eq) (hon.gives h) hg'
    (hswap ▸ unwritable)
  rw [hus, names_succ_of_error (congrArg Prod.fst hnext), hnext, modify_modify, hswap]
  rfl

/-- A numeric factory that gives no names has come to a number that it cannot write. -/
theorem overruns_of_error (hgr : s.Grounded) (h : s.Gives place t giver) {i : Int}
    (hg : s.get? giver = some (.numeric i)) (he : (s.names place count).1 = .error e) :
    s.Overruns giver count (s.names place count).2 := by
  by_cases hall : ∃ k, k < count ∧ isWritable (i + 1 + k) = false
  · -- the first number that is too long is the one where it stays
    have hk := Nat.find_spec hall
    have hbefore (m : Nat) (hm : m < Nat.find hall) : isWritable (i + 1 + m) = true := by
      have hnot := Nat.find_min hall hm
      simp only [not_and, Bool.not_eq_false] at hnot
      exact hnot (Nat.lt_trans hm hk.1)
    refine ⟨i, Nat.find hall, hg, hk.1, hbefore, hk.2, ?_⟩
    rw [names_of_unwritable hgr h hg hk.1 hbefore hk.2]
  · simp only [not_exists, not_and, Bool.not_eq_false] at hall
    obtain ⟨us, hus⟩ := exists_names_of_written hgr h hg hall 0
    rw [Nat.add_zero] at hus
    rw [hus] at he
    cases he

/-- Names that are not given leave the shelf as it was, or a numeric factory on a number that it
    cannot write. -/
theorem eq_or_overruns (hgr : s.Grounded) (h : s.Gives place t giver)
    (he : (s.names place count).1 = .error e) :
    (s.names place count).2 = s ∨ s.Overruns giver count (s.names place count).2 := by
  obtain ⟨g, hg, -⟩ := h.exists_giver
  by_cases hn : ∃ i, g = .numeric i
  · obtain ⟨i, rfl⟩ := hn
    exact .inr (overruns_of_error hgr h hg he)
  · exact .inl (names_of_error hgr h hg (fun i hi => hn ⟨i, hi⟩) he)

end Shelf

/-! ## What a failed step keeps -/

/-- How many names an action wants. -/
def Action.wanted : Action → Nat
  | next => 1
  | names count => count.toNat
  | _ => 0

namespace Session

variable {s s' : Session} {st : Step} {name : Text} {place : Nat} {w : World} {e : StepError}

/-- The step is to make a dictionary factory from the stream at the place. -/
inductive Takes (s : Session) : Step → Nat → Prop
  | intro {name other : Text} {place : Nat} {p : DictionaryPlan} (hp : p.source = .bound other)
      (h : s.handle other = .ok (.stream place)) : Takes s (.make name (.dictionary p)) place

/-- The step asks the numeric factory at the place for names, itself or through prefixing factories,
    and one of them would be a number that is too long to be written: the factory stays on it. -/
inductive RunsOut (s s' : Session) : Step → Nat → Prop
  | intro {name t : Text} {a : Action} {place giver : Nat}
      (hname : s.handle name = .ok (.factory place)) (h : s.shelf.Gives place t giver)
      (overruns : s.shelf.Overruns giver a.wanted s'.shelf) : RunsOut s s' (.act name a) giver

/-- The step leaves everything as it was, except a stream that it has closed, and a numeric factory
    that it has left on a number too long to be written. -/
structure Keeps (s : Session) (st : Step) (s' : Session) : Prop where
  bindings_eq : s'.bindings = s.bindings
  caches_eq : s'.shelf.caches = s.shelf.caches
  common_eq : s'.common = s.common
  shufflers_eq : s'.shufflers = s.shufflers
  logging_eq : s'.logging = s.logging
  nextKey_eq : s'.nextKey = s.nextKey
  factories : ∀ q, s'.shelf.get? q = s.shelf.get? q ∨ s.RunsOut s' st q
  streams : ∀ q, s'.streams[q]? = s.streams[q]? ∨
    s.Takes st q ∧ s'.streams[q]? = (s.streams[q]?).map Stream.close

theorem Keeps.refl (s : Session) (st : Step) : s.Keeps st s :=
  ⟨rfl, rfl, rfl, rfl, rfl, rfl, fun _ => .inl rfl, fun _ => .inl rfl⟩

/-! ### Making things -/

theorem construct_source (w : World) (charset : Text) (welcome : Welcome) (shuffler : Shuffler)
    (hasFallback : Bool) (stream : Stream) :
    (construct w charset welcome shuffler hasFallback (.stream stream)).source = .stream stream ∨
      (construct w charset welcome shuffler hasFallback (.stream stream)).source =
        .stream stream.close := by
  unfold construct
  split
  · simp only [Source.afterReading, Stream.afterReading]
    split
    · exact .inr rfl
    · exact .inl rfl
  · exact .inl rfl

/-- Where no factory is made, the source is all that may have changed. -/
theorem makeFromSource_of_error {p : DictionaryPlan} {lot : Lot} {fallback place? : Option Nat}
    {source : Source}
    (he : (s.makeFromSource w name p lot fallback place? source).result = .error e) :
    (s.makeFromSource w name p lot fallback place? source).session =
      s.putSource place?
        (construct w p.charset p.welcome (s.shuffler lot) fallback.isSome source).source := by
  unfold makeFromSource at he ⊢
  dsimp only at he ⊢
  split at he
  · rfl
  · rfl
  · cases he

theorem origin_eq_stream {r : SourceRef} {stream : Stream}
    (h : s.origin r = .ok (.stream place stream)) :
    ∃ other, r = .bound other ∧ s.handle other = .ok (.stream place) ∧
      s.streams[place]? = some stream := by
  cases r with
  | given source => cases h
  | bound other =>
    refine ⟨other, rfl, ?_⟩
    simp only [origin] at h
    split at h
    · cases h
    · rename_i hh
      split at h
      · rename_i hstream
        cases h
        exact ⟨hh, hstream⟩
      · cases h
    · split at h <;> cases h
    · cases h

/-- A stream that is put back, closed or as it was, is all that changes. -/
theorem keeps_putSource {stream : Stream} {source : Source} (ht : s.Takes st place)
    (hstream : s.streams[place]? = some stream)
    (h : source = .stream stream ∨ source = .stream stream.close) :
    s.Keeps st (s.putSource (some place) source) := by
  have hset (stream' : Stream) (h : stream' = stream ∨ stream' = stream.close) :
      s.Keeps st { s with streams := s.streams.set place stream' } := by
    refine ⟨rfl, rfl, rfl, rfl, rfl, rfl, fun _ => .inl rfl, fun q => ?_⟩
    simp only [List.getElem?_set]
    split
    · rename_i hq
      subst hq
      rw [hstream, Option.map_some, if_pos (List.getElem?_eq_some_iff.1 hstream).1]
      rcases h with rfl | rfl
      · exact .inl rfl
      · exact .inr ⟨ht, rfl⟩
    · exact .inl rfl
  rcases h with rfl | rfl
  · exact hset stream (.inl rfl)
  · exact hset stream.close (.inr rfl)

theorem makeDictionary_keeps {p : DictionaryPlan}
    (he : (s.makeDictionary w name p).result = .error e) :
    s.Keeps (.make name (.dictionary p)) (s.makeDictionary w name p).session := by
  unfold makeDictionary at he ⊢
  split
  · exact .refl s _
  · rename_i origin horigin
    rw [horigin] at he
    split
    · exact .refl s _
    · rename_i fallback hfallback
      rw [hfallback] at he
      split
      · exact .refl s _
      · rename_i lot hlot
        rw [hlot] at he
        cases origin with
        | source source =>
          have hsession : (s.makeFromSource w name p lot fallback none source).session = s :=
            makeFromSource_of_error he
          rw [hsession]
          exact .refl s _
        | stream place stream =>
          obtain ⟨other, hother, hhandle, hstream⟩ := origin_eq_stream horigin
          rw [makeFromSource_of_error he]
          exact keeps_putSource (.intro hother hhandle) hstream (construct_source ..)
        | letters letters =>
          cases fallback with
          | none => exact .refl s _
          | some d => cases he

theorem make_keeps {p : Plan} (he : (s.make w name p).result = .error e) :
    s.Keeps (.make name p) (s.make w name p).session := by
  cases p with
  | dictionary p => exact makeDictionary_keeps he
  | simple lc => cases he
  | numeric => cases he
  | counting => cases he
  | stream stream => cases he
  | prefixing inner pre =>
    rw [make] at he ⊢
    cases hplace : s.factoryPlace inner with
    | error e' => exact .refl s _
    | ok place =>
      rw [hplace] at he
      cases he
  | «alias» other =>
    rw [make] at he ⊢
    cases hhandle : s.handle other with
    | error e' => exact .refl s _
    | ok h =>
      rw [hhandle] at he
      cases he
  | shuffler r =>
    cases r with
    | common => cases he
    | own shuffler => cases he
    | bound other =>
      rw [make, bindShuffler] at he ⊢
      cases hhandle : s.handle other with
      | error e' => exact .refl s _
      | ok h =>
        rw [hhandle] at he
        cases he

/-! ### Using things -/

theorem askCache_of_error
    {ask : NameCaches → LetterCase → Except NameProblem (Text × NameCaches)}
    (he : (s.askCache name place ask).result = .error e) :
    (s.askCache name place ask).session = s := by
  unfold askCache at he ⊢
  split
  · rename_i hf
    split
    · rfl
    · rename_i hok
      simp only [hf, hok, quiet] at he
      cases he
  · rfl

theorem Keeps.of_names {t : Text} {a : Action} {giver : Nat} {shelf : Shelf}
    (hname : s.handle name = .ok (.factory place)) (h : s.shelf.Gives place t giver)
    (hshelf : shelf = s.shelf ∨ s.shelf.Overruns giver a.wanted shelf) :
    s.Keeps (.act name a) { s with shelf } := by
  rcases hshelf with rfl | hover
  · exact .refl s _
  · obtain ⟨i, k, hg, hk, written, unwritable, rfl⟩ := id hover
    refine ⟨rfl, rfl, rfl, rfl, rfl, rfl, fun q => ?_, fun _ => .inl rfl⟩
    by_cases hq : q = giver
    · subst hq
      exact .inr (.intro hname h hover)
    · exact .inl ((Shelf.get?_modify ..).trans (if_neg hq))

theorem actOnFactory_keeps (hs : s.Sound) (hname : s.handle name = .ok (.factory place))
    {a : Action} (he : (s.actOnFactory name place a).result = .error e) :
    s.Keeps (.act name a) (s.actOnFactory name place a).session := by
  obtain ⟨t, giver, hgives⟩ := hs.grounded.exists_gives (hs.bound place (binds_of_handle hname))
  cases a with
  | next =>
    rw [actOnFactory_next] at he ⊢
    cases hnext : (s.shelf.next place).1 with
    | ok u =>
      rw [hnext] at he
      cases he
    | error e' =>
      -- a single name fails as a list of one name does
      have hone : s.shelf.names place 1 = _ := Shelf.names_succ_of_error hnext
      have hshelf := Shelf.eq_or_overruns hs.grounded hgives (congrArg Prod.fst hone)
      rw [hone] at hshelf
      exact .of_names hname hgives hshelf
  | names count =>
    rw [actOnFactory_names] at he ⊢
    cases hnames : (s.shelf.names place count.toNat).1 with
    | ok us =>
      rw [hnames] at he
      cases he
    | error e' =>
      exact .of_names hname hgives (Shelf.eq_or_overruns hs.grounded hgives hnames)
  | reset => cases he
  | name index =>
    have hsame : (s.actOnFactory name place (.name index)).session = s := askCache_of_error he
    rw [hsame]
    exact .refl s _
  | newName index =>
    have hsame : (s.actOnFactory name place (.newName index)).session = s := askCache_of_error he
    rw [hsame]
    exact .refl s _
  | setIndex index => cases he
  | setAlphabet v =>
    simp only [actOnFactory] at he ⊢
    split
    · exact .refl s _
    · rename_i hok
      rw [hok] at he
      cases he
  | look => cases he
  | shares other =>
    simp only [actOnFactory]
    split <;> exact .refl s _

/-- **A step that fails keeps everything as it was**, but for a stream that it was given as a source
    and a numeric factory that has come to a number too long to be written. -/
theorem failed_step_keeps (h : s.Reachable) (he : (s.step w st).1.result = .error e) :
    s.Keeps st (s.step w st).2 := by
  cases st with
  | make name p => exact make_keeps he
  | act name a =>
    show s.Keeps _ (s.act name a).session
    rcases s.act_cases name a with hsame | ⟨place, hname, hact⟩
    · rw [hsame]
      exact .refl s _
    · have he' : (s.act name a).result = .error e := he
      rw [hact] at he' ⊢
      exact actOnFactory_keeps h.sound hname he'
  | setUpLogging level =>
    show s.Keeps _ (s.perform w (.setUpLogging level)).session
    have he' : (s.perform w (.setUpLogging level)).result = .error e := he
    simp only [perform] at he' ⊢
    split
    · exact .refl s _
    · rename_i hok
      rw [hok] at he'
      cases he'

/-- A counting factory, and a stream of one byte that is no text in UTF-8. -/
def badStream : Session :=
  ((initial .inOrder).run World.nothing [
    .make ['c'] .counting, .make ['b'] (.stream ⟨.bytes [0xe9] none, false⟩)]).2

/-- A dictionary factory is to be made from the stream. -/
def badStreamStep : Step :=
  .make ['d'] (.dictionary
    ⟨.bound ['b'], some ['c'], .identifiers, .common, "utf-8".toList⟩)

theorem failed_step_keeps_badStream :
    badStream.Reachable ∧
      ∃ e, (badStream.step World.nothing badStreamStep).1.result = .error e ∧
        badStream.Keeps badStreamStep (badStream.step World.nothing badStreamStep).2 := by
  have hreach : badStream.Reachable := (Reachable.initial .inOrder).run World.nothing _
  have hfails : (badStream.step World.nothing badStreamStep).1.result.toBool = false := by
    decide +kernel
  cases he : (badStream.step World.nothing badStreamStep).1.result with
  | ok r =>
    rw [he] at hfails
    cases hfails
  | error e => exact ⟨hreach, e, rfl, failed_step_keeps hreach he⟩

/-- A numeric factory behind a prefixing one, three numbers before the first one that is too long. -/
def nearLimit : Session :=
  ((initial .inOrder).run World.nothing [
    .make ['n'] .numeric, .make ['p'] (.prefixing ['n'] ['x']),
    .act ['n'] (.setIndex ((writeLimit : Int) - 3))]).2

theorem nearLimit_numeric :
    nearLimit.shelf.get? 0 = some (.numeric ((writeLimit : Int) - 3)) := rfl

/-- It writes two more numbers, and then it has come to the limit. -/
theorem nearLimit_names : nearLimit.shelf.names 1 3 =
    (.error .unwritable, nearLimit.shelf.modify 0 fun _ => .numeric writeLimit) := by
  have hgr : nearLimit.shelf.Grounded :=
    ((Reachable.initial .inOrder).run World.nothing _).sound.grounded
  have hp : nearLimit.shelf.get? 1 = some (.prefixing 0 ['x']) := rfl
  have hgives : nearLimit.shelf.Gives 1 (['x'] ++ []) 0 := .through hp (.own nearLimit_numeric rfl)
  have hlarge : 10 ≤ writeLimit := by decide +kernel
  have hwritten (m : Nat) (hm : m < 2) : isWritable ((writeLimit : Int) - 3 + 1 + m) = true := by
    simp only [isWritable, decide_eq_true_eq]
    omega
  have hlast : (writeLimit : Int) - 3 + 1 + (2 : Nat) = writeLimit := by omega
  have hbeyond : isWritable ((writeLimit : Int) - 3 + 1 + (2 : Nat)) = false := by
    simp only [hlast, isWritable, decide_eq_false_iff_not]
    omega
  rw [Shelf.names_of_unwritable hgr hgives nearLimit_numeric (by decide) hwritten hbeyond, hlast]

/-- The step `names` on the prefixing factory. -/
theorem nearLimit_step : nearLimit.step World.nothing (.act ['p'] (.names 3)) =
    (⟨.error (.name .unwritable), some (.prefixing ['x']), []⟩,
      { nearLimit with shelf := nearLimit.shelf.modify 0 fun _ => .numeric writeLimit }) := by
  have hname : nearLimit.handle ['p'] = .ok (.factory 1) := rfl
  have hact : nearLimit.act ['p'] (.names 3) = _ :=
    (act_of_handle hname _).trans (actOnFactory_names nearLimit ['p'] 1 3)
  have hnames : nearLimit.shelf.names 1 (3 : Int).toNat = _ := nearLimit_names
  simp only [step, perform, hact, hnames]
  rfl

/-- Not everything is as before: the numeric factory has moved on, although no name was given. -/
theorem failed_names_move_on :
    nearLimit.Reachable ∧ nearLimit.handle ['n'] = .ok (.factory 0) ∧
      (nearLimit.step World.nothing (.act ['p'] (.names 3))).1.result =
        .error (.name .unwritable) ∧
      (nearLimit.step World.nothing (.act ['p'] (.names 3))).2.shelf.get? 0 ≠
        nearLimit.shelf.get? 0 := by
  have hreach : nearLimit.Reachable := (Reachable.initial .inOrder).run World.nothing _
  rw [nearLimit_step]
  refine ⟨hreach, rfl, rfl, ?_⟩
  show (nearLimit.shelf.modify 0 _).get? 0 ≠ _
  rw [Shelf.get?_modify, if_pos rfl, nearLimit_numeric, Option.map_some]
  intro hsame
  have hnumber := Factory.numeric.inj (Option.some.inj hsame)
  omega

end Session

end FreshNames
