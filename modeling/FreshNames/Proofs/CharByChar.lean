import FreshNames.Source
import FreshNames.Proofs.PieceByPiece

/-!
# Reading character by character

An alphabet is extracted by reading one character after the other until nothing more comes.  Each
such reading takes in as many pieces of the feed as it needs, a slab at a time, and what is too much
stays ready for the next one.  `Reader.drain` tells in one go what becomes of this.

* `Reader.ReadsEach` - the loop, and what comes of it;
* `Reader.readsEach_iff` - it ends, and gives what draining gives;
* `Source.readsEach_opening` - the same for every source that can be opened.
-/

set_option autoImplicit false

namespace FreshNames

/-! ## Slabs -/

namespace Feed

/-- A reading of a slab takes the first slab off, if there is one. -/
theorem slabs_of_next {size : Nat} (pos : 0 < size) {f : Feed} {p : Bytes} {rest : List Bytes}
    (h : f.slabs size pos = p :: rest) :
    ∃ f', f.next size = .ok (p, f') ∧ f'.slabs size pos = rest ∧ f'.failure = f.failure ∧
      p.length ≤ size := by
  obtain ⟨pieces, failure⟩ := f
  cases pieces with
  | nil => cases h
  | cons q pieces =>
    simp only [slabs, List.flatMap_cons] at h
    rw [cut] at h
    unfold next
    dsimp only
    split_ifs at h ⊢ with hq
    · obtain ⟨rfl, rfl⟩ := List.cons.inj h
      exact ⟨_, rfl, rfl, rfl, hq⟩
    · obtain ⟨rfl, rfl⟩ := List.cons.inj h
      refine ⟨_, rfl, ?_, rfl, ?_⟩
      · simp [slabs]
      · rw [List.length_take]
        omega

theorem pieces_of_slabs_eq_nil {size : Nat} (pos : 0 < size) {f : Feed}
    (h : f.slabs size pos = []) : f.pieces = [] := by
  rw [List.eq_nil_iff_forall_not_mem]
  intro p hp
  have hcut := List.flatMap_eq_nil_iff.1 h p hp
  rw [cut] at hcut
  split_ifs at hcut

theorem length_cut_le {size : Nat} (pos : 0 < size) (p : Bytes) :
    (cut size pos p).length ≤ p.length + 1 := by
  fun_induction cut size pos p with
  | case1 p hle => simp
  | case2 p hlt ih =>
    rw [List.length_drop] at ih
    rw [List.length_cons]
    omega

/-- There are no more slabs than the size of the feed tells. -/
theorem length_slabs_le {size : Nat} (pos : 0 < size) (f : Feed) :
    (f.slabs size pos).length ≤ f.size := by
  obtain ⟨pieces, failure⟩ := f
  simp only [slabs, Feed.size]
  induction pieces with
  | nil => simp
  | cons p pieces ih =>
    have := length_cut_le pos p
    simp only [List.flatMap_cons, List.flatten_cons, List.length_append, List.length_cons]
    omega

end Feed

/-- Behind the end of the data nothing is held back any more: a character set keeps nothing in mind
    there, and a codec says so by its law. -/
theorem PieceDecoder.feed_end_again {d d' : PieceDecoder} {piece : Bytes} {t : Text}
    (h : d.feed true piece = .ok (t, d')) : ∃ d'', d'.feed true [] = .ok ([], d'') := by
  cases d with
  | charset d =>
    cases hd : d.feed true piece with
    | error e => simp [PieceDecoder.feed, hd] at h
    | ok q =>
      obtain ⟨t', d₁⟩ := q
      simp only [PieceDecoder.feed, hd, Except.ok.injEq, Prod.mk.injEq] at h
      obtain ⟨rfl, rfl⟩ := h
      exact ⟨charset d₁, by simp [PieceDecoder.feed, Decoder.feed_end_again hd]⟩
  | codec c earlier =>
    cases hc : c.next earlier true piece with
    | error e => simp [PieceDecoder.feed, hc] at h
    | ok t' =>
      simp only [PieceDecoder.feed, hc, Except.ok.injEq, Prod.mk.injEq] at h
      obtain ⟨rfl, rfl⟩ := h
      exact ⟨_, by simp only [PieceDecoder.feed, c.flushes earlier piece t' hc]; rfl⟩

/-- Nor is a carriage return. -/
theorem LineDecoder.feed_end_again {d d' : LineDecoder} {piece : Bytes} {t : Text}
    (h : d.feed true piece = .ok (t, d')) : ∃ d'', d'.feed true [] = .ok ([], d'') := by
  unfold LineDecoder.feed at h
  cases hd : d.decoder.feed true piece with
  | error e =>
    rw [hd] at h
    cases h
  | ok p =>
    simp only [hd, release, if_true] at h
    cases h
    obtain ⟨d'', hagain⟩ := PieceDecoder.feed_end_again hd
    exact ⟨⟨d'', false⟩, by simp [LineDecoder.feed, hagain, release, withHeld, unifyLineEnds]⟩

/-! ## The loop -/

namespace Reader

/-- What comes of reading one character after the other, until nothing more comes: what was read,
    or a failure. -/
inductive ReadsEach : Reader → Except ReadError Text → Prop
  | fail {r : Reader} {e : ReadError} (h : r.read 1 = .error e) : ReadsEach r (.error e)
  | stop {r r' : Reader} (h : r.read 1 = .ok ([], r')) : ReadsEach r (.ok [])
  | more {r r' : Reader} {t : Text} {y : Except ReadError Text} (h : r.read 1 = .ok (t, r'))
      (ht : t ≠ []) (hy : ReadsEach r' y) : ReadsEach r (y.map (t ++ ·))

theorem ReadsEach.unique {r : Reader} {x y : Except ReadError Text} (hx : ReadsEach r x)
    (hy : ReadsEach r y) : x = y := by
  induction hx generalizing y with
  | fail h => cases hy <;> simp_all
  | stop h => cases hy <;> simp_all
  | more h ht hx ih =>
    cases hy with
    | fail h' => simp_all
    | stop h' => simp_all
    | more h' ht' hy =>
      rw [h] at h'
      cases h'
      rw [ih hy]

/-! ## Plain text -/

theorem read_one_plain (rest : Text) (patience : Option Patience) :
    (plain rest patience).read 1 =
      (spend patience).map fun p => (rest.take 1, plain (rest.drop 1) p) := by
  rw [read, begin]
  cases spend patience <;> rfl

theorem readsEach_plain_none (rest : Text) : ReadsEach (plain rest none) (.ok rest) := by
  induction rest with
  | nil => exact .stop (read_one_plain [] none)
  | cons c rest ih => exact .more (read_one_plain (c :: rest) none) (by simp) ih

/-- Each character takes one reading, and so does the end. -/
theorem readsEach_plain_some (rest : Text) (readings : Nat) (failure : StreamFailure) :
    ReadsEach (plain rest (some ⟨readings, failure⟩))
      (if rest.length < readings then .ok rest else .error (.stream failure)) := by
  induction readings generalizing rest with
  | zero =>
    rw [if_neg (Nat.not_lt_zero _)]
    exact .fail (read_one_plain rest _)
  | succ readings ih =>
    cases rest with
    | nil =>
      rw [if_pos (by simp)]
      exact .stop (read_one_plain [] _)
    | cons c rest =>
      have hmore := ReadsEach.more (read_one_plain (c :: rest) (some ⟨readings + 1, failure⟩))
        (by simp) (ih rest)
      by_cases hlt : rest.length < readings
      · rw [if_pos (by simpa using hlt)]
        rw [if_pos hlt] at hmore
        exact hmore
      · rw [if_neg (by simpa using hlt)]
        rw [if_neg hlt] at hmore
        exact hmore

/-! ## Decoded text -/

theorem read_one_decoded (t : Transcript) :
    (decoded t).read 1 = (t.take 1).map fun p => (p.1, decoded p.2) := by
  have hamount : amount 1 = .ok (some 1) := rfl
  simp only [read, begin, hamount, takeOrAll]
  cases t.take 1 <;> rfl

/-- Characters that are ready are read one by one. -/
theorem readsEach_ready {t : Transcript} {y : Except ReadError Text} (ready : Text)
    (h : ReadsEach (decoded { t with ready := [] }) y) :
    ReadsEach (decoded { t with ready := ready }) (y.map (ready ++ ·)) := by
  induction ready with
  | nil => cases y <;> exact h
  | cons c ready ih =>
    have hread : (decoded { t with ready := c :: ready }).read 1 =
        .ok ([c], decoded { t with ready := ready }) := by
      rw [read_one_decoded]
      simp [Transcript.take, Except.map]
    have hmore := ReadsEach.more hread (by simp) ih
    cases y <;> exact hmore

/-- What a round of gathering gives, and what reading on gives. -/
inductive Gathers : Except ReadError (Text × Transcript) → Except ReadError Text → Prop
  | fail (e : ReadError) : Gathers (.error e) (.error e)
  | stop (t : Transcript) : Gathers (.ok ([], t)) (.ok [])
  | more {t : Transcript} {text : Text} {y : Except ReadError Text} (ht : text ≠ [])
      (hy : ReadsEach (decoded t) y) : Gathers (.ok (text, t)) (y.map (text ++ ·))

theorem Gathers.readsEach {t : Transcript} {y : Except ReadError Text} (hready : t.ready = [])
    (h : Gathers (Transcript.gather (t.feed.size + 2) 1 t) y) : ReadsEach (decoded t) y := by
  have htake : t.take 1 = Transcript.gather (t.feed.size + 2) 1 t := by
    obtain ⟨feed, decoder, ready, lastBytes, lastChars⟩ := t
    subst hready
    simp only [Transcript.take, List.take_nil, List.drop_nil, List.length_nil]
    rw [if_neg (by omega)]
    cases Transcript.gather (feed.size + 2) (1 - 0) ⟨feed, decoder, [], lastBytes, lastChars⟩ <;> rfl
  have hread := read_one_decoded t
  rw [htake] at hread
  generalize Transcript.gather (t.feed.size + 2) 1 t = g at h hread
  cases h with
  | fail e => exact .fail hread
  | stop t' => exact .stop hread
  | more ht hy => exact .more hread ht hy

/-! ## Gathering pieces -/

theorem gather_zero (rounds : Nat) (t : Transcript) : Transcript.gather rounds 0 t = .ok ([], t) := by
  cases rounds <;> rfl

/-- A reading for a single character asks for a slab, as the last piece was no longer than one. -/
theorem wish_one {t : Transcript} (h : t.lastBytes ≤ Transcript.slab) :
    t.wish 1 = Transcript.slab := by
  unfold Transcript.wish
  split_ifs
  · have := Nat.div_le_self (1 * t.lastBytes) t.lastChars
    rw [Nat.max_eq_left (by omega)]
  · rfl

/-- After a refill the characters that are ready come first, and then what is gathered without
    them. -/
theorem gathers_of_refill {t t' : Transcript} {n : Nat} {more : Except ReadError Text}
    (h : t.refill 1 = .ok (true, t')) (hn : n ≤ t'.feed.size) {rounds : Nat}
    (hr : t'.ready = [] → n + 2 ≤ rounds)
    (hmore : ∀ k, n + 2 ≤ k → Gathers (Transcript.gather k 1 { t' with ready := [] }) more) :
    Gathers (Transcript.gather (rounds + 1) 1 t) (more.map (t'.ready ++ ·)) := by
  obtain ⟨feed, decoder, ready, lastBytes, lastChars⟩ := t'
  cases ready with
  | nil =>
    have hgather : Transcript.gather (rounds + 1) 1 t =
        Transcript.gather rounds 1 ⟨feed, decoder, [], lastBytes, lastChars⟩ := by
      simp only [Transcript.gather, h, List.take_nil, List.drop_nil, List.length_nil]
      cases Transcript.gather rounds 1 ⟨feed, decoder, [], lastBytes, lastChars⟩ <;> rfl
    rw [hgather]
    have := hmore rounds (hr rfl)
    cases more <;> exact this
  | cons c ready =>
    have hgather : Transcript.gather (rounds + 1) 1 t =
        .ok ([c], ⟨feed, decoder, ready, lastBytes, lastChars⟩) := by
      simp [Transcript.gather, h, gather_zero]
    have hread : ReadsEach (decoded ⟨feed, decoder, [], lastBytes, lastChars⟩) more :=
      Gathers.readsEach rfl (hmore (feed.size + 2) (by simpa using hn))
    have hready := readsEach_ready (t := ⟨feed, decoder, ready, lastBytes, lastChars⟩) ready hread
    rw [hgather]
    have := Gathers.more (List.cons_ne_nil c []) hready
    cases more <;> exact this

theorem gathers_of_error {t : Transcript} {e : ReadError} (h : t.refill 1 = .error e)
    (rounds : Nat) : Gathers (Transcript.gather (rounds + 1) 1 t) (.error e) := by
  have hgather : Transcript.gather (rounds + 1) 1 t = .error e := by simp [Transcript.gather, h]
  rw [hgather]
  exact .fail e

theorem gathers_of_nothing {t t' : Transcript} (h : t.refill 1 = .ok (false, t')) (rounds : Nat) :
    Gathers (Transcript.gather (rounds + 1) 1 t) (.ok []) := by
  have hgather : Transcript.gather (rounds + 1) 1 t = .ok ([], t') := by
    simp [Transcript.gather, h]
  rw [hgather]
  exact .stop t'

section Refill

variable {t : Transcript} {piece : Bytes} {feed : Feed}

theorem refill_ok (hlast : t.lastBytes ≤ Transcript.slab)
    (hnext : t.feed.next Transcript.slab = .ok (piece, feed)) {text : Text} {decoder : LineDecoder}
    (hd : t.decoder.feed piece.isEmpty piece = .ok (text, decoder)) :
    t.refill 1 =
      .ok (!piece.isEmpty || !text.isEmpty, ⟨feed, decoder, text, piece.length, text.length⟩) := by
  simp only [Transcript.refill, wish_one hlast, hnext, hd]

theorem refill_error (hlast : t.lastBytes ≤ Transcript.slab)
    (hnext : t.feed.next Transcript.slab = .ok (piece, feed)) {e : DecodeError}
    (hd : t.decoder.feed piece.isEmpty piece = .error e) : t.refill 1 = .error (.decode e) := by
  simp only [Transcript.refill, wish_one hlast, hnext, hd]

end Refill

/-- At its end a feed brings what was held back, and nothing more. -/
theorem gathers_end {t : Transcript} (hfeed : t.feed.pieces = [])
    (hlast : t.lastBytes ≤ Transcript.slab) (rounds : Nat) :
    Gathers (Transcript.gather (rounds + 1) 1 t)
      (Transcript.drainPieces t.feed.failure [] t.decoder) := by
  unfold Transcript.drainPieces
  cases hfailure : t.feed.failure with
  | some e =>
    refine gathers_of_error ?_ rounds
    simp [Transcript.refill, Feed.next, hfeed, hfailure]
  | none =>
    have hnext : t.feed.next Transcript.slab = .ok ([], t.feed) := by
      simp [Feed.next, hfeed, hfailure]
    cases hd : t.decoder.feed true [] with
    | error e => exact gathers_of_error (refill_error hlast hnext hd) rounds
    | ok q =>
      obtain ⟨text, decoder⟩ := q
      have hrefill := refill_ok hlast hnext hd
      cases text with
      | nil => exact gathers_of_nothing hrefill rounds
      | cons c text =>
        have hmore (k : Nat) (hk : 0 + 2 ≤ k) : Gathers (Transcript.gather k 1
            ⟨t.feed, decoder, [], 0, (c :: text).length⟩) (.ok []) := by
          obtain ⟨k, rfl⟩ : ∃ j, k = j + 1 := ⟨k - 1, by omega⟩
          obtain ⟨_, hagain⟩ := LineDecoder.feed_end_again hd
          exact gathers_of_nothing (refill_ok
            (t := ⟨t.feed, decoder, [], 0, (c :: text).length⟩) (Nat.zero_le _) hnext hagain) k
        have hr : c :: text = [] → 0 + 2 ≤ rounds := fun he => by cases he
        have := gathers_of_refill hrefill (Nat.zero_le _) hr hmore
        simpa [Except.map] using this

/-- Gathering uses up one slab in each round, and the last rounds find none. -/
theorem gathers_drainPieces {pieces : List Bytes} {t : Transcript}
    (hslabs : t.feed.slabs Transcript.slab Transcript.slab_pos = pieces)
    (hlast : t.lastBytes ≤ Transcript.slab) {rounds : Nat} (hr : pieces.length + 1 ≤ rounds) :
    Gathers (Transcript.gather (rounds + 1) 1 t)
      (Transcript.drainPieces t.feed.failure pieces t.decoder) := by
  -- the transcript after a refill has one slab less, and no characters that wait
  induction pieces generalizing t rounds with
  | nil => exact gathers_end (Feed.pieces_of_slabs_eq_nil _ hslabs) hlast rounds
  | cons p pieces ih =>
    obtain ⟨feed, hnext, hslabs', hfail, hlen⟩ := Feed.slabs_of_next Transcript.slab_pos hslabs
    simp only [Transcript.drainPieces]
    cases hd : t.decoder.feed p.isEmpty p with
    | error e => exact gathers_of_error (refill_error hlast hnext hd) rounds
    | ok q =>
      obtain ⟨text, decoder⟩ := q
      have hrefill := refill_ok hlast hnext hd
      by_cases hnothing : p = [] ∧ text = []
      · obtain ⟨rfl, rfl⟩ := hnothing
        exact gathers_of_nothing hrefill rounds
      · have hsome : (!p.isEmpty || !text.isEmpty) = true := by
          cases p <;> cases text <;> simp_all
        rw [hsome] at hrefill
        have hn : pieces.length ≤ feed.size := hslabs' ▸ Feed.length_slabs_le _ feed
        have hmore (k : Nat) (hk : pieces.length + 2 ≤ k) : Gathers (Transcript.gather k 1
            ⟨feed, decoder, [], p.length, text.length⟩)
            (Transcript.drainPieces t.feed.failure pieces decoder) := by
          obtain ⟨k, rfl⟩ : ∃ j, k = j + 1 := ⟨k - 1, by omega⟩
          rw [← hfail]
          exact ih hslabs' hlen (by omega)
        rw [List.length_cons] at hr
        have := gathers_of_refill hrefill hn (fun _ => hr) hmore
        have hand : (p.isEmpty && text.isEmpty) = false := by
          cases p <;> cases text <;> simp_all
        simp only [hand, Bool.false_eq_true, if_false]
        cases hrest : Transcript.drainPieces t.feed.failure pieces decoder <;>
          rw [hrest] at this <;> exact this

theorem drain_decoded (t : Transcript) :
    (decoded t).drain = (Transcript.drainPieces t.feed.failure
      (t.feed.slabs Transcript.slab Transcript.slab_pos) t.decoder).map (t.ready ++ ·) := by
  simp only [drain, Transcript.drain]
  cases Transcript.drainPieces t.feed.failure (t.feed.slabs Transcript.slab Transcript.slab_pos)
    t.decoder <;> rfl

theorem readsEach_decoded {t : Transcript} (hlast : t.lastBytes ≤ Transcript.slab) :
    ReadsEach (decoded t) (decoded t).drain := by
  have hlength : (t.feed.slabs Transcript.slab Transcript.slab_pos).length ≤ t.feed.size :=
    Feed.length_slabs_le Transcript.slab_pos t.feed
  have hgather := gathers_drainPieces (t := { t with ready := [] }) rfl hlast
    (Nat.succ_le_succ hlength)
  rw [drain_decoded]
  exact readsEach_ready t.ready (Gathers.readsEach rfl hgather)

/-- The readers of which not more than a slab has been taken in at a time, such as one that nothing
    has been read from. -/
def IsModest : Reader → Prop
  | plain _ _ => True
  | decoded t => t.lastBytes ≤ Transcript.slab

/-- **Reading one character after the other** comes to an end, and gives what draining gives. -/
theorem readsEach_iff {r : Reader} (hr : r.IsModest) {y : Except ReadError Text} :
    ReadsEach r y ↔ y = r.drain := by
  have hdrain : ReadsEach r r.drain := by
    cases r with
    | plain rest patience =>
      cases patience with
      | none => exact readsEach_plain_none rest
      | some p => exact readsEach_plain_some rest p.readings p.failure
    | decoded t => exact readsEach_decoded hr
  constructor
  · intro h
    exact h.unique hdrain
  · rintro rfl
    exact hdrain

end Reader

namespace Stream

variable {codecs : Codecs} {charset : Text} {r : Reader}

theorem isModest_of_decoding {feed : Feed} (h : decoding codecs feed charset = .ok r) :
    r.IsModest := by
  unfold decoding at h
  split at h
  · cases h
  · cases h
    exact Nat.zero_le _

theorem isModest_of_contentReader {content : StreamContent}
    (h : contentReader codecs charset content = .ok r) : r.IsModest := by
  cases content with
  | text rest patience =>
    cases h
    trivial
  | bytes rest refusal => exact isModest_of_decoding h
  | raw feed refusal => exact isModest_of_decoding h

theorem isModest_of_reader {s : Stream} (h : s.reader codecs charset = .ok r) : r.IsModest := by
  unfold reader at h
  cases hr : contentReader codecs charset s.content with
  | error m => simp [hr] at h
  | ok r' =>
    cases hrefusal : s.content.refusal with
    | some f =>
      simp only [hr, hrefusal] at h
      split_ifs at h
    | none =>
      simp only [hr, hrefusal] at h
      split_ifs at h
      cases h
      exact isModest_of_contentReader hr

end Stream

namespace Source

theorem eq_ok_of_blamed {α : Type} {source : Text} {x : Except Trouble α} {a : α}
    (h : blamed source x = .ok a) : x = .ok a := by
  cases x with
  | error e => cases h
  | ok b =>
    cases h
    rfl

variable {w : World} {charset : Text} {r : Reader}

theorem isModest_of_openFile {path : Text} (h : openFile w charset path = .ok r) : r.IsModest := by
  unfold openFile at h
  split_ifs at h
  split at h
  · cases h
  · split at h
    · cases h
    · rename_i hd
      cases h
      exact Stream.isModest_of_decoding hd

theorem isModest_of_openUrl {url : Text} (h : openUrl w charset url = .ok r) : r.IsModest := by
  unfold openUrl at h
  split at h
  · cases h
  · split at h
    · cases h
    · cases h
      trivial

theorem isModest_of_opening {s : Source} (h : (s.opening w charset).result = .ok r) :
    r.IsModest := by
  cases s with
  | location t =>
    unfold opening at h
    dsimp only at h
    split at h
    · cases h
    · exact isModest_of_openUrl (eq_ok_of_blamed h)
    · exact isModest_of_openFile (eq_ok_of_blamed h)
  | path t => exact isModest_of_openFile (eq_ok_of_blamed h)
  | stream s =>
    unfold opening at h
    dsimp only at h
    split at h
    · cases h
    · rename_i hr
      cases h
      exact Stream.isModest_of_reader hr

/-- **A source that has been opened**: a loop that reads single characters until nothing more comes
    gives what draining gives. -/
theorem readsEach_opening {s : Source} (h : (s.opening w charset).result = .ok r)
    {y : Except ReadError Text} : r.ReadsEach y ↔ y = r.drain :=
  Reader.readsEach_iff (isModest_of_opening h)

end Source

end FreshNames
