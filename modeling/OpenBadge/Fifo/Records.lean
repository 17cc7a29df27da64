import OpenBadge.Fifo.CircularFifo
import OpenBadge.Lib.Run
import Mathlib.Data.List.Sublists

/-!
# Streams of records

The interrupt side appends whole records; the main side reads whole records, a byte
at a time, and an interrupt may come between any two of its steps. A record that
arrives in the middle of a read and finds some room, but not enough, is torn: its
first bytes are kept and the others dropped. Without such an arrival all that is
read are whole records in the order of writing.
-/

namespace OpenBadge.CircularFifo

open OpenBadge.Lib

/-- Where the main side stands: it has seen a size, or `circular_fifo_read` has so
many bytes left to fetch. -/
inductive Reader where
  | idle (seen : Nat)
  | reading (left : Nat)
  deriving DecidableEq, Repr

/-- The FIFO, the main side, every byte read and every record written so far. -/
structure Stream (size : Nat) where
  fifo : Fifo
  reader : Reader
  got : List UInt8
  written : List { record : List UInt8 // record.length = size }

inductive Action (size : Nat) where
  | interrupt (record : { record : List UInt8 // record.length = size })
  | look
  | read (length : Nat)
  | advance

/-- One iteration of the `while` loop of `circular_fifo_read`, or its end. -/
def advance {size : Nat} (bufSize : Nat) (s : Stream size) : Stream size :=
  match s.reader with
  | .idle _ => s
  | .reading 0 => { s with fifo := { s.fifo with readFlag := false }, reader := .idle 0 }
  | .reading (left + 1) =>
    match get bufSize s.fifo with
    | (.ok byte, fifo) => { s with fifo, reader := .reading left, got := s.got ++ [byte] }
    | (.error _, fifo) => { s with fifo := { fifo with readFlag := false }, reader := .idle 0 }

/-- The main side reads a multiple of the record size, at most the size it saw. -/
def step {size : Nat} (bufSize : Nat) (s : Stream size) : Action size → Stream size
  | .interrupt record =>
    { s with fifo := write bufSize s.fifo record, written := s.written ++ [record] }
  | .look =>
    match s.reader with
    | .idle _ => { s with reader := .idle (getSize bufSize s.fifo) }
    | .reading _ => s
  | .read length =>
    match s.reader with
    | .idle seen =>
      if size ∣ length ∧ length ≤ seen then
        { s with fifo := { s.fifo with readFlag := true }, reader := .reading length }
      else s
    | .reading _ => s
  | .advance => advance bufSize s

def start (size : Nat) (buf : Nat → UInt8) : Stream size :=
  { fifo := init buf, reader := .idle 0, got := [], written := [] }

/-- A record that arrives during a read finds room for all of it or for none. -/
def Fits {size : Nat} (bufSize : Nat) (s : Stream size) : Action size → Prop
  | .interrupt _ => s.fifo.readFlag = true →
    getSize bufSize s.fifo = bufSize ∨ getSize bufSize s.fifo + size ≤ bufSize
  | _ => True

instance {size bufSize : Nat} (s : Stream size) (a : Action size) :
    Decidable (Fits bufSize s a) := by
  cases a <;> unfold Fits <;> infer_instance

/-- The bytes of records, one behind the other. -/
def flatten {size : Nat} (l : List { record : List UInt8 // record.length = size }) : List UInt8 :=
  l.flatMap Subtype.val

/-- All that was read so far is a beginning of whole records that were written, in
the order of writing, and is all of them when no read is in progress. -/
def ReadsRecords {size : Nat} (s : Stream size) : Prop :=
  ∃ l, l.Sublist s.written ∧ s.got <+: flatten l ∧
    ∀ seen, s.reader = .idle seen → s.got = flatten l

/-- The bytes read and the bytes in the FIFO are records that were written. -/
structure Aligned {size : Nat} (bufSize : Nat) (s : Stream size) : Prop where
  valid : Valid bufSize s.fifo
  records : ∃ l, l.Sublist s.written ∧ s.got ++ contents bufSize s.fifo = flatten l
  idle : ∀ seen, s.reader = .idle seen →
    size ∣ s.got.length ∧ seen ≤ (contents bufSize s.fifo).length ∧ s.fifo.readFlag = false
  reading : ∀ left, s.reader = .reading left →
    size ∣ s.got.length + left ∧ left ≤ (contents bufSize s.fifo).length ∧ s.fifo.readFlag = true

variable {size bufSize : Nat} {s : Stream size}

theorem flatten_append (l l' : List { record : List UInt8 // record.length = size }) :
    flatten (l ++ l') = flatten l ++ flatten l' := List.flatMap_append

theorem flatten_length (l : List { record : List UInt8 // record.length = size }) :
    (flatten l).length = l.length * size := by
  induction l with
  | nil => simp [flatten]
  | cons r l ih =>
    change (r.val ++ flatten l).length = _
    rw [List.length_append, ih, r.property, List.length_cons, Nat.succ_mul, Nat.add_comm]

/-- A cut of the bytes at a multiple of the size is a cut of the records. -/
theorem split_records {a b : List UInt8}
    {l : List { record : List UInt8 // record.length = size }} (hsize : 0 < size)
    (h : a ++ b = flatten l) (hdvd : size ∣ a.length) :
    ∃ l₁ l₂, l = l₁ ++ l₂ ∧ a = flatten l₁ ∧ b = flatten l₂ := by
  obtain ⟨k, hk⟩ := hdvd
  have hlen : k ≤ l.length := by
    have htotal := congrArg List.length h
    rw [List.length_append, flatten_length, hk, Nat.mul_comm l.length] at htotal
    exact Nat.le_of_mul_le_mul_left (Nat.le.intro htotal) hsize
  have hsplit : flatten (l.take k) ++ flatten (l.drop k) = a ++ b := by
    rw [← flatten_append, List.take_append_drop, h]
  have hka : (flatten (l.take k)).length = a.length := by
    rw [flatten_length, List.length_take, Nat.min_eq_left hlen, hk, Nat.mul_comm]
  obtain ⟨ha, hb⟩ := List.append_inj hsplit hka
  exact ⟨l.take k, l.drop k, (List.take_append_drop k l).symm, ha.symm, hb.symm⟩

theorem Aligned.readsRecords (hsize : 0 < size) (h : Aligned bufSize s) : ReadsRecords s := by
  obtain ⟨l, hsub, hl⟩ := h.records
  cases hreader : s.reader with
  | reading left => exact ⟨l, hsub, ⟨_, hl⟩, fun seen hc => absurd (hreader.symm.trans hc) (by simp)⟩
  | idle seen =>
    obtain ⟨l₁, l₂, rfl, hgot, -⟩ := split_records hsize hl (h.idle seen hreader).1
    exact ⟨l₁, (List.sublist_append_left l₁ l₂).trans hsub, ⟨[], by rw [hgot, List.append_nil]⟩,
      fun _ _ => hgot⟩

theorem aligned_start (size bufSize : Nat) (buf : Nat → UInt8) :
    Aligned bufSize (start size buf) where
  valid := ⟨Nat.succ_pos _, Nat.succ_pos _⟩
  records := ⟨[], List.nil_sublist _, rfl⟩
  idle seen h := by
    cases h
    exact ⟨Nat.dvd_zero _, Nat.zero_le _, rfl⟩
  reading left h := by cases h

/-- What an arriving record leaves in the FIFO: it is appended, or there was no room
at all during a read, or it took the place of the oldest bytes. -/
theorem write_cases (hdvd : size ∣ bufSize) (h : Aligned bufSize s)
    (record : { record : List UInt8 // record.length = size })
    (hfits : Fits bufSize s (.interrupt record)) :
    (contents bufSize (write bufSize s.fifo record) = contents bufSize s.fifo ++ record ∨
      (contents bufSize (write bufSize s.fifo record) = contents bufSize s.fifo) ∨
      (∃ seen, s.reader = .idle seen) ∧
        contents bufSize (write bufSize s.fifo record) =
          (contents bufSize s.fifo ++ record).drop size ∧
        (contents bufSize s.fifo).length = bufSize) := by
  have hle := contents_length_le h.valid
  have hsize := getSize_eq h.valid
  obtain ⟨hwrite, -, -⟩ := write_spec h.valid record.val
  rw [hwrite]
  by_cases hroom : (contents bufSize s.fifo).length + size ≤ bufSize
  · exact Or.inl (putList_roomy _ _ _ (by rw [record.property]; exact hroom))
  cases hreader : s.reader with
  | reading left =>
    obtain ⟨-, -, hflag⟩ := h.reading left hreader
    rcases hfits hflag with hfull | hfit
    · rw [hsize] at hfull
      rw [hflag]
      exact Or.inr (Or.inl (putList_reading _ _ hfull))
    · rw [hsize] at hfit
      exact absurd hfit hroom
  | idle seen =>
    obtain ⟨hgot, -, hflag⟩ := h.idle seen hreader
    obtain ⟨l, -, hl⟩ := h.records
    have hcontents : size ∣ (contents bufSize s.fifo).length := by
      have htotal := congrArg List.length hl
      rw [List.length_append, flatten_length] at htotal
      exact (Nat.dvd_add_right hgot).mp (htotal ▸ Nat.dvd_mul_left size l.length)
    have hfull : (contents bufSize s.fifo).length = bufSize := by
      obtain ⟨i, hi⟩ := hcontents
      obtain ⟨j, hj⟩ := hdvd
      rw [hi, hj] at hle hroom ⊢
      rcases Nat.lt_or_ge i j with hlt | hge
      · have hmul : size * (i + 1) ≤ size * j := Nat.mul_le_mul_left size hlt
        rw [Nat.mul_succ] at hmul
        exact absurd hmul hroom
      · exact Nat.le_antisymm hle (Nat.mul_le_mul_left size hge)
    rw [hflag]
    have hpush := putList_overwriting (contents bufSize s.fifo) record.val hfull
    rw [record.property] at hpush
    exact Or.inr (Or.inr ⟨⟨seen, rfl⟩, hpush, hfull⟩)

theorem Aligned.interrupt (hsize : 0 < size) (hdvd : size ∣ bufSize) (h : Aligned bufSize s)
    (record : { record : List UInt8 // record.length = size })
    (hfits : Fits bufSize s (.interrupt record)) :
    Aligned bufSize (step bufSize s (.interrupt record)) := by
  obtain ⟨-, hvalid, hflag⟩ := write_spec h.valid record.val
  obtain ⟨l, hsub, hl⟩ := h.records
  have hkeep : l.Sublist (s.written ++ [record]) := hsub.trans (List.sublist_append_left _ _)
  have hgrow : (contents bufSize s.fifo).length ≤
      (contents bufSize (write bufSize s.fifo record)).length := by
    rcases write_cases hdvd h record hfits with heq | heq | ⟨-, heq, hfull⟩
    · rw [heq, List.length_append]
      omega
    · rw [heq]
    · rw [heq, List.length_drop, List.length_append, record.property]
      omega
  constructor
  · exact hvalid
  · rcases write_cases hdvd h record hfits with heq | heq | ⟨⟨seen, hreader⟩, heq, hfull⟩
    · refine ⟨l ++ [record], hsub.append (List.Sublist.refl _), ?_⟩
      change s.got ++ contents bufSize (write bufSize s.fifo record) = _
      rw [heq, ← List.append_assoc, hl, flatten_append]
      simp [flatten]
    · refine ⟨l, hkeep, ?_⟩
      change s.got ++ contents bufSize (write bufSize s.fifo record) = _
      rw [heq, hl]
    · obtain ⟨l₁, l₂, rfl, hgot, hcontents⟩ := split_records hsize hl (h.idle seen hreader).1
      change ∃ l', _ ∧ s.got ++ contents bufSize (write bufSize s.fifo record) = _
      rw [heq, hgot, hcontents]
      cases l₂ with
      | nil =>
        refine ⟨l₁, (List.sublist_append_left _ _).trans hkeep, ?_⟩
        simp [flatten, record.property]
      | cons oldest rest =>
        refine ⟨l₁ ++ (rest ++ [record]), ?_, ?_⟩
        · refine List.Sublist.trans ?_ (hsub.append (List.Sublist.refl [record]))
          rw [List.append_assoc]
          exact (List.Sublist.refl l₁).append (List.sublist_cons_self oldest _)
        · rw [flatten_append, flatten_append]
          congr 1
          change (oldest.val ++ flatten rest ++ record.val).drop size = _
          rw [List.append_assoc, List.drop_left' oldest.property]
          simp [flatten]
  · intro seen hreader
    obtain ⟨h1, h2, h3⟩ := h.idle seen hreader
    exact ⟨h1, Nat.le_trans h2 hgrow, hflag.trans h3⟩
  · intro left hreader
    obtain ⟨h1, h2, h3⟩ := h.reading left hreader
    exact ⟨h1, Nat.le_trans h2 hgrow, hflag.trans h3⟩

theorem Aligned.look (h : Aligned bufSize s) : Aligned bufSize (step bufSize s .look) := by
  unfold step
  cases hreader : s.reader with
  | reading left => exact h
  | idle seen =>
    obtain ⟨h1, -, h3⟩ := h.idle seen hreader
    refine ⟨h.valid, h.records, ?_, fun left hc => by cases hc⟩
    intro seen' hc
    cases hc
    exact ⟨h1, Nat.le_of_eq (getSize_eq h.valid), h3⟩

theorem Aligned.read (h : Aligned bufSize s) (length : Nat) :
    Aligned bufSize (step bufSize s (.read length)) := by
  unfold step
  cases hreader : s.reader with
  | reading left => exact h
  | idle seen =>
    obtain ⟨h1, h2, -⟩ := h.idle seen hreader
    dsimp only
    by_cases hok : size ∣ length ∧ length ≤ seen
    · rw [if_pos hok]
      refine ⟨⟨h.valid.read_lt, h.valid.write_lt⟩, h.records, (fun seen' hc => by cases hc), ?_⟩
      intro left hc
      cases hc
      exact ⟨(Nat.dvd_add_right h1).mpr hok.1, Nat.le_trans hok.2 h2, rfl⟩
    · rw [if_neg hok]
      exact h

theorem Aligned.advance (h : Aligned bufSize s) : Aligned bufSize (advance bufSize s) := by
  unfold CircularFifo.advance
  cases hreader : s.reader with
  | idle seen => exact h
  | reading left =>
    obtain ⟨h1, h2, h3⟩ := h.reading left hreader
    cases left with
    | zero =>
      dsimp only
      refine ⟨⟨h.valid.read_lt, h.valid.write_lt⟩, h.records, ?_, fun left hc => by cases hc⟩
      intro seen hc
      cases hc
      exact ⟨h1, Nat.zero_le _, rfl⟩
    | succ left =>
      dsimp only
      rcases get_spec h.valid with ⟨hnil, -⟩ | ⟨byte, rest, g, hcons, hget, hrest, hvalid, hflag⟩
      · rw [hnil, List.length_nil] at h2
        omega
      rw [hget]
      obtain ⟨l, hsub, hl⟩ := h.records
      refine ⟨hvalid, ⟨l, hsub, ?_⟩, (fun seen hc => by cases hc), ?_⟩
      · dsimp only
        rw [hrest, ← hl, hcons, List.append_assoc]
        rfl
      · intro left' hc
        cases hc
        dsimp only
        rw [hcons, List.length_cons] at h2
        refine ⟨?_, by rw [hrest]; omega, hflag.trans h3⟩
        rw [List.length_append, List.length_singleton, Nat.add_assoc, Nat.add_comm 1]
        exact h1

theorem aligned_step (hsize : 0 < size) (hdvd : size ∣ bufSize) (s : Stream size) (a : Action size)
    (h : Aligned bufSize s) (hfits : Fits bufSize s a) : Aligned bufSize (step bufSize s a) := by
  cases a with
  | interrupt record => exact h.interrupt hsize hdvd record hfits
  | look => exact h.look
  | read length => exact h.read length
  | advance => exact h.advance

/-- As long as no record arrives in the middle of a read with room for a part of it
only, everything read is whole records in the order of writing. -/
theorem records_read_whole (hsize : 0 < size) (hdvd : size ∣ bufSize) (buf : Nat → UInt8)
    (actions : List (Action size)) (h : Along (step bufSize) (Fits bufSize) (start size buf) actions) :
    ReadsRecords (run (step bufSize) (start size buf) actions) :=
  (run_invariant (aligned_step hsize hdvd) (aligned_start size bufSize buf) h).readsRecords hsize

def pair (a b : UInt8) : { record : List UInt8 // record.length = 2 } := ⟨[a, b], rfl⟩

/-- Two records in a FIFO for four; two more arrive while the first two are read. -/
def roomyRun : List (Action 2) :=
  [.interrupt (pair 1 2), .interrupt (pair 3 4), .look, .read 4, .advance,
    .interrupt (pair 5 6), .advance, .advance, .interrupt (pair 7 8), .advance, .advance]

theorem records_read_whole_roomy :
    ReadsRecords (run (step 8) (start 2 fun _ => 0) roomyRun) ∧
      (run (step 8) (start 2 fun _ => 0) roomyRun).got = [1, 2, 3, 4] :=
  ⟨records_read_whole (by decide) (by decide) (fun _ => 0) roomyRun (by decide +kernel),
    by decide +kernel⟩

/-- A FIFO for two records is full; the third one arrives when one byte of the first
one is fetched. -/
def tearingRun : List (Action 2) :=
  [.interrupt (pair 1 2), .interrupt (pair 3 4), .look, .read 2, .advance,
    .interrupt (pair 5 6), .advance, .advance, .interrupt (pair 7 8), .look, .read 4,
    .advance, .advance, .advance, .advance, .advance]

/-- The byte 5 of the torn record stays, and what follows is read one byte off. -/
theorem torn_record_misaligns :
    (run (step 4) (start 2 fun _ => 0) tearingRun).got = [1, 2, 4, 5, 7, 8] ∧
      ¬ ReadsRecords (run (step 4) (start 2 fun _ => 0) tearingRun) := by
  have hgot : (run (step 4) (start 2 fun _ => 0) tearingRun).got = [1, 2, 4, 5, 7, 8] := by
    decide +kernel
  have hwritten : (run (step 4) (start 2 fun _ => 0) tearingRun).written =
      [pair 1 2, pair 3 4, pair 5 6, pair 7 8] := by decide +kernel
  have hidle : (run (step 4) (start 2 fun _ => 0) tearingRun).reader = .idle 0 := by
    decide +kernel
  refine ⟨hgot, ?_⟩
  rintro ⟨l, hsub, -, hall⟩
  have heq := hall 0 hidle
  rw [hgot] at heq
  rw [hwritten] at hsub
  have hnone : ∀ l ∈ [pair 1 2, pair 3 4, pair 5 6, pair 7 8].sublists,
      [1, 2, 4, 5, 7, 8] ≠ flatten l := by decide +kernel
  exact hnone l (List.mem_sublists.mpr hsub) heq

end OpenBadge.CircularFifo
