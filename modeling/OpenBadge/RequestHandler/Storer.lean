import OpenBadge.RequestHandler.DataResponses
import OpenBadge.Storer.Serving

/-!
# The storer behind the request handler

The functions `storer_find_…_chunk_from_timestamp` and `storer_get_next_…_chunk` over the
partitions of the file system, as libraries of the request handler. The chunks of a static
partition come out of its elements, of which some may be damaged; kinds without one, as the scan
chunks with their dynamic partition, are left to further libraries.
-/

namespace OpenBadge.RequestHandler

open OpenBadge.Lib OpenBadge.Storage OpenBadge.Filesystem OpenBadge.Storer
open Proc (Keeps)

variable {D : Device} {T : Type}

/-! ## The partitions -/

/-- A static partition with its elements, where `none` is a damaged one, and what they decode to. -/
structure Holding (D : Device) (rs : List Registration) where
  extent : Extent
  ring : List (Option (List UInt8))
  decode : List UInt8 → Option Chunk
  mem : extent ∈ layout D rs
  static : isDynamic extent.pid = false
  slots_ge : 3 ≤ extent.slots
  slots_lt : extent.slots < 65534

/-- The partitions of the kinds of data, with fuel enough for each, and the libraries for the
kinds that have none. -/
structure Holdings (D : Device) (T : Type) where
  rs : List Registration
  registrable : AllRegistrable D 0 (firstFree D) rs
  holding : Sensor → Option (Holding D rs)
  apart : ∀ i k hi hk, holding i = some hi → holding k = some hk → i ≠ k →
    hi.extent.pid ≠ hk.extent.pid
  fuel : Nat
  enough : ∀ k h, holding k = some h → h.ring.length < fuel
  others : Libraries T

/-- The file system, the flags `…_chunks_found_timestamp`, and the state of the other libraries. -/
structure StorerState (D : Device) (T : Type) where
  fs : Filesystem.State D
  foundTimestamp : Sensor → Bool
  others : T

/-- The fields of the message are an `uint32_t` and an `uint16_t`. -/
def Timestamp.toStorer (t : Timestamp) : Processing.Timestamp :=
  ⟨UInt32.ofNat t.seconds, UInt16.ofNat t.ms⟩

def Chunk.stamp (c : Chunk) : Processing.Timestamp := c.timestamp.toStorer

variable {S S' : Type} in
/-- Libraries of which the calls correspond. -/
theorem Yield.map {L : Libraries S} {L' : Libraries S'} {k : Sensor} (f : S → S')
    (hnext : ∀ u, L'.getNextChunk k (f u) = ((L.getNextChunk k u).1, f (L.getNextChunk k u).2))
    {u : S} {cs : List Chunk} : Yield L k u cs ↔ Yield L' k (f u) cs := by
  constructor
  · intro h
    induction h with
    | @ends u e last ends =>
      refine .ends ?_ ends
      rw [hnext, last]
    | @chunk u u' c cs next _ ih =>
      refine .chunk ?_ ih
      rw [hnext, next]
  · intro h
    generalize hv : f u = v at h
    induction h generalizing u with
    | ends last ends =>
      subst hv
      rw [hnext] at last
      exact .ends last ends
    | @chunk v v' c cs next _ ih =>
      subst hv
      rw [hnext] at next
      rcases hcall : L.getNextChunk k u with ⟨ret, u'⟩
      rw [hcall] at next
      cases next
      exact .chunk hcall (ih rfl)

namespace StorerState

/-- After a call on the partition of `k`. -/
def called (s : StorerState D T) (k : Sensor) (fs : Filesystem.State D) (found : Bool) :
    StorerState D T :=
  { s with fs := fs, foundTimestamp := Function.update s.foundTimestamp k found }

/-- `storer_find_…_chunk_from_timestamp` on a partition. -/
def find {rs : List Registration} (h : Holding D rs) (fuel : Nat) (k : Sensor) (t : Timestamp) :
    Proc (StorerState D T) RetCode Unit := fun s =>
  match findChunkFromTimestamp h.extent.pid (fun data => (h.decode data).map Chunk.stamp)
      t.toStorer fuel s.fs with
  | (.ok found, fs) => (.ok (), s.called k fs (found = some true))
  | (.error e, fs) => (.error e, s.called k fs false)

/-- `storer_get_next_…_chunk` on a partition; without enough fuel, an error. -/
def getNext {rs : List Registration} (h : Holding D rs) (fuel : Nat) (k : Sensor) :
    Proc (StorerState D T) RetCode Chunk := fun s =>
  match Storer.getNextChunk h.extent.pid h.decode (s.foundTimestamp k) fuel s.fs with
  | (.ok (some c), fs) => (.ok c, s.called k fs false)
  | (.ok none, fs) => (.error .internal, s.called k fs false)
  | (.error e, fs) => (.error e, s.called k fs false)

def onOthers {α : Type} (x : Proc T RetCode α) : Proc (StorerState D T) RetCode α :=
  Proc.within others (fun s t => { s with others := t }) x

end StorerState

namespace Holdings

variable (H : Holdings D T)

def storerFindChunkFromTimestamp (k : Sensor) (t : Timestamp) :
    Proc (StorerState D T) RetCode Unit :=
  match H.holding k with
  | some h => StorerState.find h H.fuel k t
  | none => StorerState.onOthers (H.others.findChunk k t)

def storerGetNextChunk (k : Sensor) : Proc (StorerState D T) RetCode Chunk :=
  match H.holding k with
  | some h => StorerState.getNext h H.fuel k
  | none => StorerState.onOthers (H.others.getNextChunk k)

def invalidate (s : StorerState D T) (k : Sensor) : StorerState D T :=
  match H.holding k with
  | some h => { s with fs := (iteratorInvalidate h.extent.pid s.fs).2 }
  | none => s

/-- `storer_invalidate_iterators`. -/
def storerInvalidateIterators (s : StorerState D T) : StorerState D T :=
  [.accelerometer, .accelerometerInterrupt, .battery, .scan, .microphone].foldl H.invalidate
    { s with others := H.others.invalidateIterators s.others }

/-! ## What a call leaves -/

/-- The partition of `k` serves the chunks `rest` next. -/
def Left {rs : List Registration} (h : Holding D rs) (k : Sensor) (rest : List Chunk)
    (s : StorerState D T) : Prop :=
  Serves h.decode rs h.extent h.ring (s.foundTimestamp k) rest s.fs

/-- Every partition serves some chunks next. -/
def Ready (s : StorerState D T) : Prop :=
  ∀ k h, H.holding k = some h → ∃ rest, Left h k rest s

/-- The states in which every partition is ready. -/
abbrev Stored : Type := { s : StorerState D T // H.Ready s }

/-- A call on the partition of `k` leaves the other ones. -/
structure Aside {rs : List Registration} (h : Holding D rs) (k : Sensor) (s u : StorerState D T) :
    Prop where
  moved : Moved h.extent.pid s.fs u.fs
  foundTimestamp : ∀ i, i ≠ k → u.foundTimestamp i = s.foundTimestamp i
  others : u.others = s.others

variable {H} {s u : StorerState D T} {i k : Sensor} {rest : List Chunk} {t : Timestamp}

theorem called_aside {rs : List Registration} {h : Holding D rs} {fs : Filesystem.State D}
    {found : Bool} (hmoved : Moved h.extent.pid s.fs fs) : Aside h k s (s.called k fs found) :=
  ⟨hmoved, fun _ hi => Function.update_of_ne hi _ _, rfl⟩

theorem Aside.left {h hi : Holding D H.rs} (haside : Aside h k s u) (hk : H.holding k = some h)
    (hholding : H.holding i = some hi) (hne : i ≠ k) (hleft : Left hi i rest s) :
    Left hi i rest u := by
  rw [Left, haside.foundTimestamp i hne]
  exact hleft.moved H.registrable hi.mem h.mem (H.apart k i h hi hk hholding hne.symm) haside.moved

theorem called_left {rs : List Registration} {h : Holding D rs} {fs : Filesystem.State D}
    {found : Bool} (hserves : Serves h.decode rs h.extent h.ring found rest fs) :
    Left h k rest (s.called k fs found) := by
  unfold Left StorerState.called
  dsimp only
  rwa [Function.update_self]

/-- After a search the chunks from the timestamp on are left. -/
theorem find_left {h : Holding D H.rs} (hk : H.holding k = some h) (hleft : Left h k rest s)
    (t : Timestamp) :
    ∃ ret u, StorerState.find h H.fuel k t s = (ret, u) ∧
      (ret = .ok () ∨ ret = .error .invalidState) ∧ Aside h k s u ∧
      Left h k (chunksSince h.decode Chunk.stamp t.toStorer h.extent.slots h.ring) u := by
  have hupheld := hleft.upheld
  have hmoved := findChunkFromTimestamp_moved (hupheld.intact _ h.mem).known.sync
    (fun data => (h.decode data).map Chunk.stamp) t.toStorer H.fuel s.fs (Moved.refl _ s.fs)
  unfold StorerState.find
  rcases Serves.find h.mem h.static h.slots_ge h.slots_lt hupheld h.decode Chunk.stamp t.toStorer
      (Nat.le_of_lt (H.enough k h hk)) with ⟨found, fs, hcall, hserves⟩ | ⟨fs, hcall, hserves⟩
  · rw [hcall] at hmoved ⊢
    refine ⟨_, _, rfl, .inl rfl, called_aside hmoved, called_left ?_⟩
    cases found <;> exact hserves
  · rw [hcall] at hmoved ⊢
    exact ⟨_, _, rfl, .inr rfl, called_aside hmoved, called_left hserves⟩

/-- The next chunk is the first that is left. -/
theorem getNext_left {h : Holding D H.rs} (hk : H.holding k = some h) (hleft : Left h k rest s) :
    ∃ ret u, StorerState.getNext h H.fuel k s = (ret, u) ∧ Aside h k s u ∧
      ((rest = [] ∧ (ret = .error .notFound ∨ ret = .error .invalidState) ∧ Left h k [] u) ∨
        ∃ c more, rest = c :: more ∧ ret = .ok c ∧ Left h k more u) := by
  have hmoved := getNextChunk_moved (hleft.upheld.intact _ h.mem).known.sync h.decode
    (s.foundTimestamp k) H.fuel s.fs (Moved.refl _ s.fs)
  unfold StorerState.getNext
  rcases Serves.next h.mem h.static h.slots_ge h.slots_lt hleft (H.enough k h hk) with
    ⟨rfl, code, fs, hcode, hcall, hserves⟩ | ⟨c, more, fs, rfl, hcall, hserves⟩
  · rw [hcall] at hmoved ⊢
    refine ⟨_, _, rfl, called_aside hmoved, .inl ⟨rfl, ?_, called_left hserves⟩⟩
    exact hcode.imp (congrArg Except.error) (congrArg Except.error)
  · rw [hcall] at hmoved ⊢
    exact ⟨_, _, rfl, called_aside hmoved, .inr ⟨c, more, rfl, rfl, called_left hserves⟩⟩

theorem Aside.ready {h : Holding D H.rs} (haside : Aside h k s u) (hk : H.holding k = some h)
    (hs : H.Ready s) (hleft : Left h k rest u) : H.Ready u := by
  intro i hi hholding
  by_cases hne : i = k
  · subst hne
    rw [hk] at hholding
    cases hholding
    exact ⟨rest, hleft⟩
  · obtain ⟨rest', hleft'⟩ := hs i hi hholding
    exact ⟨rest', haside.left hk hholding hne hleft'⟩

theorem find_keeps (k : Sensor) (t : Timestamp) :
    Keeps H.Ready (H.storerFindChunkFromTimestamp k t) := by
  intro s hs
  unfold storerFindChunkFromTimestamp
  cases hk : H.holding k with
  | none => exact hs
  | some h =>
    obtain ⟨rest, hleft⟩ := hs k h hk
    obtain ⟨ret, u, hcall, -, haside, hleft'⟩ := find_left hk hleft t
    dsimp only
    rw [hcall]
    exact haside.ready hk hs hleft'

theorem getNext_keeps (k : Sensor) : Keeps H.Ready (H.storerGetNextChunk k) := by
  intro s hs
  unfold storerGetNextChunk
  cases hk : H.holding k with
  | none => exact hs
  | some h =>
    obtain ⟨rest, hleft⟩ := hs k h hk
    obtain ⟨ret, u, hcall, haside, hnext⟩ := getNext_left hk hleft
    dsimp only
    rw [hcall]
    rcases hnext with ⟨-, -, hleft'⟩ | ⟨c, more, -, -, hleft'⟩
    · exact haside.ready hk hs hleft'
    · exact haside.ready hk hs hleft'

theorem invalidate_ready (hs : H.Ready s) (k : Sensor) : H.Ready (H.invalidate s k) := by
  unfold invalidate
  cases hk : H.holding k with
  | none => exact hs
  | some h =>
    obtain ⟨rest, hleft⟩ := hs k h hk
    have hmoved := modifyIterator_moved (fun it => { it with iteratorValid := 0 }) s.fs
      (Moved.refl h.extent.pid s.fs)
    have haside : Aside h k s { s with fs := (iteratorInvalidate h.extent.pid s.fs).2 } :=
      ⟨hmoved, fun _ _ => rfl, rfl⟩
    have hinvalid : ((iteratorInvalidate h.extent.pid s.fs).2.iter h.extent.pid).iteratorValid ≠
        iteratorValidNumber := by
      rw [iteratorInvalidate, modifyIterator_apply, setIter_iter]
      exact zero_ne_iteratorValidNumber
    have hnone : Left h k [] { s with fs := (iteratorInvalidate h.extent.pid s.fs).2 } :=
      Serves.invalid (hleft.upheld.of_same hmoved.dev hmoved.parts) hinvalid
    exact haside.ready hk hs hnone

theorem invalidateIterators_ready (hs : H.Ready s) : H.Ready (H.storerInvalidateIterators s) :=
  List.foldlRecOn _ _ (motive := H.Ready) hs fun _ hs k _ => invalidate_ready hs k

/-! ## The libraries -/

/-- Before the first search. -/
theorem ready_of_upheld (h : ∀ k h, H.holding k = some h → Upheld H.rs h.extent h.ring s.fs ∧
    (s.fs.iter h.extent.pid).iteratorValid ≠ iteratorValidNumber) : H.Ready s := by
  intro k hk hholding
  obtain ⟨hupheld, hinvalid⟩ := h k hk hholding
  exact ⟨[], Serves.invalid hupheld hinvalid⟩

variable (H)

/-- The storer as libraries. -/
def libraries : Libraries H.Stored where
  decode := H.others.decode
  encode := H.others.encode
  findChunk k t := (H.storerFindChunkFromTimestamp k t).restrict (find_keeps k t)
  getNextChunk k := (H.storerGetNextChunk k).restrict (getNext_keeps k)
  invalidateIterators s := ⟨H.storerInvalidateIterators s.1, invalidateIterators_ready s.2⟩

variable {H}

theorem findChunk_eq {h : Holding D H.rs} (hk : H.holding k = some h) {ret : Except RetCode Unit}
    {s : H.Stored} (hcall : StorerState.find h H.fuel k t s.1 = (ret, u)) :
    ∃ hu, H.libraries.findChunk k t s = (ret, ⟨u, hu⟩) := by
  refine Proc.restrict_eq (find_keeps k t) ?_
  rw [storerFindChunkFromTimestamp, hk]
  exact hcall

theorem getNextChunk_eq {h : Holding D H.rs} (hk : H.holding k = some h)
    {ret : Except RetCode Chunk} {s : H.Stored}
    (hcall : StorerState.getNext h H.fuel k s.1 = (ret, u)) :
    ∃ hu, H.libraries.getNextChunk k s = (ret, ⟨u, hu⟩) := by
  refine Proc.restrict_eq (getNext_keeps k) ?_
  rw [storerGetNextChunk, hk]
  exact hcall

/-- What a partition has left is what comes next. -/
theorem Left.yield {h : Holding D H.rs} (hk : H.holding k = some h) {s : H.Stored}
    (hleft : Left h k rest s.1) : Yield H.libraries k s rest := by
  induction rest generalizing s with
  | nil =>
    obtain ⟨ret, u, hcall, -, hnext⟩ := getNext_left hk hleft
    obtain ⟨hu, hcall'⟩ := getNextChunk_eq hk hcall
    rcases hnext with ⟨-, rfl | rfl, -⟩ | ⟨c, more, hnil, -⟩
    · exact .ends (congrArg Prod.fst hcall') (.inl rfl)
    · exact .ends (congrArg Prod.fst hcall') (.inr rfl)
    · cases hnil
  | cons c cs ih =>
    obtain ⟨ret, u, hcall, -, hnext⟩ := getNext_left hk hleft
    obtain ⟨hu, hcall'⟩ := getNextChunk_eq hk hcall
    rcases hnext with ⟨hnil, -⟩ | ⟨c', more, hcons, rfl, hleft'⟩
    · cases hnil
    · cases hcons
      exact .chunk hcall' (ih hleft')

theorem yield_others (hk : H.holding k = none) {s : H.Stored} {cs : List Chunk} :
    Yield H.libraries k s cs ↔ Yield H.others k s.1.others cs := by
  refine Yield.map (fun s : H.Stored => s.1.others) fun s => ?_
  change _ = ((H.storerGetNextChunk k s.1).1, (H.storerGetNextChunk k s.1).2.others)
  rw [storerGetNextChunk, hk]
  rfl

variable (H) in
/-- What a call for `k` leaves to the other kinds. -/
def Spares (k : Sensor) (s u : StorerState D T) : Prop :=
  (∃ h, H.holding k = some h ∧ Aside h k s u) ∨
    u.fs = s.fs ∧ u.foundTimestamp = s.foundTimestamp ∧
      ∀ i cs, i ≠ k → Yield H.others i s.others cs → Yield H.others i u.others cs

theorem Spares.yield {s u : H.Stored} (hspares : H.Spares k s.1 u.1)
    (hne : i ≠ k) {cs : List Chunk} (h : Yield H.libraries i s cs) : Yield H.libraries i u cs := by
  cases hi : H.holding i with
  | none =>
    rw [yield_others hi] at h ⊢
    rcases hspares with ⟨hk, -, haside⟩ | ⟨-, -, hothers⟩
    · rwa [haside.others]
    · exact hothers i cs hne h
  | some hi' =>
    obtain ⟨rest, hleft⟩ := s.2 i hi' hi
    rw [h.unique _ (hleft.yield hi)]
    refine Left.yield hi ?_
    rcases hspares with ⟨hk, hholding, haside⟩ | ⟨hfs, hfound, -⟩
    · exact haside.left hholding hi hne hleft
    · rwa [Left, hfs, hfound]

variable (H) in
/-- The chunks of a kind from a timestamp on. -/
def found (othersFound : Sensor → Timestamp → List Chunk) (k : Sensor) (t : Timestamp) :
    List Chunk :=
  match H.holding k with
  | some h => chunksSince h.decode Chunk.stamp t.toStorer h.extent.slots h.ring
  | none => othersFound k t

theorem findChunk_spares {othersFound : Sensor → Timestamp → List Chunk}
    (hothers : H.others.Finds othersFound) (k : Sensor) (t : Timestamp) (s : H.Stored) :
    H.Spares k s.1 (H.libraries.findChunk k t s).2.1 := by
  cases hk : H.holding k with
  | none =>
    have hfs : (H.libraries.findChunk k t s).2.1 =
        (StorerState.onOthers (H.others.findChunk k t) s.1).2 := by
      change (H.storerFindChunkFromTimestamp k t s.1).2 = _
      rw [storerFindChunkFromTimestamp, hk]
    rw [hfs]
    exact .inr ⟨rfl, rfl, fun i cs hne h => hothers.find_other k i t _ cs hne h⟩
  | some h =>
    obtain ⟨rest, hleft⟩ := s.2 k h hk
    obtain ⟨ret, u, hcall, -, haside, -⟩ := find_left hk hleft t
    obtain ⟨hu, hcall'⟩ := findChunk_eq hk hcall
    rw [hcall']
    exact .inl ⟨h, hk, haside⟩

theorem getNextChunk_spares {othersFound : Sensor → Timestamp → List Chunk}
    (hothers : H.others.Finds othersFound) (k : Sensor) (s : H.Stored) :
    H.Spares k s.1 (H.libraries.getNextChunk k s).2.1 := by
  cases hk : H.holding k with
  | none =>
    have hfs : (H.libraries.getNextChunk k s).2.1 =
        (StorerState.onOthers (H.others.getNextChunk k) s.1).2 := by
      change (H.storerGetNextChunk k s.1).2 = _
      rw [storerGetNextChunk, hk]
    rw [hfs]
    exact .inr ⟨rfl, rfl, fun i cs hne h => hothers.next_other k i _ cs hne h⟩
  | some h =>
    obtain ⟨rest, hleft⟩ := s.2 k h hk
    obtain ⟨ret, u, hcall, haside, -⟩ := getNext_left hk hleft
    obtain ⟨hu, hcall'⟩ := getNextChunk_eq hk hcall
    rw [hcall']
    exact .inl ⟨h, hk, haside⟩

/-- The storer finds always the same chunks, and each kind has an iterator of its own. -/
theorem finds {othersFound : Sensor → Timestamp → List Chunk}
    (hothers : H.others.Finds othersFound) : H.libraries.Finds (H.found othersFound) := by
  refine ⟨fun k t s => ?_, fun k t s => ?_, fun k i t s cs hne h => ?_, fun k i s cs hne h => ?_⟩
  · cases hk : H.holding k with
    | none =>
      change (H.storerFindChunkFromTimestamp k t s.1).1 = _ ∨
        (H.storerFindChunkFromTimestamp k t s.1).1 = _
      rw [storerFindChunkFromTimestamp, hk]
      exact hothers.ready k t s.1.others
    | some h =>
      obtain ⟨rest, hleft⟩ := s.2 k h hk
      obtain ⟨ret, u, hcall, hret, -⟩ := find_left hk hleft t
      obtain ⟨hu, hcall'⟩ := findChunk_eq hk hcall
      rwa [hcall']
  · cases hk : H.holding k with
    | none =>
      rw [yield_others hk, found, hk]
      change Yield H.others k (H.storerFindChunkFromTimestamp k t s.1).2.others _
      rw [storerFindChunkFromTimestamp, hk]
      exact hothers.find k t s.1.others
    | some h =>
      obtain ⟨rest, hleft⟩ := s.2 k h hk
      obtain ⟨ret, u, hcall, -, -, hleft'⟩ := find_left hk hleft t
      obtain ⟨hu, hcall'⟩ := findChunk_eq hk hcall
      rw [hcall', found, hk]
      exact Left.yield hk hleft'
  · exact (findChunk_spares hothers k t s).yield hne h
  · exact (getNextChunk_spares hothers k s).yield hne h

/-- A data request for the chunks of a static partition is answered with those that the partition
has from the timestamp on. -/
theorem stored_data_answered {othersFound : Sensor → Timestamp → List Chunk}
    (hothers : H.others.Finds othersFound) (t : H.Stored)
    (as : List (Action H.Stored))
    (hone : Along (step H.libraries) OneByOne (State.init t) as)
    (herr : .error ∉ (run (step H.libraries) (State.init t) as).trace) {h : Holding D H.rs}
    (hk : H.holding k = some h)
    (hq : ∀ e ∈ (run (step H.libraries) (State.init t) as).queue, e.handler ≠ .response (.data k)) :
    (run (step H.libraries) (State.init t) as).dataSent k =
      ((run (step H.libraries) (State.init t) as).dataAsked k).flatMap fun r =>
        dataAnswer k r.1
          (chunksSince h.decode Chunk.stamp r.2.toStorer h.extent.slots h.ring) := by
  rw [((run_chained H.libraries _ (finds hothers) t hone herr).chain k).complete hq, dataAnswers]
  refine List.flatMap_congr fun r _ => ?_
  rw [found, hk]

end Holdings

theorem checkedSlots_boot :
    boot checkedSlots (powerUp (D := eeprom) blankBytes) = (.ok [0x4000], checkedStart) :=
  Proc.eq_of_fst (by decide +kernel)

/-- Five chunks in four slots, one of them damaged and one that does not decode. -/
def checkedHolding : Holding eeprom checkedSlots where
  extent := checkedExtent
  ring := [some [1, 1], none, some [3, 3], some [4, 9], some [5, 5]]
  decode data := (decodePair data).map fun x => ⟨⟨x.toNat, 0⟩, 0, [data]⟩
  mem := by decide +kernel
  static := by decide
  slots_ge := by decide +kernel
  slots_lt := by decide +kernel

/-- The microphone has a partition. -/
def checkedHoldings : Holdings eeprom (Sensor → List Chunk) where
  rs := checkedSlots
  registrable := (boot_blank (fun _ _ => rfl) checkedSlots_boot).2.1
  holding k := if k = .microphone then some checkedHolding else none
  apart i k hi hk hi' hk' hne := by
    split at hi'
    · split at hk'
      · rename_i h h'
        exact absurd (h.trans h'.symm) hne
      · cases hk'
    · cases hi'
  fuel := 6
  enough k h hk := by
    split at hk
    · cases hk
      decide
    · cases hk
  others := listLibraries twoChunks

theorem checkedHoldings_ready :
    checkedHoldings.Ready ⟨damagedRing, fun _ => false, fun _ => []⟩ := by
  refine Holdings.ready_of_upheld fun k h hk => ?_
  change (if k = .microphone then some checkedHolding else none) = some h at hk
  split at hk
  · cases hk
    exact ⟨upheld_since_boot eeprom_byteUnits (fun _ _ => rfl) checkedSlots_boot checkedHolding.mem
      checkedHolding.static checkedHolding.slots_ge checkedHolding.slots_lt damagedRing_worn,
      by decide +kernel⟩
  · cases hk

example :
    (run (step checkedHoldings.libraries) (State.init ⟨_, checkedHoldings_ready⟩)
      ([.connect, .packet (zeroRequest 12 6) 7 default] ++
        List.replicate 16 (.dispatch .success))).dataSent .microphone =
      dataAnswer .microphone 1 [⟨⟨3, 0⟩, 0, [[3, 3]]⟩, ⟨⟨5, 0⟩, 0, [[5, 5]]⟩] := by
  decide +kernel

end OpenBadge.RequestHandler
