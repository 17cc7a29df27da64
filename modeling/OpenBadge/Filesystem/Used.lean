import OpenBadge.Filesystem.Laps
import OpenBadge.Filesystem.Persist
import OpenBadge.Filesystem.Untrusted

/-!
# Partitions in use

Runs with every call of the application: stores, clears, restarts, and the calls that move
an iterator. The latter change nothing else, in a partition that the library knows.
-/

namespace OpenBadge.Filesystem

open OpenBadge.Lib OpenBadge.Storage
open Proc (Keeps)

variable {D : Device} {s t s₀ : State D} {pid : Nat}

/-! ## Calls that move an iterator -/

inductive IteratorCall
  | invalidate
  | init
  | next
  | previous
  | readElement

def iterate (pid : Nat) : IteratorCall → Fs D Unit
  | .invalidate => iteratorInvalidate pid
  | .init => iteratorInit pid
  | .next => iteratorNext pid
  | .previous => iteratorPrevious pid
  | .readElement => do
    let _ ← iteratorReadElement pid
    pure ()

/-- From `s` to `t` at most the iterator of the partition moved. -/
structure Moved (pid : Nat) (s t : State D) : Prop where
  dev : t.dev = s.dev
  parts : t.partitions = s.partitions
  iters : ∀ j, j ≠ partitionIndex pid → t.partitionIterators j = s.partitionIterators j

theorem Moved.refl (pid : Nat) (s : State D) : Moved pid s s := ⟨rfl, rfl, fun _ _ => rfl⟩

theorem Moved.trans {r : State D} (h : Moved pid r s) (h' : Moved pid s t) : Moved pid r t :=
  ⟨h'.dev.trans h.dev, h'.parts.trans h.parts, fun j hj => (h'.iters j hj).trans (h.iters j hj)⟩

theorem Moved.bytes (h : Moved pid s t) : t.bytes = s.bytes := congrArg D.byte h.dev

theorem Moved.part (h : Moved pid s t) : t.part = s.part := by
  unfold State.part
  rw [h.parts]

theorem Moved.sync (h : Moved pid s t) (hs : Sync s pid) : Sync t pid :=
  hs.of_same h.bytes (congrFun h.part pid)

theorem Moved.of_sameButIter (h : SameButIter pid s t) : Moved pid s t := by
  rcases h with rfl | rfl
  · exact Moved.refl pid t
  · exact ⟨rfl, rfl, fun j hj => Function.update_of_ne hj _ _⟩

theorem modifyIterator_moved (f : PartitionIterator → PartitionIterator) :
    Keeps (Moved pid s₀) (modifyIterator pid f) := by
  intro s hs
  exact ⟨hs.dev, hs.parts, fun j hj => (Function.update_of_ne hj _ _).trans (hs.iters j hj)⟩

theorem readElementHeader_moved (hs₀ : Sync s₀ pid) (a : Nat) :
    Keeps (Moved pid s₀) (readElementHeader pid a) := by
  intro s hs
  rw [readElementHeader_found (hs.sync hs₀)]
  exact hs

theorem iteratorCheckValidity_moved (hs₀ : Sync s₀ pid) :
    Keeps (Moved pid s₀) (iteratorCheckValidity pid) := by
  have hlost : ∀ α : Type, Keeps (Moved pid s₀) (iteratorLost pid : Fs D α) := fun _ =>
    (modifyIterator_moved _).bind fun _ => Keeps.fail _ _
  refine Keeps.bind (fun _ hs => hs) fun it => (Keeps.failIf _ _ _).bind fun _ => ?_
  refine Keeps.bind (fun _ hs => hs) fun p => (Keeps.when fun _ => hlost Unit).bind fun _ => ?_
  refine (readElementHeader_moved hs₀ _).attempt.bind fun found => ?_
  split
  · exact hlost Unit
  · exact Keeps.fail _ _
  · exact Keeps.when fun _ => hlost Unit

theorem getNextElementHeader_moved (hs₀ : Sync s₀ pid) (a recordId len : Nat) :
    Keeps (Moved pid s₀) (getNextElementHeader pid a recordId len) := by
  refine Keeps.bind (fun _ hs => hs) fun p => ?_
  refine (readElementHeader_moved hs₀ _).bind fun h => ?_
  refine Keeps.bind (fun _ hs => hs) fun p' => ?_
  split
  · exact Keeps.pure _ _
  · refine Keeps.bind (fun _ hs => hs) fun p'' => ?_
    refine (readElementHeader_moved hs₀ _).bind fun h' => ?_
    exact (Keeps.failIf _ _ _).bind fun _ => Keeps.pure _ _

theorem getPreviousElementHeader_moved (hs₀ : Sync s₀ pid) (a recordId len : Nat) :
    Keeps (Moved pid s₀) (getPreviousElementHeader pid a recordId len) := by
  refine Keeps.bind (fun _ hs => hs) fun p => ?_
  split
  · refine (Keeps.failIf _ _ _).bind fun _ => (readElementHeader_moved hs₀ _).bind fun h => ?_
    exact (Keeps.failIf _ _ _).bind fun _ => Keeps.pure _ _
  · refine (readElementHeader_moved hs₀ _).bind fun h => Keeps.bind (fun _ hs => hs) fun p' => ?_
    refine (readElementHeader_moved hs₀ _).bind fun h' => ?_
    exact (Keeps.failIf _ _ _).bind fun _ => Keeps.pure _ _

theorem iteratorInit_moved (hs₀ : Sync s₀ pid) : Keeps (Moved pid s₀) (iteratorInit pid) := by
  refine (modifyIterator_moved _).bind fun _ => Keeps.bind (fun _ hs => hs) fun p => ?_
  refine (Keeps.failIf _ _ _).bind fun _ => (modifyIterator_moved _).bind fun _ => ?_
  refine (readElementHeader_moved hs₀ _).attempt.bind fun found => ?_
  split
  · exact Keeps.fail _ _
  · exact Keeps.fail _ _
  · exact modifyIterator_moved _

/-- A call that moves the iterator of a known partition changes nothing else. -/
theorem iterate_moved (hs₀ : Sync s₀ pid) (c : IteratorCall) :
    Moved pid s₀ (iterate pid c s₀).2 := by
  have hcheck := iteratorCheckValidity_moved hs₀
  have hkeeps : Keeps (Moved pid s₀) (iterate pid c) := by
    cases c with
    | invalidate => exact modifyIterator_moved _
    | init => exact iteratorInit_moved hs₀
    | next =>
      refine hcheck.bind fun _ => Keeps.bind (fun _ hs => hs) fun it => ?_
      refine (getNextElementHeader_moved hs₀ _ _ _).bind fun x => ?_
      exact Keeps.bind (fun _ hs => hs) fun p => modifyIterator_moved _
    | previous =>
      refine hcheck.bind fun _ => Keeps.bind (fun _ hs => hs) fun it => ?_
      refine (getPreviousElementHeader_moved hs₀ _ _ _).bind fun x => ?_
      refine Keeps.bind (fun _ hs => hs) fun p => (Keeps.failIf _ _ _).bind fun _ => ?_
      exact modifyIterator_moved _
    | readElement =>
      refine Keeps.bind ?_ fun _ => Keeps.pure _ _
      refine hcheck.bind fun _ => Keeps.bind (fun _ hs => hs) fun p => ?_
      refine Keeps.bind (fun _ hs => hs) fun it => ?_
      refine ((storageRead_keeps _ _ _).orFail _).bind fun data => ?_
      exact (Keeps.failIf _ _ _).bind fun _ => Keeps.pure _ _
  exact hkeeps s₀ (Moved.refl pid s₀)

theorem iterate_keeps (hs₀ : Sync s₀ pid) (c : IteratorCall) :
    Keeps (Moved pid s₀) (iterate pid c) := fun _ hs =>
  hs.trans (iterate_moved (hs.sync hs₀) c)

/-! ## Runs -/

/-- The runs of an application from the state `s₁` after its first start. `log` has the
elements stored in the partition `pid` since it was cleared, the latest first. A store that
is refused changes nothing but the iterator; a restart keeps the storage, and an iterator at
most. -/
inductive Used (rs : List Registration) (pids : List Nat) (pid : Nat) (s₁ : State D) :
    List Element → State D → Prop
  | start : Used rs pids pid s₁ [] s₁
  | store {log : List Element} {s t : State D} (elementData : Nat → UInt8) (elementLen : UInt16) :
      Used rs pids pid s₁ log s →
      storeElement pid elementData elementLen.toNat s = (.ok (), t) →
      Used rs pids pid s₁ ((storedData pid (s.part pid) elementData elementLen.toNat,
        (storedAt pid (s.part pid) elementLen.toNat).recordId) :: log) t
  | clear {log : List Element} {s t : State D} :
      Used rs pids pid s₁ log s → clearPartition pid s = (.ok (), t) → Used rs pids pid s₁ [] t
  | storeOther {log : List Element} {s t : State D} {pid' : Nat} (elementData : Nat → UInt8)
      (elementLen : UInt16) :
      Used rs pids pid s₁ log s → pid' ∈ pids → pid' ≠ pid →
      storeElement pid' elementData elementLen.toNat s = (.ok (), t) → Used rs pids pid s₁ log t
  | clearOther {log : List Element} {s t : State D} {pid' : Nat} :
      Used rs pids pid s₁ log s → pid' ∈ pids → pid' ≠ pid →
      clearPartition pid' s = (.ok (), t) → Used rs pids pid s₁ log t
  | refused {log : List Element} {s t : State D} {pid' : Nat} {code : RetCode}
      (elementData : Nat → UInt8) (elementLen : UInt16) :
      Used rs pids pid s₁ log s → pid' ∈ pids →
      storeElement pid' elementData elementLen.toNat s = (.error code, t) →
      SameButIter pid' s t → Used rs pids pid s₁ log t
  | iterate {log : List Element} {s : State D} {pid' : Nat} (c : IteratorCall) :
      Used rs pids pid s₁ log s → pid' ∈ pids → Used rs pids pid s₁ log (iterate pid' c s).2
  | restart {log : List Element} {s s' t : State D} :
      Used rs pids pid s₁ log s → s'.dev = s.dev →
      (∀ j, s'.partitionIterators j = s.partitionIterators j ∨
        (s'.partitionIterators j).iteratorValid ≠ iteratorValidNumber) →
      boot rs s' = (.ok pids, t) → Used rs pids pid s₁ log t

theorem Intact.of_same {rs : List Registration} (h : Intact rs s) (hdev : t.dev = s.dev)
    (hparts : t.partitions = s.partitions) : Intact rs t := by
  intro e he
  unfold State.bytes State.part
  rw [hdev, hparts]
  exact h e he

/-- In storage with byte units all partitions stay sound. -/
theorem Used.intact {rs : List Registration} {pids : List Nat} {s₁ : State D}
    {log : List Element} (hD : D.ByteUnits) (hsize : swapPageSize ≤ D.size)
    (hreg : AllRegistrable D 0 (firstFree D) rs) (hpids : pids = (layout D rs).map Extent.pid)
    (hpid : pid ∈ pids) (h₁ : Intact rs s₁) (h : Used rs pids pid s₁ log s) : Intact rs s := by
  subst hpids
  have hstore : ∀ {s t : State D} {pid' : Nat} {elementData : Nat → UInt8} {elementLen : UInt16},
      Intact rs s → pid' ∈ (layout D rs).map Extent.pid →
      storeElement pid' elementData elementLen.toNat s = (.ok (), t) → Intact rs t := by
    intro s t pid' elementData elementLen hs hpid' hstore
    obtain ⟨e, he, rfl⟩ := List.mem_map.mp hpid'
    exact forall_of_local hreg Sound.frame hs he ((hs e he).store hD elementLen.toNat_lt hstore)
  have hclear : ∀ {s t : State D} {pid' : Nat}, Intact rs s →
      pid' ∈ (layout D rs).map Extent.pid → clearPartition pid' s = (.ok (), t) →
      Intact rs t := by
    intro s t pid' hs hpid' hclear
    obtain ⟨e, he, rfl⟩ := List.mem_map.mp hpid'
    exact forall_of_local hreg Sound.frame hs he ((hs e he).clear hclear)
  induction h with
  | start => exact h₁
  | store _ _ _ hcall ih => exact hstore ih hpid hcall
  | clear _ hcall ih => exact hclear ih hpid hcall
  | storeOther _ _ _ hpid' _ hcall ih => exact hstore ih hpid' hcall
  | clearOther _ hpid' _ hcall ih => exact hclear ih hpid' hcall
  | refused _ _ _ _ _ hsame ih =>
    have hmoved := Moved.of_sameButIter hsame
    exact ih.of_same hmoved.dev hmoved.parts
  | iterate c _ hpid' ih =>
    obtain ⟨e, he, rfl⟩ := List.mem_map.mp hpid'
    have hmoved := iterate_moved (ih e he).known.sync c
    exact ih.of_same hmoved.dev hmoved.parts
  | restart _ hdev _ hboot ih =>
    obtain ⟨t, ht, hintact, -⟩ := ih.restart hsize hreg hdev
    rw [ht] at hboot
    cases hboot
    exact hintact

end OpenBadge.Filesystem
