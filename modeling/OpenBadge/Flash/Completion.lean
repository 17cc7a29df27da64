import OpenBadge.Lib.Run
import OpenBadge.RetCode
import Mathlib.Logic.Function.Basic

/-!
# flash_lib.c: the operations and their completion

`flash_erase` and `flash_store` start an operation of fstorage and wait until its event
has cleared their flag. An event does not say which operation it belongs to: the one of
an operation that was given up after the timeout clears the flag of a later call.
-/

namespace OpenBadge.Flash

open OpenBadge.Lib

inductive Kind where
  | store
  | erase
  deriving DecidableEq, Repr

/-- `flash_operation`: `FLASH_STORE_OPERATION` and `FLASH_ERASE_OPERATION` in `operation`,
`FLASH_STORE_ERROR` and `FLASH_ERASE_ERROR` in `error`. -/
structure FlashOperation where
  operation : Kind → Bool
  error : Kind → Bool

/-- `FLASH_NO_OPERATION` -/
def noOperation : FlashOperation := ⟨fun _ => false, fun _ => false⟩

/-- `fs_ret_t` -/
inductive FsRet where
  | success
  | queueFull
  | notInitialized
  | invalidCfg
  | nullArg
  | invalidArg
  | invalidAddr
  | unalignedAddr
  deriving DecidableEq, Repr

namespace FlashOperation

def setOperation (f : FlashOperation) (k : Kind) (value : Bool) : FlashOperation :=
  { f with operation := Function.update f.operation k value }

def setError (f : FlashOperation) (k : Kind) (value : Bool) : FlashOperation :=
  { f with error := Function.update f.error k value }

/-- `fs_evt_handler` on the flags of one kind. -/
def complete (k : Kind) (result : FsRet) (f : FlashOperation) : FlashOperation :=
  if f.operation k then
    if result = .success then f.setOperation k false
    else (f.setOperation k false).setError k true
  else f

end FlashOperation

def fsEvtHandler (result : FsRet) (f : FlashOperation) : FlashOperation :=
  (f.complete .erase result).complete .store result

/-- The arguments of `flash_erase` and `flash_store`; `none` is a null pointer. -/
inductive Request where
  | erase (pageNum : UInt32) (numPages : UInt16)
  | store (wordNum : UInt32) (pWords : Option (List UInt32))
  deriving DecidableEq, Repr

def Request.kind : Request → Kind
  | .erase _ _ => .erase
  | .store _ _ => .store

/-- The code for an operation that fstorage has not accepted. -/
def startError : FsRet → RetCode
  | .queueFull => .busy
  | .notInitialized | .invalidCfg => .internal
  | _ => .invalidParam

/-- Where the blocking call stands. From `waiting` on it has started an operation. -/
inductive Call where
  | idle
  | checking (r : Request)
  | setting (r : Request)
  | resetting (r : Request)
  | starting (r : Request)
  | refused (r : Request) (code : RetCode)
  | waiting (r : Request) (i : Nat)
  | testing (r : Request) (i : Nat)
  | clearing (r : Request) (i : Nat)
  | testingError (r : Request) (i : Nat)
  deriving DecidableEq, Repr

/-- The library with the operations that fstorage has accepted, the events that have
arrived for them, and the calls that have returned, each with its operation. -/
structure Observed where
  flashOperation : FlashOperation
  call : Call
  operations : List Request
  events : Nat → Option FsRet
  returned : List (Option Nat × Except RetCode Unit)

namespace Observed

def init : Observed := ⟨noOperation, .idle, [], fun _ => none, []⟩

/-- The call in progress returns. -/
def finish (o : Observed) (i : Option Nat) (result : Except RetCode Unit) : Observed :=
  { o with call := .idle, returned := o.returned ++ [(i, result)] }

/-- The next access of the call to `flash_operation`, or its call of `fs_erase` or
`fs_store`, which returns `fs`. `inTime` says whether the wait may go on. -/
def proceed (o : Observed) (fs : FsRet) (inTime : Bool) : Observed :=
  match o.call with
  | .idle => o
  | .checking r =>
    if o.flashOperation.operation .store || o.flashOperation.operation .erase then
      o.finish none (.error .busy)
    else
      match r with
      | .store _ none => o.finish none (.error .invalidParam)
      | _ => { o with call := .setting r }
  | .setting r =>
    { o with flashOperation := o.flashOperation.setOperation r.kind true, call := .resetting r }
  | .resetting r =>
    { o with flashOperation := o.flashOperation.setError r.kind false, call := .starting r }
  | .starting r =>
    if fs = .success then
      { o with call := .waiting r o.operations.length, operations := o.operations ++ [r] }
    else { o with call := .refused r (startError fs) }
  | .refused r code =>
    { o with flashOperation := o.flashOperation.setOperation r.kind false }.finish none
      (.error code)
  | .waiting r i =>
    if o.flashOperation.operation r.kind && inTime then o else { o with call := .testing r i }
  | .testing r i =>
    { o with call := if o.flashOperation.operation r.kind then .clearing r i
                     else .testingError r i }
  | .clearing r i =>
    { o with flashOperation := o.flashOperation.setOperation r.kind false }.finish (some i)
      (.error .timeout)
  | .testingError r i =>
    o.finish (some i) (if o.flashOperation.error r.kind then .error .timeout else .ok ())

end Observed

/-- `call` begins a `flash_erase` or `flash_store`, `proceed` takes its next step, and
`event` is the interrupt that reports the end of operation `i`. -/
inductive Action where
  | call (r : Request)
  | proceed (fs : FsRet) (inTime : Bool)
  | event (i : Nat) (result : FsRet)

/-- Operation `i` has been accepted, and its only event has not arrived. -/
def Observed.Outstanding (o : Observed) (i : Nat) : Prop :=
  i < o.operations.length ∧ o.events i = none

instance (o : Observed) (i : Nat) : Decidable (o.Outstanding i) :=
  inferInstanceAs (Decidable (_ ∧ _))

def Observed.step (o : Observed) : Action → Observed
  | .call r => if o.call = .idle then { o with call := .checking r } else o
  | .proceed fs inTime => o.proceed fs inTime
  | .event i result =>
    if o.Outstanding i then
      { o with
        flashOperation := fsEvtHandler result o.flashOperation
        events := Function.update o.events i (some result) }
    else o

/-- Every call that has returned `NRF_SUCCESS` has started an operation, and the event of
that operation has arrived and reported `FS_SUCCESS`. -/
def Observed.SuccessMeansDone (o : Observed) : Prop :=
  ∀ i, (i, .ok ()) ∈ o.returned → ∃ j, i = some j ∧ o.events j = some .success

/-- What an event may report that clears the flag of a call: the end of the operation of
that call, or an error that the call will still see. -/
def Call.Allows (i : Nat) (result : FsRet) : Call → Prop
  | .resetting _ => False
  | .starting _ => result ≠ .success
  | .waiting _ j | .testing _ j => i = j ∨ result ≠ .success
  | _ => True

instance Call.decidableAllows (i : Nat) (result : FsRet) : DecidablePred (Call.Allows i result)
  | .resetting _ => inferInstanceAs (Decidable False)
  | .starting _ => inferInstanceAs (Decidable (result ≠ .success))
  | .waiting _ j | .testing _ j => inferInstanceAs (Decidable (i = j ∨ result ≠ .success))
  | .idle | .checking _ | .setting _ | .refused _ _ | .clearing _ _ | .testingError _ _ =>
    inferInstanceAs (Decidable True)

/-- An event that meets the flag of a call is one that the call allows. -/
def MeetsItsCall (o : Observed) : Action → Prop
  | .event i result =>
    o.Outstanding i →
      o.flashOperation.operation .store = true ∨ o.flashOperation.operation .erase = true →
      o.call.Allows i result
  | _ => True

instance decidableMeetsItsCall (o : Observed) : (a : Action) → Decidable (MeetsItsCall o a)
  | .event i result =>
    inferInstanceAs (Decidable (o.Outstanding i →
      o.flashOperation.operation .store = true ∨ o.flashOperation.operation .erase = true →
      o.call.Allows i result))
  | .call _ | .proceed _ _ => inferInstanceAs (Decidable True)

/-- The flags a call may find set are its own. -/
def Call.Holds (k : Kind) : Call → Prop
  | .resetting r | .starting r | .refused r _ | .waiting r _ | .testing r _ | .clearing r _ =>
    r.kind = k
  | _ => False

/-- Without its flag and without an error, the operation of the call is done. -/
def Observed.Backed (o : Observed) : Prop :=
  match o.call with
  | .resetting r => o.flashOperation.operation r.kind = true
  | .starting r =>
    o.flashOperation.operation r.kind = true ∨ o.flashOperation.error r.kind = true
  | .waiting r i | .testing r i =>
    o.flashOperation.operation r.kind = true ∨ o.flashOperation.error r.kind = true ∨
      o.events i = some .success
  | .testingError r i => o.flashOperation.error r.kind = true ∨ o.events i = some .success
  | _ => True

/-- What holds between the steps. -/
structure Tracked (o : Observed) : Prop where
  returned : o.SuccessMeansDone
  holds : ∀ k, o.flashOperation.operation k = true → o.call.Holds k
  backed : o.Backed

/-! ## The handler -/

@[simp] theorem complete_operation_self (k : Kind) (result : FsRet) (f : FlashOperation) :
    (f.complete k result).operation k = false := by
  cases hk : f.operation k <;> by_cases hr : result = .success <;>
    simp [FlashOperation.complete, FlashOperation.setOperation, FlashOperation.setError, hk, hr]

theorem complete_operation_ne {j k : Kind} (h : j ≠ k) (result : FsRet) (f : FlashOperation) :
    (f.complete k result).operation j = f.operation j := by
  cases hk : f.operation k <;> by_cases hr : result = .success <;>
    simp [FlashOperation.complete, FlashOperation.setOperation, FlashOperation.setError, hk, hr, h]

theorem complete_error_ne {j k : Kind} (h : j ≠ k) (result : FsRet) (f : FlashOperation) :
    (f.complete k result).error j = f.error j := by
  cases hk : f.operation k <;> by_cases hr : result = .success <;>
    simp [FlashOperation.complete, FlashOperation.setOperation, FlashOperation.setError, hk, hr, h]

theorem complete_error_self (k : Kind) (result : FsRet) (f : FlashOperation) :
    (f.complete k result).error k = (f.error k || (f.operation k && result ≠ .success)) := by
  cases hk : f.operation k <;> by_cases hr : result = .success <;>
    simp [FlashOperation.complete, FlashOperation.setOperation, FlashOperation.setError, hk, hr]

/-- After an event no operation is marked as ongoing. -/
@[simp] theorem fsEvtHandler_operation (k : Kind) (result : FsRet) (f : FlashOperation) :
    (fsEvtHandler result f).operation k = false := by
  cases k with
  | store => exact complete_operation_self _ _ _
  | erase =>
    rw [fsEvtHandler, complete_operation_ne (by decide)]
    exact complete_operation_self _ _ _

/-- A failed event marks the kinds that were ongoing. -/
theorem fsEvtHandler_error (k : Kind) (result : FsRet) (f : FlashOperation) :
    (fsEvtHandler result f).error k =
      (f.error k || (f.operation k && result ≠ .success)) := by
  cases k with
  | store =>
    rw [fsEvtHandler, complete_error_self, complete_error_ne (by decide),
      complete_operation_ne (by decide)]
  | erase => rw [fsEvtHandler, complete_error_ne (by decide), complete_error_self]

/-! ## The steps -/

variable {o : Observed}

/-- A call that returns an error. -/
theorem Tracked.finish_error (h : Tracked o) (hclear : ∀ k, o.flashOperation.operation k = false)
    (i : Option Nat) (code : RetCode) : Tracked (o.finish i (.error code)) where
  returned j hj := by
    rcases List.mem_append.mp hj with hj | hj
    · exact h.returned j hj
    · simp at hj
  holds k hk := by
    have hk : o.flashOperation.operation k = true := hk
    rw [hclear k] at hk
    exact nomatch hk
  backed := trivial

/-- The call clears its flag, the only one that may be set, and returns an error. -/
theorem Tracked.give_up (h : Tracked o) {k : Kind} (hcall : ∀ j, o.call.Holds j → k = j)
    (i : Option Nat) (code : RetCode) :
    Tracked ({ o with flashOperation := o.flashOperation.setOperation k false }.finish i
      (.error code)) := by
  have hclear : ∀ j, (o.flashOperation.setOperation k false).operation j = false := by
    intro j
    by_cases hj : j = k
    · rw [hj]
      exact Function.update_self _ _ _
    · have hne : (o.flashOperation.setOperation k false).operation j =
          o.flashOperation.operation j := Function.update_of_ne hj _ _
      rw [hne, Bool.eq_false_iff]
      intro hset
      exact hj (hcall j (h.holds j hset)).symm
  have hdone : Tracked { o with
      flashOperation := o.flashOperation.setOperation k false
      call := .idle } :=
    ⟨h.returned, fun j hj => by simp [hclear j] at hj, trivial⟩
  exact hdone.finish_error hclear i code

theorem Tracked.proceed (h : Tracked o) (fs : FsRet) (inTime : Bool) :
    Tracked (o.proceed fs inTime) := by
  have hbacked := h.backed
  have hholds := h.holds
  unfold Observed.proceed
  split
  · exact h
  · rename_i r hcall
    rw [hcall] at hholds
    have hclear : ∀ k, o.flashOperation.operation k = false := fun k =>
      Bool.eq_false_iff.mpr (hholds k)
    split
    · exact h.finish_error hclear none .busy
    · split
      · exact h.finish_error hclear none .invalidParam
      · exact ⟨h.returned, fun k hk => hholds k hk, trivial⟩
  · rename_i r hcall
    rw [hcall] at hholds
    refine ⟨h.returned, fun k hk => ?_, Function.update_self _ _ _⟩
    by_cases hk' : k = r.kind
    · exact hk'.symm
    · have hne : (o.flashOperation.setOperation r.kind true).operation k =
          o.flashOperation.operation k := Function.update_of_ne hk' _ _
      rw [hne] at hk
      exact absurd (hholds k hk) id
  · rename_i r hcall
    rw [Observed.Backed, hcall] at hbacked
    rw [hcall] at hholds
    exact ⟨h.returned, hholds, Or.inl hbacked⟩
  · rename_i r hcall
    rw [Observed.Backed, hcall] at hbacked
    rw [hcall] at hholds
    split
    · refine ⟨h.returned, hholds, ?_⟩
      rcases hbacked with hset | herr
      · exact Or.inl hset
      · exact Or.inr (Or.inl herr)
    · exact ⟨h.returned, hholds, trivial⟩
  · rename_i r code hcall
    exact h.give_up (by rw [hcall]; exact fun _ hj => hj) none code
  · rename_i r i hcall
    rw [Observed.Backed, hcall] at hbacked
    rw [hcall] at hholds
    split
    · exact h
    · exact ⟨h.returned, hholds, hbacked⟩
  · rename_i r i hcall
    rw [Observed.Backed, hcall] at hbacked
    rw [hcall] at hholds
    cases hset : o.flashOperation.operation r.kind with
    | true => exact ⟨h.returned, hholds, trivial⟩
    | false =>
      refine ⟨h.returned, fun k hk => ?_, ?_⟩
      · have hkind : r.kind = k := hholds k hk
        rw [← hkind, hset] at hk
        exact nomatch hk
      · have hopen : o.flashOperation.operation r.kind = true ∨
            o.flashOperation.error r.kind = true ∨ o.events i = some .success := hbacked
        exact hopen.resolve_left (by rw [hset]; decide)
  · rename_i r i hcall
    exact h.give_up (by rw [hcall]; exact fun _ hj => hj) (some i) .timeout
  · rename_i r i hcall
    rw [Observed.Backed, hcall] at hbacked
    rw [hcall] at hholds
    have hclear : ∀ k, o.flashOperation.operation k = false := fun k =>
      Bool.eq_false_iff.mpr (hholds k)
    split
    · exact h.finish_error hclear (some i) .timeout
    · rename_i herr
      refine ⟨fun j hj => ?_, hholds, trivial⟩
      rcases List.mem_append.mp hj with hj | hj
      · exact h.returned j hj
      · rw [List.mem_singleton, Prod.mk.injEq] at hj
        exact ⟨i, hj.1, hbacked.resolve_left herr⟩

/-- What an event has reported stays reported. -/
theorem events_event {i j : Nat} {result reported : FsRet} (hout : o.Outstanding i)
    (hj : o.events j = some reported) :
    Function.update o.events i (some result) j = some reported := by
  have hne : j ≠ i := by
    intro heq
    rw [heq, hout.2] at hj
    exact nomatch hj
  rw [Function.update_of_ne hne]
  exact hj

/-- A flag that an event clears with an error is replaced by its error bit. -/
theorem error_of_operation {r : Request} {result : FsRet} (hresult : result ≠ .success)
    (h : o.flashOperation.operation r.kind = true ∨ o.flashOperation.error r.kind = true) :
    (fsEvtHandler result o.flashOperation).error r.kind = true := by
  rw [fsEvtHandler_error]
  rcases h with h | h <;> simp [h, hresult]

theorem error_of_error {r : Request} (result : FsRet)
    (h : o.flashOperation.error r.kind = true) :
    (fsEvtHandler result o.flashOperation).error r.kind = true := by
  rw [fsEvtHandler_error, h]
  rfl

/-- One of the two flags is set when that of a kind is. -/
theorem operation_set {k : Kind} (h : o.flashOperation.operation k = true) :
    o.flashOperation.operation .store = true ∨ o.flashOperation.operation .erase = true := by
  cases k with
  | store => exact Or.inl h
  | erase => exact Or.inr h

/-- An event that meets a call in its wait: its own, or one that leaves an error. -/
theorem backed_event {i j : Nat} {r : Request} {result : FsRet} (hout : o.Outstanding i)
    (hopen : o.flashOperation.operation .store = true ∨
      o.flashOperation.operation .erase = true → i = j ∨ result ≠ .success)
    (h : o.flashOperation.operation r.kind = true ∨ o.flashOperation.error r.kind = true ∨
      o.events j = some .success) :
    (fsEvtHandler result o.flashOperation).error r.kind = true ∨
      Function.update o.events i (some result) j = some .success := by
  rcases h with hset | herr | hdone
  · by_cases hresult : result = .success
    · rcases hopen (operation_set hset) with rfl | hne
      · exact Or.inr (by rw [Function.update_self, hresult])
      · exact absurd hresult hne
    · exact Or.inl (error_of_operation hresult (Or.inl hset))
  · exact Or.inl (error_of_error result herr)
  · exact Or.inr (events_event hout hdone)

theorem Tracked.event (h : Tracked o) {i : Nat} {result : FsRet}
    (hmeets : MeetsItsCall o (.event i result)) : Tracked (o.step (.event i result)) := by
  unfold Observed.step
  dsimp only
  split
  · rename_i hout
    refine ⟨fun j hj => ?_, fun k hk => by simp at hk, ?_⟩
    · obtain ⟨k, hk, hdone⟩ := h.returned j hj
      exact ⟨k, hk, events_event hout hdone⟩
    · have hbacked := h.backed
      have hopen := hmeets hout
      unfold Observed.Backed at hbacked ⊢
      dsimp only
      cases hcall : o.call with
      | resetting r =>
        rw [hcall] at hbacked hopen
        exact (hopen (operation_set hbacked)).elim
      | starting r =>
        rw [hcall] at hbacked hopen
        refine Or.inr ?_
        rcases hbacked with hset | herr
        · exact error_of_operation (hopen (operation_set hset)) (Or.inl hset)
        · exact error_of_error result herr
      | waiting r j =>
        rw [hcall] at hbacked hopen
        exact Or.inr (backed_event hout hopen hbacked)
      | testing r j =>
        rw [hcall] at hbacked hopen
        exact Or.inr (backed_event hout hopen hbacked)
      | testingError r j =>
        rw [hcall] at hbacked
        rcases hbacked with herr | hdone
        · exact Or.inl (error_of_error result herr)
        · exact Or.inr (events_event hout hdone)
      | _ => trivial
  · exact h

theorem Tracked.step (h : Tracked o) (a : Action) (hmeets : MeetsItsCall o a) :
    Tracked (o.step a) := by
  cases a with
  | call r =>
    unfold Observed.step
    dsimp only
    split
    · rename_i hidle
      have hholds := h.holds
      rw [hidle] at hholds
      exact ⟨h.returned, fun k hk => hholds k hk, trivial⟩
    · exact h
  | proceed fs inTime => exact h.proceed fs inTime
  | event i result => exact h.event hmeets

theorem tracked_init : Tracked Observed.init where
  returned _ hj := nomatch hj
  holds _ hk := nomatch hk
  backed := trivial

/-- Where every event that meets the flag of an open call is its own, or reports an error
that the call will see, success means that the operation is done. -/
theorem flash_success_means_done (as : List Action)
    (h : Along Observed.step MeetsItsCall Observed.init as) :
    (run Observed.step Observed.init as).SuccessMeansDone :=
  (run_invariant (fun _ a ht hmeets => ht.step a hmeets) tracked_init h).returned

/-- An erase that times out, its late event while no call is in progress, and a store that
is done. -/
theorem flash_success_means_done_of_late_event :
    let as : List Action := [.call (.erase 0 1), .proceed .success true, .proceed .success true,
      .proceed .success true, .proceed .success true, .proceed .success false,
      .proceed .success true, .proceed .success true, .event 0 .success,
      .call (.store 0 (some [1])), .proceed .success true, .proceed .success true,
      .proceed .success true, .proceed .success true, .event 1 .success,
      .proceed .success true, .proceed .success true, .proceed .success true]
    let o := run Observed.step Observed.init as
    o.returned = [(some 0, .error .timeout), (some 1, .ok ())] ∧ o.SuccessMeansDone := by
  intro as o
  exact ⟨by rfl, flash_success_means_done as (by decide +kernel)⟩

/-- Any other successful event that meets the flag of a waiting call ends it with
`NRF_SUCCESS`, its own operation still running. -/
theorem not_done_of_late_success {r : Request} {i j : Nat} (hcall : o.call = .waiting r j)
    (herr : o.flashOperation.error r.kind = false) (hj : o.events j = none)
    (hi : o.Outstanding i) (hne : j ≠ i) (fs : FsRet) (inTime : Bool) :
    ¬ (run Observed.step o [.event i .success, .proceed fs inTime, .proceed fs inTime,
      .proceed fs inTime]).SuccessMeansDone := by
  have herror : (fsEvtHandler .success o.flashOperation).error r.kind = false := by
    rw [fsEvtHandler_error, herr]
    simp
  have hrun : run Observed.step o [.event i .success, .proceed fs inTime, .proceed fs inTime,
      .proceed fs inTime] = { o with
        flashOperation := fsEvtHandler .success o.flashOperation
        call := .idle
        events := Function.update o.events i (some .success)
        returned := o.returned ++ [(some j, .ok ())] } := by
    simp [Observed.step, Observed.proceed, Observed.finish, hi, hcall, herror]
  rw [hrun]
  intro h
  obtain ⟨k, hk, hdone⟩ := h (some j) (List.mem_append_right _ (List.mem_singleton_self _))
  rw [← Option.some.inj hk] at hdone
  have hdone : Function.update o.events i (some .success) j = some .success := hdone
  rw [Function.update_of_ne hne, hj] at hdone
  exact nomatch hdone

/-- An erase times out, and its event arrives while the store that follows is waiting: the
store returns `NRF_SUCCESS` with its operation still running. -/
theorem late_event_ends_another_call :
    let as : List Action := [.call (.erase 0 1), .proceed .success true, .proceed .success true,
      .proceed .success true, .proceed .success true, .proceed .success false,
      .proceed .success true, .proceed .success true,
      .call (.store 0 (some [1])), .proceed .success true, .proceed .success true,
      .proceed .success true, .proceed .success true, .event 0 .success,
      .proceed .success true, .proceed .success true, .proceed .success true]
    let o := run Observed.step Observed.init as
    (some 1, .ok ()) ∈ o.returned ∧ o.Outstanding 1 ∧ ¬ o.SuccessMeansDone := by
  intro as o
  have hreturned : (some 1, .ok ()) ∈ o.returned := List.mem_cons_of_mem _ (List.mem_cons_self ..)
  have hevent : o.events 1 = none := rfl
  refine ⟨hreturned, ⟨by decide, hevent⟩, fun h => ?_⟩
  obtain ⟨j, hj, hdone⟩ := h (some 1) hreturned
  rw [← Option.some.inj hj, hevent] at hdone
  exact nomatch hdone

end OpenBadge.Flash
