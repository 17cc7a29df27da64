import OpenBadge.Filesystem.Store

/-!
# Lengths that a store refuses

`filesystem_store_element` has one reason for `NRF_ERROR_INVALID_PARAM`: the length is not
that of the elements of a static partition. Whatever goes wrong behind that check, the
library reports with other codes.
-/

namespace OpenBadge.Filesystem

open OpenBadge.Lib OpenBadge.Storage
open Proc (Spares)

variable {D : Device} {s : State D}

/-! ## Functions that never report an invalid parameter -/

theorem getPartition_spares (pid : Nat) :
    Spares .invalidParam (getPartition (D := D) pid) := fun _ => nofun

theorem readElementHeader_spares (pid address : Nat) :
    Spares .invalidParam (readElementHeader (D := D) pid address) := by
  have hfirst : ∀ a, Spares .invalidParam (readFirstHeader (D := D) pid a) := fun a =>
    (Spares.orFail (by decide) _).bind fun _ => (Spares.orFail (by decide) _).bind fun _ =>
      Spares.pure _ _
  have haccept : ∀ tmp, Spares .invalidParam (acceptFirstHeader (D := D) pid tmp) :=
    fun _ _ => nofun
  refine (getPartition_spares pid).bind fun p => ?_
  split
  · refine (hfirst address).bind fun tmp => ?_
    split
    · exact (Spares.failIf (by decide) _).bind fun _ => haccept tmp
    · refine (hfirst _).bind fun tmp => (getPartition_spares pid).bind fun p => ?_
      refine (Spares.failIf (by decide) _).bind fun _ => ?_
      refine (Spares.failIf (by decide) _).bind fun _ => ?_
      refine (Spares.orFail (by decide) _).bind fun _ => ?_
      refine (Spares.orFail (by decide) _).bind fun _ => ?_
      exact (Spares.failIf (by decide) _).bind fun _ => haccept tmp
  · exact (Spares.orFail (by decide) _).bind fun _ => Spares.pure _ _

theorem getNextElementHeader_spares (pid a recordId len : Nat) :
    Spares .invalidParam (getNextElementHeader (D := D) pid a recordId len) := by
  refine (getPartition_spares pid).bind fun p => ?_
  refine (readElementHeader_spares pid _).bind fun h => (getPartition_spares pid).bind fun p' => ?_
  split
  · exact Spares.pure _ _
  · refine (getPartition_spares pid).bind fun p => (readElementHeader_spares pid _).bind fun h => ?_
    exact (Spares.failIf (by decide) _).bind fun _ => Spares.pure _ _

theorem clearStaleNext_spares (pid : Nat) (pl : Placement) (len : Nat) :
    Spares .invalidParam (clearStaleNext (D := D) pid pl len) := by
  refine (getNextElementHeader_spares pid _ _ _).attempt_bind fun ret hret => ?_
  split
  · exact Spares.when fun _ => Spares.orFail (by decide) _
  · exact Spares.pure _ _
  · next e _ => exact Spares.fail fun he => hret (by rw [he])

theorem backupIfFirstUnit_spares (pid a len : Nat) :
    Spares .invalidParam (backupIfFirstUnit (D := D) pid a len) := by
  refine (Spares.orFail (by decide) _).bind fun limits => (getPartition_spares pid).bind fun p => ?_
  exact Spares.when fun _ => Spares.orFail (by decide) _

theorem writeElement_spares (pid a : Nat) (h : ElementHeader) (data : List UInt8) :
    Spares .invalidParam (writeElement (D := D) pid a h data) := by
  refine (getPartition_spares pid).bind fun p => (Spares.orFail (by decide) _).bind fun _ => ?_
  refine (Spares.orFail (by decide) _).bind fun _ => ?_
  exact (Spares.failIf (by decide) _).bind fun _ => Spares.orFail (by decide) _

theorem storeLookups_spares (pid : Nat) (pl : Placement) (len : Nat) :
    Spares .invalidParam (storeLookups (D := D) pid pl len) :=
  (Spares.orFail (by decide) _).bind fun _ => clearStaleNext_spares _ _ _

theorem storeWrites_spares (pid start : Nat) (pl : Placement) (len : Nat) (data : List UInt8) :
    Spares .invalidParam (storeWrites (D := D) pid start pl len data) := by
  have hmodify : ∀ f, Spares .invalidParam (modifyPartition (D := D) pid f) := fun _ _ => nofun
  refine Spares.bind (Spares.when fun _ => hmodify _) fun _ => ?_
  refine (backupIfFirstUnit_spares _ _ _).bind fun _ => ?_
  exact (writeElement_spares _ _ _ _).bind fun _ => hmodify _

/-! ## The check of the length -/

/-- A store reports an invalid parameter for the wrong length in a static partition, and for
nothing else. -/
theorem storeElement_invalidParam_iff (pid : Nat) (elementData : Nat → UInt8) (elementLen : Nat) :
    (storeElement pid elementData elementLen s).1 = .error .invalidParam ↔
      isDynamic pid = false ∧ elementLen ≠ 0 ∧
        elementLen ≠ (s.part pid).metadata.firstElementLen := by
  rw [storeElement_eq]
  by_cases hlen : isDynamic pid = false ∧ elementLen ≠ 0 ∧
      elementLen ≠ (s.part pid).metadata.firstElementLen
  · rw [if_pos hlen]
    exact ⟨fun _ => hlen, fun _ => rfl⟩
  · rw [if_neg hlen]
    refine iff_of_false ?_ hlen
    by_cases hfit : Accepted pid (s.part pid) elementLen
    · rw [if_pos hfit]
      exact (storeLookups_spares _ _ _).bind (fun _ => storeWrites_spares _ _ _ _ _) s
    · rw [if_neg hfit]
      exact nofun

end OpenBadge.Filesystem
