import OpenBadge.Storage.Device

/-!
# storage_lib.c

A request for a range of the storage is split into one piece for each storage
module. The loops of the library carry the address reached, the length left and the
sizes cumulated so far in `uint32_t` variables.
-/

namespace OpenBadge.StorageLib

open OpenBadge.Lib OpenBadge.Storage

/-- `splitted_address[i]`, `splitted_data[i]` and `splitted_length_data[i]`. A pointer is
the offset from the beginning of the caller's buffer. -/
structure Piece where
  address : Nat
  data : Option Nat
  length : Nat
  deriving DecidableEq, Repr

/-- What a module gets that the request does not touch. -/
def Piece.empty : Piece := { address := 0, data := none, length := 0 }

/-- The loop of `storage_split_to_storage_modules` over the modules that are left. -/
def splitLoop (address : Nat) (data : Option Nat) : List Nat → Nat → Nat → Nat → List Piece
  | [], _, _, _ => []
  | size :: sizes, tmpAddress, tmpLength, cumulated =>
    let stop := (cumulated + size) % 2 ^ 32
    if cumulated ≤ tmpAddress ∧ tmpAddress < stop ∧ 0 < tmpLength then
      let length :=
        if (tmpAddress + tmpLength) % 2 ^ 32 ≤ stop then tmpLength else stop - tmpAddress
      { address := tmpAddress - cumulated, data := data.map (· + (tmpAddress - address)), length } ::
        splitLoop address data sizes ((tmpAddress + length) % 2 ^ 32) (tmpLength - length) stop
    else Piece.empty :: splitLoop address data sizes tmpAddress tmpLength stop

/-- `storage_split_to_storage_modules`; `data` is `none` for `NULL`. -/
def storageSplitToStorageModules (address : Nat) (data : Option Nat) (length : Nat)
    (sizes : List Nat) : List Piece :=
  splitLoop address data sizes address length 0

/-- One column of the tables of storage functions. -/
structure StorageFunctions (σ : Type) where
  size : Nat
  store : Nat → List UInt8 → Proc σ RetCode Unit
  read : Nat → Nat → Proc σ RetCode (List UInt8)
  clear : Nat → Nat → Proc σ RetCode Unit

/-- `storage_sizes`. -/
def storageSizes {σ : Type} (ms : List (StorageFunctions σ)) : List Nat := ms.map (·.size)

/-- `storage_get_size`. -/
def storageGetSize {σ : Type} (ms : List (StorageFunctions σ)) : Nat :=
  (storageSizes ms).sum % 2 ^ 32

/-- The loop over the modules that serves the pieces of a request, with what it builds
up in `b`. -/
def forPieces {σ β : Type} (act : StorageFunctions σ → Piece → β → Proc σ RetCode β) :
    List (StorageFunctions σ) → List Piece → β → Proc σ RetCode β
  | m :: ms, p :: ps, b =>
    if p.length = 0 then forPieces act ms ps b
    else act m p b >>= forPieces act ms ps
  | _, _, b => pure b

variable {σ : Type}

/-- One pass of the loop of `storage_store`. -/
def storePiece (data : List UInt8) (m : StorageFunctions σ) (p : Piece) (_ : Unit) :
    Proc σ RetCode Unit :=
  match p.data with
  | none => pure ()
  | some pointer => m.store p.address ((data.drop pointer).take p.length)

/-- One pass of the loop of `storage_read`. -/
def readPiece (m : StorageFunctions σ) (p : Piece) (buffer : Nat → UInt8) :
    Proc σ RetCode (Nat → UInt8) :=
  match p.data with
  | none => pure buffer
  | some pointer => do
    let d ← m.read p.address p.length
    pure (overwrite buffer pointer d)

/-- One pass of the loop of `storage_clear`. -/
def clearPiece (m : StorageFunctions σ) (p : Piece) (_ : Unit) : Proc σ RetCode Unit :=
  m.clear p.address p.length

def storageStore (ms : List (StorageFunctions σ)) (address : Nat) (data : List UInt8) :
    Proc σ RetCode Unit := do
  Proc.failIf ((address + data.length) % 2 ^ 32 > storageGetSize ms) .invalidParam
  Proc.when (data.length ≠ 0) <|
    forPieces (storePiece data) ms
      (storageSplitToStorageModules address (some 0) data.length (storageSizes ms)) ()

/-- `storage_read` into a buffer. -/
def storageRead (ms : List (StorageFunctions σ)) (address length : Nat)
    (buffer : Nat → UInt8) : Proc σ RetCode (Nat → UInt8) := do
  Proc.failIf ((address + length) % 2 ^ 32 > storageGetSize ms) .invalidParam
  Proc.branch (length = 0) (pure buffer) <|
    forPieces readPiece ms
      (storageSplitToStorageModules address (some 0) length (storageSizes ms)) buffer

def storageClear (ms : List (StorageFunctions σ)) (address length : Nat) :
    Proc σ RetCode Unit := do
  Proc.failIf ((address + length) % 2 ^ 32 > storageGetSize ms) .invalidParam
  Proc.when (length ≠ 0) <|
    forPieces clearPiece ms
      (storageSplitToStorageModules address none length (storageSizes ms)) ()

/-- `storage_get_unit_address_limits`. -/
def storageGetUnitAddressLimits (modules : List StorageModule) (address length : Nat) :
    Except RetCode (Nat × Nat) :=
  if (address + length) % 2 ^ 32 > totalSize modules % 2 ^ 32 then .error .invalidParam
  else if length = 0 then .error .invalidParam
  else .ok (unitLimitsLoop modules 0 address ((address + length - 1) % 2 ^ 32) 0)

/-! ## The pieces of a request -/

/-- The piece of `[address, stop)` in a module at `[start, start + size)`. -/
def pieceIn (address stop : Nat) (data : Option Nat) (start size : Nat) : Piece :=
  if max address start < min stop (start + size) then
    { address := max address start - start
      data := data.map (· + (max address start - address))
      length := min stop (start + size) - max address start }
  else Piece.empty

/-- The pieces for modules that lie one behind the other from `start` on. -/
def pieces (address stop : Nat) (data : Option Nat) : List Nat → Nat → List Piece
  | [], _ => []
  | size :: sizes, start =>
    pieceIn address stop data start size :: pieces address stop data sizes (start + size)

/-- How far a request has been served when the modules in front of `start` are done. -/
def reached (address stop start : Nat) : Nat := max address (min stop start)

variable {address stop start : Nat}

/-- The loop has split the request as far as the modules reach. -/
theorem splitLoop_eq (data : Option Nat) : ∀ (sizes : List Nat) (start : Nat), address ≤ stop → stop < 2 ^ 32 →
    start + sizes.sum < 2 ^ 32 →
    splitLoop address data sizes (reached address stop start)
      (stop - reached address stop start) start = pieces address stop data sizes start
  | [], _, _, _, _ => rfl
  | size :: sizes, start, hle, hstop, hsum => by
    rw [List.sum_cons] at hsum
    have hnext : (start + size) % 2 ^ 32 = start + size := Nat.mod_eq_of_lt (by omega)
    have ih := splitLoop_eq data sizes (start + size) hle hstop (by omega)
    unfold splitLoop pieces pieceIn
    rw [hnext]
    by_cases hin : max address start < min stop (start + size)
    · have hr : reached address stop start = max address start := by
        unfold reached
        omega
      have hlen : (if (max address start + (stop - max address start)) % 2 ^ 32 ≤ start + size
          then stop - max address start else start + size - max address start) =
          min stop (start + size) - max address start := by
        rw [Nat.mod_eq_of_lt (by omega)]
        split <;> omega
      have hto : (max address start + (min stop (start + size) - max address start)) % 2 ^ 32 =
          reached address stop (start + size) := by
        unfold reached
        rw [Nat.mod_eq_of_lt (by omega)]
        omega
      rw [hr, if_pos (by omega), if_pos hin]
      simp only [hlen, hto]
      rw [← ih]
      congr 2
      unfold reached
      omega
    · have hr : ¬ (start ≤ reached address stop start ∧ reached address stop start < start + size ∧
          0 < stop - reached address stop start) := by
        unfold reached
        omega
      have hto : reached address stop start = reached address stop (start + size) := by
        unfold reached
        omega
      rw [if_neg hr, if_neg hin]
      rw [hto, ih]

theorem storageSplit_eq {length : Nat} {data : Option Nat} {sizes : List Nat} (hfit : address + length ≤ sizes.sum)
    (hsum : sizes.sum < 2 ^ 32) :
    storageSplitToStorageModules address data length sizes =
      pieces address (address + length) data sizes 0 := by
  have h := splitLoop_eq data sizes 0 (show address ≤ address + length by omega) (by omega) (by omega)
  have hr : reached address (address + length) 0 = address := by simp [reached]
  rw [hr, Nat.add_sub_cancel_left] at h
  exact h

variable {data : Option Nat}

theorem pieces_length : ∀ (sizes : List Nat) (start : Nat),
    (pieces address stop data sizes start).length = sizes.length
  | [], _ => rfl
  | size :: sizes, start => congrArg (· + 1) (pieces_length sizes (start + size))

theorem pieces_getElem? : ∀ (sizes : List Nat) (start : Nat) {i : Nat} {p : Piece},
    (pieces address stop data sizes start)[i]? = some p →
    ∃ size, sizes[i]? = some size ∧
      p = pieceIn address stop data (start + (sizes.take i).sum) size
  | [], _, _, _, h => by simp [pieces] at h
  | size :: sizes, start, 0, p, h => by
    refine ⟨size, rfl, ?_⟩
    simpa [pieces] using h.symm
  | size :: sizes, start, i + 1, p, h => by
    obtain ⟨size', hs, hp⟩ := pieces_getElem? sizes (start + size) h
    refine ⟨size', hs, ?_⟩
    rw [hp, List.take_succ_cons, List.sum_cons, Nat.add_assoc]

/-- The addresses of a piece in the address space of the storage. -/
def Piece.positions (start : Nat) (p : Piece) : List Nat := List.range' (start + p.address) p.length

/-- The positions of all pieces, module after module. -/
def positions : List Nat → Nat → List Piece → List Nat
  | size :: sizes, start, p :: ps => p.positions start ++ positions sizes (start + size) ps
  | _, _, _ => []

theorem pieceIn_of_lt {size : Nat} (h : max address start < min stop (start + size)) :
    pieceIn address stop data start size =
      { address := max address start - start
        data := data.map (· + (max address start - address))
        length := min stop (start + size) - max address start } := if_pos h

theorem pieceIn_of_not_lt {size : Nat} (h : ¬ max address start < min stop (start + size)) :
    pieceIn address stop data start size = Piece.empty := if_neg h

theorem pieceIn_positions {size : Nat} (hle : address ≤ stop) :
    (pieceIn address stop data start size).positions start =
      List.range' (reached address stop start)
        (reached address stop (start + size) - reached address stop start) := by
  unfold Piece.positions reached
  by_cases h : max address start < min stop (start + size)
  · rw [pieceIn_of_lt h]
    dsimp only
    congr 1 <;> omega
  · rw [pieceIn_of_not_lt h,
      show max address (min stop (start + size)) - max address (min stop start) = 0 by omega]
    rfl

/-- The pieces cover what is left of the request. -/
theorem pieces_positions (data : Option Nat) (hle : address ≤ stop) : ∀ (sizes : List Nat) (start : Nat),
    stop ≤ start + sizes.sum →
    positions sizes start (pieces address stop data sizes start) =
      List.range' (reached address stop start) (stop - reached address stop start)
  | [], start, hfit => by
    rw [List.sum_nil] at hfit
    rw [show stop - reached address stop start = 0 by unfold reached; omega]
    rfl
  | size :: sizes, start, hfit => by
    rw [List.sum_cons] at hfit
    have ih := pieces_positions data hle sizes (start + size) (by omega)
    have hmono : reached address stop start ≤ reached address stop (start + size) := by
      unfold reached
      omega
    have hstop : reached address stop (start + size) ≤ stop := by
      unfold reached
      omega
    unfold pieces positions
    rw [pieceIn_positions hle, ih]
    have happend := List.range'_append_1 (s := reached address stop start)
      (m := reached address stop (start + size) - reached address stop start)
      (n := stop - reached address stop (start + size))
    rw [Nat.add_sub_cancel' hmono] at happend
    rw [happend]
    congr 1
    omega

/-- A request splits into `ps`: one piece a module, inside the module; together they are
the range, in its order; and each points to its own part of the data. -/
structure IsSplit (address length : Nat) (data : Option Nat) (sizes : List Nat)
    (ps : List Piece) : Prop where
  length_eq : ps.length = sizes.length
  inside : ∀ (i : Nat) (p : Piece), ps[i]? = some p →
    ∃ size, sizes[i]? = some size ∧ p.address + p.length ≤ size
  covers : positions sizes 0 ps = List.range' address length
  pointers : ∀ (i : Nat) (p : Piece), ps[i]? = some p → 0 < p.length →
    p.data = data.map (· + ((sizes.take i).sum + p.address - address))
  untouched : ∀ p ∈ ps, p.length = 0 → p = Piece.empty

theorem pieceIn_inside (address stop : Nat) (data : Option Nat) (start size : Nat) :
    (pieceIn address stop data start size).address + (pieceIn address stop data start size).length
      ≤ size := by
  by_cases h : max address start < min stop (start + size)
  · rw [pieceIn_of_lt h]
    dsimp only
    omega
  · rw [pieceIn_of_not_lt h]
    exact Nat.zero_le size

theorem pieceIn_pointer {size : Nat} (hpos : 0 < (pieceIn address stop data start size).length) :
    (pieceIn address stop data start size).data =
      data.map (· + (start + (pieceIn address stop data start size).address - address)) := by
  by_cases h : max address start < min stop (start + size)
  · rw [pieceIn_of_lt h]
    dsimp only
    rw [Nat.add_sub_cancel' (Nat.le_max_right address start)]
  · rw [pieceIn_of_not_lt h] at hpos
    exact absurd hpos (Nat.lt_irrefl 0)

theorem pieceIn_empty {size : Nat} (hzero : (pieceIn address stop data start size).length = 0) :
    pieceIn address stop data start size = Piece.empty := by
  by_cases h : max address start < min stop (start + size)
  · rw [pieceIn_of_lt h] at hzero
    dsimp only at hzero
    omega
  · exact pieceIn_of_not_lt h

theorem storageSplit_isSplit {length : Nat} {sizes : List Nat}
    (hfit : address + length ≤ sizes.sum) (hsum : sizes.sum < 2 ^ 32) :
    IsSplit address length data sizes
      (storageSplitToStorageModules address data length sizes) := by
  rw [storageSplit_eq hfit hsum]
  refine ⟨pieces_length sizes 0, fun i p hp => ?_, ?_, fun i p hp hpos => ?_, fun p hp hzero => ?_⟩
  · obtain ⟨size, hs, rfl⟩ := pieces_getElem? _ _ hp
    exact ⟨size, hs, pieceIn_inside _ _ _ _ _⟩
  · have h := pieces_positions data (show address ≤ address + length by omega) sizes 0
      (by omega)
    have hr : reached address (address + length) 0 = address := by simp [reached]
    rwa [hr, Nat.add_sub_cancel_left] at h
  · obtain ⟨size, _, rfl⟩ := pieces_getElem? _ _ hp
    rw [Nat.zero_add] at hpos ⊢
    exact pieceIn_pointer hpos
  · obtain ⟨i, hi⟩ := List.mem_iff_getElem?.mp hp
    obtain ⟨size, _, rfl⟩ := pieces_getElem? _ _ hi
    exact pieceIn_empty hzero

end OpenBadge.StorageLib
