import OpenBadge.Filesystem.Model

/-!
# Serialized headers

Lengths and round trips of the serialized metadata and element-headers, and the
header CRC of freshly written and of blank storage.
-/

namespace OpenBadge.Filesystem

open OpenBadge.Lib OpenBadge.Storage

theorem ofBe16_be16 {n : Nat} (h : n < 2 ^ 16) :
    ofBe16 (UInt8.ofNat (n / 2 ^ 8)) (UInt8.ofNat n) = n := by
  simp only [ofBe16, UInt8.toNat_ofNat']
  omega

theorem ofBe32_be32 {n : Nat} (h : n < 2 ^ 32) :
    ofBe32 (UInt8.ofNat (n / 2 ^ 24)) (UInt8.ofNat (n / 2 ^ 16)) (UInt8.ofNat (n / 2 ^ 8))
      (UInt8.ofNat n) = n := by
  simp only [ofBe32, UInt8.toNat_ofNat']
  omega

theorem ofBe16_lt (b₀ b₁ : UInt8) : ofBe16 b₀ b₁ < 2 ^ 16 := by
  have h₀ := b₀.toNat_lt
  have h₁ := b₁.toNat_lt
  unfold ofBe16
  omega

theorem elementHeaderLen_bounds (pid : Nat) :
    2 ≤ getElementHeaderLen pid ∧ getElementHeaderLen pid ≤ 6 := by
  unfold getElementHeaderLen recordIdSize previousLenXorCurLenSize elementCrcSize
  split <;> split <;> decide

@[simp] theorem serializeMetadata_length (m : Metadata) :
    (serializeMetadata m).length = metadataSize := rfl

@[simp] theorem serializeElementHeader_length (pid : Nat) (h : ElementHeader) :
    (serializeElementHeader pid h).length = getElementHeaderLen pid := by
  unfold serializeElementHeader getElementHeaderLen
  split <;> split <;> rfl

/-- The members fit their C types. -/
structure Metadata.Fits (m : Metadata) : Prop where
  headerCrc_lt : m.headerCrc < 2 ^ 16
  partitionId_lt : m.partitionId < 2 ^ 16
  partitionSize_lt : m.partitionSize < 2 ^ 32
  firstElementLen_lt : m.firstElementLen < 2 ^ 16
  lastElementAddress_lt : m.lastElementAddress < 2 ^ 32

structure ElementHeader.Fits (h : ElementHeader) : Prop where
  recordId_lt : h.recordId < 2 ^ 16
  xor_lt : h.previousLenXorCurLen < 2 ^ 16
  elementCrc_lt : h.elementCrc < 2 ^ 16

theorem deserializeMetadata_serialize {m : Metadata} (h : m.Fits) (r : List UInt8) :
    deserializeMetadata (serializeMetadata m ++ r) = m := by
  cases m
  simp only [deserializeMetadata, serializeMetadata, be16, be32, List.cons_append,
    List.nil_append, List.getD_cons_zero, List.getD_cons_succ, Metadata.mk.injEq]
  exact ⟨ofBe16_be16 h.headerCrc_lt, ofBe16_be16 h.partitionId_lt,
    ofBe32_be32 h.partitionSize_lt, ofBe16_be16 h.firstElementLen_lt,
    ofBe32_be32 h.lastElementAddress_lt⟩

theorem ofNat_of_mod {n : Nat} {b : UInt8} (h : n % 2 ^ 8 = b.toNat) : UInt8.ofNat n = b := by
  apply UInt8.toNat_inj.mp
  rw [UInt8.toNat_ofNat', h]

theorem be16_ofBe16 (b₀ b₁ : UInt8) : be16 (ofBe16 b₀ b₁) = [b₀, b₁] := by
  have h₀ := b₀.toNat_lt
  have h₁ := b₁.toNat_lt
  unfold be16 ofBe16
  rw [ofNat_of_mod (n := _ / 2 ^ 8) (b := b₀) (by omega), ofNat_of_mod (b := b₁) (by omega)]

theorem be32_ofBe32 (b₀ b₁ b₂ b₃ : UInt8) :
    be32 (ofBe32 b₀ b₁ b₂ b₃) = [b₀, b₁, b₂, b₃] := by
  have h₀ := b₀.toNat_lt
  have h₁ := b₁.toNat_lt
  have h₂ := b₂.toNat_lt
  have h₃ := b₃.toNat_lt
  unfold be32 ofBe32
  rw [ofNat_of_mod (n := _ / 2 ^ 24) (b := b₀) (by omega),
    ofNat_of_mod (n := _ / 2 ^ 16) (b := b₁) (by omega),
    ofNat_of_mod (n := _ / 2 ^ 8) (b := b₂) (by omega), ofNat_of_mod (b := b₃) (by omega)]

theorem serializeMetadata_deserialize {tmp : List UInt8} (h : metadataSize ≤ tmp.length) :
    serializeMetadata (deserializeMetadata tmp) = tmp.take metadataSize := by
  have htake : tmp.take metadataSize = (List.range metadataSize).map fun i => tmp.getD i 0 := by
    apply List.ext_getElem
    · simp [h]
    · intro i h₁ h₂
      simp only [List.length_take] at h₁
      simp [List.getElem?_eq_getElem (show i < tmp.length by omega)]
  rw [htake]
  simp only [serializeMetadata, deserializeMetadata, be16_ofBe16, be32_ofBe32]
  rfl

/-- The header as it comes back from a partition that leaves members out. -/
def ElementHeader.kept (pid : Nat) (h : ElementHeader) : ElementHeader :=
  { recordId := h.recordId
    previousLenXorCurLen := if isDynamic pid then h.previousLenXorCurLen else 0
    elementCrc := if hasElementCrc pid then h.elementCrc else 0 }

theorem deserializeElementHeader_serialize {pid : Nat} {h : ElementHeader} (hf : h.Fits) :
    deserializeElementHeader pid (serializeElementHeader pid h) = h.kept pid := by
  have hid := ofBe16_be16 hf.recordId_lt
  have hxor := ofBe16_be16 hf.xor_lt
  have hcrc := ofBe16_be16 hf.elementCrc_lt
  cases hd : isDynamic pid <;> cases hc : hasElementCrc pid <;>
    simp only [deserializeElementHeader, serializeElementHeader, ElementHeader.kept, hd, hc, be16,
      if_true, if_false, Bool.false_eq_true, List.cons_append, List.nil_append,
      List.getD_cons_zero, List.getD_cons_succ, hid, hxor, hcrc]

theorem headerCrcOf_lt (tmp : List UInt8) : headerCrcOf tmp < 2 ^ 16 :=
  (crc16Compute (tmp.drop 2)).toNat_lt

theorem headerCrcOf_serialize (m : Metadata) (c : Nat) (r : List UInt8) :
    headerCrcOf (serializeMetadata { m with headerCrc := c } ++ r) =
      headerCrcOf (serializeMetadata m ++ r) := rfl

/-- Metadata and header as a store writes them pass the header CRC. -/
theorem crcValid_newMetadata {pid : Nat} {p : Partition} {len : Nat} {h : ElementHeader}
    (hf : (newMetadata pid p len h).Fits) :
    CrcValid (serializeMetadata (newMetadata pid p len h) ++ serializeElementHeader pid h) := by
  unfold CrcValid
  rw [deserializeMetadata_serialize hf]
  exact headerCrcOf_serialize _ _ _

/-- Blank storage never passes the header CRC. -/
theorem not_crcValid_blank (pid : Nat) :
    ¬ CrcValid (List.replicate (metadataSize + getElementHeaderLen pid) 0xFF) := by
  unfold getElementHeaderLen
  split <;> split <;> decide +kernel

/-! ## Record identifiers -/

/-- The identifiers that are given to elements. -/
def IsRecordId (r : Nat) : Prop := 1 ≤ r ∧ r ≤ 0xFFFE

theorem isRecordId_increment (r : Nat) : IsRecordId (incrementRecordId r) := by
  unfold IsRecordId incrementRecordId
  split <;> omega

/-- The identifier of the `j`-th element stored in a blank partition, from 0 on. -/
def recordIdOf (j : Nat) : Nat := j % 65534 + 1

theorem isRecordId_recordIdOf (j : Nat) : IsRecordId (recordIdOf j) := by
  unfold IsRecordId recordIdOf
  omega

theorem increment_recordIdOf (j : Nat) : incrementRecordId (recordIdOf j) = recordIdOf (j + 1) := by
  unfold incrementRecordId recordIdOf
  split <;> omega

theorem decrement_recordIdOf (j : Nat) : decrementRecordId (recordIdOf (j + 1)) = recordIdOf j := by
  unfold decrementRecordId recordIdOf
  split <;> omega

/-- Identifiers of elements less than a full cycle apart differ. -/
theorem recordIdOf_ne {i j : Nat} (h : i < j) (h' : j < i + 65534) :
    recordIdOf i ≠ recordIdOf j := by
  unfold recordIdOf
  omega

end OpenBadge.Filesystem
