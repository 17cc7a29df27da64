import OpenBadge.Tinybuf.Full

/-!
# chunk_messages.c and common_messages.c

The field tables of the messages that are stored, with the offsets and sizes of the
structures on the processor of the badge.
-/

namespace OpenBadge.Storer

open OpenBadge.Tinybuf

/-- An entry of a required member. -/
def requiredField (type dataOffset dataSize : Nat) (h : type ≠ 0 := by decide) : TbField :=
  { type, dataOffset, dataSize
    sizeOffset := 0
    sizeSize := 0
    arraySize := 0
    oneofTag := 0
    oneofFirst := false
    type_ne_zero := h }

/-- An entry of a repeated message with its count in one byte. -/
def repeatedMessage (dataOffset countOffset dataSize arraySize : Nat) : TbField :=
  { type := 516
    sizeOffset := countOffset - dataOffset
    sizeSize := 1
    oneofTag := 0
    oneofFirst := false
    dataOffset, dataSize, arraySize }

/-! ## common_messages.c -/

def timestampFields : Fields :=
  .entry (requiredField 65 0 4 requiredUint_ne_zero) .last
    (.entry (requiredField 65 4 2 requiredUint_ne_zero) .last .last)

def badgeAssignementFields : Fields :=
  .entry (requiredField 65 0 2 requiredUint_ne_zero) .last
    (.entry (requiredField 65 2 1 requiredUint_ne_zero) .last .last)

def batteryDataFields : Fields := .entry (requiredField 129 0 4) .last .last

def microphoneDataFields : Fields :=
  .entry (requiredField 65 0 1 requiredUint_ne_zero) .last .last

def scanDeviceFields : Fields :=
  .entry (requiredField 65 0 2 requiredUint_ne_zero) .last
    (.entry (requiredField 33 2 1) .last .last)

def scanResultDataFields : Fields :=
  .entry (requiredField 513 0 4) scanDeviceFields
    (.entry (requiredField 65 4 1 requiredUint_ne_zero) .last .last)

def accelerometerDataFields : Fields :=
  .entry (requiredField 65 0 2 requiredUint_ne_zero) .last .last

/-! ## chunk_messages.c -/

def batteryChunkFields : Fields :=
  .entry (requiredField 513 0 8) timestampFields
    (.entry (requiredField 513 8 4) batteryDataFields .last)

def microphoneChunkFields : Fields :=
  .entry (requiredField 513 0 8) timestampFields
    (.entry (requiredField 65 8 2 requiredUint_ne_zero) .last
      (.entry (repeatedMessage 11 10 1 114) microphoneDataFields .last))

def scanChunkFields : Fields :=
  .entry (requiredField 513 0 8) timestampFields
    (.entry (repeatedMessage 10 8 6 29) scanResultDataFields .last)

def accelerometerChunkFields : Fields :=
  .entry (requiredField 513 0 8) timestampFields
    (.entry (repeatedMessage 10 8 2 100) accelerometerDataFields .last)

def accelerometerInterruptChunkFields : Fields :=
  .entry (requiredField 513 0 8) timestampFields .last

example : [badgeAssignementFields, batteryChunkFields, microphoneChunkFields, scanChunkFields,
    accelerometerInterruptChunkFields, accelerometerChunkFields].map tbGetMaxEncodedLen =
      [3, 10, 123, 123, 6, 207] := by decide

theorem microphoneChunkFields_wellFormed : WellFormed microphoneChunkFields 128 :=
  ⟨by decide, rfl, by decide, by decide⟩

theorem accelerometerChunkFields_wellFormed : WellFormed accelerometerChunkFields 212 :=
  ⟨by decide, rfl, by decide, by decide⟩

/-- A repeated message of rigid messages is full when its count says so. -/
theorem full_repeatedMessage {host : TbEndian} {m : Memory} {base : Nat}
    {dataOffset countOffset dataSize arraySize : Nat} {ptr : Fields} (hptr : ptr.Rigid)
    (hcount : (m (base + countOffset)).toNat = arraySize) :
    (Fields.entry (repeatedMessage dataOffset countOffset dataSize arraySize) ptr .last).Full
      host m base := by
  have hft : (repeatedMessage dataOffset countOffset dataSize arraySize).fieldType =
      some .repeated := by simp [repeatedMessage, TbField.fieldType]
  have hptr' : (repeatedMessage dataOffset countOffset dataSize arraySize).sizePtr base =
      base + countOffset := by
    simp only [repeatedMessage, TbField.sizePtr, TbField.dataPtr]
    omega
  refine ⟨?_, ?_, fun _ k _ => hptr.full _ _, trivial⟩
  · rw [hft]
    decide
  · simp only [TbField.present, TbField.room, hft]
    rw [TbField.sizeValue, hptr']
    exact (readNumber_one host m _).trans hcount

end OpenBadge.Storer
