import OpenBadge.BadgeLegacy.Download

/-!
# The downloads of stored chunks

What the badge sends for a chunk is one header with its samples or devices, and a header of
zeros when there are no more. A chunk without samples is a chunk the client cannot take, and a
chunk without devices in the first second is an end.
-/

namespace OpenBadge.BadgeLegacy

open OpenBadge.Lib OpenBadge.Tinybuf OpenBadge.Framework
open RequestHandler01
open Processing (MicrophoneChunk ScanChunk)
open Sampling (ScanResult)

/-- The series for stored chunks. -/
def microphoneSeries (chunks : List MicrophoneChunk) : List Response :=
  chunks.map microphoneResponse ++ [microphoneEnd]

def scanSeries (chunks : List ScanChunk) : List Response := chunks.map scanResponse ++ [scanEnd]

/-! ## Microphone -/

/-- The tuple that `get_mic_data` has for a chunk. -/
def shownMicrophone (chunk : MicrophoneChunk) : Attributes × List UInt8 :=
  ((microphoneResponse chunk).attributes.map some,
    chunk.microphoneData.take protocolMicrophoneDataSize)

theorem microphone_fits (chunk : MicrophoneChunk) : (microphoneResponse chunk).Fits :=
  List.length_take_le ..

theorem expected_microphone (chunk : MicrophoneChunk) :
    Expected numSamplesInChunk MicrophoneDataHeader.messageFields (microphoneResponse chunk) where
  fits := microphone_fits chunk
  fields := rfl
  nonempty := List.cons_ne_nil _ _
  awaited := rfl
  alone h := by
    have hlen : (chunk.microphoneData.take protocolMicrophoneDataSize).length = 0 :=
      h _ (by simp only [microphoneResponse, Response.attributes, List.mem_cons, true_or, or_true])
    exact List.length_eq_zero_iff.mp hlen

theorem expected_microphoneEnd :
    Expected numSamplesInChunk MicrophoneDataHeader.messageFields microphoneEnd :=
  ⟨Nat.zero_le _, rfl, List.cons_ne_nil _ _, rfl, fun _ => rfl⟩

theorem isEnd_microphoneEnd : IsEnd microphoneEnd := by decide

theorem sent_ne_nil_iff (chunk : MicrophoneChunk) :
    (microphoneResponse chunk).behind ≠ [] ↔ chunk.microphoneData ≠ [] := by
  change chunk.microphoneData.take protocolMicrophoneDataSize ≠ [] ↔ _
  cases chunk.microphoneData with
  | nil => exact Iff.rfl
  | cons x xs => exact iff_of_true (List.cons_ne_nil _ _) (List.cons_ne_nil _ _)

/-- The client takes a chunk if and only if it has samples. -/
theorem found_microphone_iff (chunk : MicrophoneChunk) :
    found microphoneElement (microphoneResponse chunk) = .ok (shownMicrophone chunk) ↔
      chunk.microphoneData ≠ [] := by
  rw [← sent_ne_nil_iff, found]
  by_cases h : (microphoneResponse chunk).behind = []
  · rw [if_pos h]
    exact iff_of_false (fun hf => (by cases hf)) (fun hne => hne h)
  · rw [if_neg h]
    exact iff_of_true rfl h

/-! ## Scans -/

/-- The tuple that `get_scan_data` has for a chunk. -/
def shownScan (chunk : ScanChunk) : Attributes × List Attributes :=
  ((scanResponse chunk).attributes.map some,
    (chunk.scanResultData.take protocolScanDataSize).map fun r => (deviceAttributes r).map some)

theorem fits_device (r : ScanResult) :
    List.Forall₂ Fits ScanDataDevice.messageFields (deviceAttributes r) :=
  .cons (fits_of_lt (by decide) r.id.toNat_lt) <|
  .cons (fits_of_lt (by decide) r.rssi.toBitVec.isLt) <|
  .cons (fits_of_lt (by decide) r.count.toNat_lt) .nil

theorem deviceBytes_length (r : ScanResult) : (deviceBytes r).length = 4 :=
  fieldBytes_length (fits_device r)

theorem devices_length (results : List ScanResult) :
    (results.flatMap deviceBytes).length = 4 * results.length := by
  induction results with
  | nil => rfl
  | cons r rs ih =>
    rw [List.flatMap_cons, List.length_append, deviceBytes_length, ih, List.length_cons]
    omega

/-- The bytes of device `i`. -/
theorem device_at {results : List ScanResult} {i : Nat} (hi : i < results.length) :
    ((results.flatMap deviceBytes).drop (4 * i)).take 4 = deviceBytes results[i] := by
  induction results generalizing i with
  | nil => cases hi
  | cons r rs ih =>
    have hlen := deviceBytes_length r
    rw [List.flatMap_cons]
    cases i with
    | zero => exact List.take_left' hlen
    | succ i =>
      have hdrop : 4 * (i + 1) = (deviceBytes r).length + 4 * i := by omega
      rw [hdrop, List.drop_length_add_append]
      exact ih (Nat.lt_of_succ_lt_succ hi)

/-- `deserialize_message` of each device. -/
theorem devices_ok (results : List ScanResult) :
    ((List.range (((results.flatMap deviceBytes).length + 3) / 4)).mapM fun i =>
      deserializeMessage ScanDataDevice.messageFields
        (((results.flatMap deviceBytes).drop (4 * i)).take 4)) =
      .ok (results.map fun r => (deviceAttributes r).map some) := by
  have hcount : ((results.flatMap deviceBytes).length + 3) / 4 = results.length := by
    rw [devices_length]
    omega
  have hdevice : ∀ i ∈ List.range results.length, deserializeMessage ScanDataDevice.messageFields
      (((results.flatMap deviceBytes).drop (4 * i)).take 4) =
        .ok ((results[i]?.map fun r => (deviceAttributes r).map some).getD []) := by
    intro i hi
    have hlt := List.mem_range.mp hi
    rw [device_at hlt, List.getElem?_eq_getElem hlt]
    exact deserializeMessage_fieldBytes (fits_device _)
  rw [hcount, mapM_ok hdevice]
  refine congrArg Except.ok (List.ext_getElem (by simp) fun i _ hi => ?_)
  rw [List.length_map] at hi
  simp [List.getElem?_eq_getElem hi]

theorem scan_fits (chunk : ScanChunk) : (scanResponse chunk).Fits := List.length_take_le ..

theorem expected_scan (chunk : ScanChunk) :
    Expected (fun header => numDevicesSeen header * messageLength ScanDataDevice.messageFields)
      ScanDataHeader.messageFields (scanResponse chunk) where
  fits := scan_fits chunk
  fields := rfl
  nonempty := List.cons_ne_nil _ _
  awaited := by
    change (chunk.scanResultData.take protocolScanDataSize).length * 4 =
      ((chunk.scanResultData.take protocolScanDataSize).flatMap deviceBytes).length
    rw [devices_length, Nat.mul_comm]
  alone h := by
    have hlen : (chunk.scanResultData.take protocolScanDataSize).length = 0 :=
      h _ (by simp only [scanResponse, Response.attributes, List.mem_cons, true_or, or_true])
    change (chunk.scanResultData.take protocolScanDataSize).flatMap deviceBytes = []
    rw [List.length_eq_zero_iff.mp hlen, List.flatMap_nil]

theorem expected_scanEnd :
    Expected (fun header => numDevicesSeen header * messageLength ScanDataDevice.messageFields)
      ScanDataHeader.messageFields scanEnd :=
  ⟨Nat.zero_le _, rfl, List.cons_ne_nil _ _, rfl, fun _ => rfl⟩

theorem isEnd_scanEnd : IsEnd scanEnd := by decide

/-- The client takes every scan chunk. -/
theorem found_scan (chunk : ScanChunk) :
    found scanElement (scanResponse chunk) = .ok (shownScan chunk) := by
  have hgiven : (if (scanResponse chunk).behind = [] then none
      else some (scanResponse chunk).behind).getD [] = (scanResponse chunk).behind := by
    by_cases h : (scanResponse chunk).behind = []
    · rw [if_pos h, h]
      rfl
    · rw [if_neg h]
      rfl
  rw [found, scanElement, hgiven]
  change ((List.range _).mapM _ >>= _) = _
  rw [scanResponse, Response.behind, devices_ok]
  rfl

/-- It is an end if it was stored in second 0 and has no devices. -/
theorem isEnd_scan_iff (chunk : ScanChunk) : IsEnd (scanResponse chunk) ↔
    chunk.timestamp.seconds = 0 ∧ chunk.scanResultData = [] := by
  have htake : (chunk.scanResultData.take protocolScanDataSize).length = 0 ↔
      chunk.scanResultData = [] := by
    cases chunk.scanResultData with
    | nil => exact iff_of_true rfl rfl
    | cons x xs => exact iff_of_false (Nat.succ_ne_zero _) (List.cons_ne_nil _ _)
  have hseconds : chunk.timestamp.seconds.toNat = 0 ↔ chunk.timestamp.seconds = 0 :=
    UInt32.toNat_inj (b := 0)
  rw [← htake, ← hseconds, IsEnd, scanResponse, Response.attributes, List.forall_mem_cons,
    List.forall_mem_cons, List.forall_mem_singleton]
  exact ⟨fun h => ⟨h.1, h.2.2⟩, fun h => ⟨h.1, rfl, h.2⟩⟩

/-! ## Downloads -/

theorem microphoneDataRequest_bytes (seconds : UInt32) (ms : UInt16) :
    serializeMessage (microphoneDataRequest seconds ms).messageFields
      (microphoneDataRequest seconds ms).attributes =
        .ok (fieldBytes MicrophoneDataRequest.messageFields [0x72, seconds.toNat, ms.toNat]) :=
  serializeMessage_some [0x72, seconds.toNat, ms.toNat] <|
    .cons (fits_of_lt (by decide) (by decide)) <| .cons (fits_of_lt (by decide) seconds.toNat_lt) <|
    .cons (fits_of_lt (by decide) ms.toNat_lt) .nil

theorem scanDataRequest_bytes (seconds : UInt32) :
    serializeMessage (scanDataRequest seconds).messageFields (scanDataRequest seconds).attributes =
      .ok (fieldBytes ScanDataRequest.messageFields [0x62, seconds.toNat]) :=
  serializeMessage_some [0x62, seconds.toNat] <|
    .cons (fits_of_lt (by decide) (by decide)) <|
    .cons (fits_of_lt (by decide) seconds.toNat_lt) .nil

theorem expected_microphoneSeries (chunks : List MicrophoneChunk) :
    ∀ r ∈ microphoneSeries chunks,
      Expected numSamplesInChunk MicrophoneDataHeader.messageFields r := by
  intro r hr
  rcases List.mem_append.mp hr with hr | hr
  · obtain ⟨chunk, -, rfl⟩ := List.mem_map.mp hr
    exact expected_microphone chunk
  · obtain rfl := List.mem_singleton.mp hr
    exact expected_microphoneEnd

theorem expected_scanSeries (chunks : List ScanChunk) : ∀ r ∈ scanSeries chunks, Expected
    (fun header => numDevicesSeen header * messageLength ScanDataDevice.messageFields)
    ScanDataHeader.messageFields r := by
  intro r hr
  rcases List.mem_append.mp hr with hr | hr
  · obtain ⟨chunk, -, rfl⟩ := List.mem_map.mp hr
    exact expected_scan chunk
  · obtain rfl := List.mem_singleton.mp hr
    exact expected_scanEnd

section Calls

variable {c : Connection} (hc : c.connected = true) {rest : List UInt8}

include hc

theorem getMicData_complete_iff (seconds : UInt32) (ms : UInt16) {chunks : List MicrophoneChunk}
    (hs : c.stream = (microphoneSeries chunks).flatMap Response.bytes ++ rest) :
    (∃ c', getMicData seconds ms c = (.ok (chunks.map shownMicrophone), c') ∧
        c'.connected = true ∧ c'.stream = rest ∧ c'.sent = c.sent ++
          [fieldBytes MicrophoneDataRequest.messageFields [0x72, seconds.toNat, ms.toNat]]) ↔
      ∀ chunk ∈ chunks, chunk.microphoneData ≠ [] := by
  rw [getMicData, download_complete_iff isEnd_microphoneEnd (expected_microphoneSeries chunks)
    (microphoneDataRequest_bytes seconds ms) hc hs (by rw [List.length_map, List.length_map]),
    List.forall₂_map_left_iff, List.forall₂_map_right_iff, List.forall₂_same, List.forall_mem_map]
  constructor
  · exact fun h chunk hchunk => (found_microphone_iff chunk).mp (h.2 chunk hchunk)
  · refine fun h => ⟨fun chunk hchunk hend => ?_, fun chunk hchunk =>
      (found_microphone_iff chunk).mpr (h chunk hchunk)⟩
    exact (sent_ne_nil_iff chunk).mpr (h chunk hchunk) ((expected_microphone chunk).alone hend)

theorem getScanData_complete_iff (seconds : UInt32) {chunks : List ScanChunk}
    (hs : c.stream = (scanSeries chunks).flatMap Response.bytes ++ rest) :
    (∃ c', getScanData seconds c = (.ok (chunks.map shownScan), c') ∧
        c'.connected = true ∧ c'.stream = rest ∧
        c'.sent = c.sent ++ [fieldBytes ScanDataRequest.messageFields [0x62, seconds.toNat]]) ↔
      ∀ chunk ∈ chunks, ¬ (chunk.timestamp.seconds = 0 ∧ chunk.scanResultData = []) := by
  rw [getScanData, download_complete_iff isEnd_scanEnd (expected_scanSeries chunks)
    (scanDataRequest_bytes seconds) hc hs (by rw [List.length_map, List.length_map]),
    List.forall₂_map_left_iff, List.forall₂_map_right_iff, List.forall₂_same, List.forall_mem_map]
  constructor
  · exact fun h chunk hchunk hend => h.1 chunk hchunk ((isEnd_scan_iff chunk).mpr hend)
  · exact fun h => ⟨fun chunk hchunk hend => h chunk hchunk ((isEnd_scan_iff chunk).mp hend),
      fun chunk _ => found_scan chunk⟩

end Calls

/-- The client returns the chunks that were sent, and reads no further, if and only if no
microphone chunk is without samples and no scan chunk of second 0 is without devices: the first
it cannot take, the second it takes for the end. -/
theorem chunks_returned_iff {c : Connection} (hc : c.connected = true) (rest : List UInt8) :
    (∀ (seconds : UInt32) (ms : UInt16) (chunks : List MicrophoneChunk),
      c.stream = (microphoneSeries chunks).flatMap Response.bytes ++ rest →
      ((∃ c', getMicData seconds ms c = (.ok (chunks.map shownMicrophone), c') ∧
          c'.connected = true ∧ c'.stream = rest ∧ c'.sent = c.sent ++
            [fieldBytes MicrophoneDataRequest.messageFields [0x72, seconds.toNat, ms.toNat]]) ↔
        ∀ chunk ∈ chunks, chunk.microphoneData ≠ [])) ∧
    ∀ (seconds : UInt32) (chunks : List ScanChunk),
      c.stream = (scanSeries chunks).flatMap Response.bytes ++ rest →
      ((∃ c', getScanData seconds c = (.ok (chunks.map shownScan), c') ∧
          c'.connected = true ∧ c'.stream = rest ∧
          c'.sent = c.sent ++ [fieldBytes ScanDataRequest.messageFields [0x62, seconds.toNat]]) ↔
        ∀ chunk ∈ chunks, ¬ (chunk.timestamp.seconds = 0 ∧ chunk.scanResultData = [])) :=
  ⟨fun seconds ms _ hs => getMicData_complete_iff hc seconds ms hs,
    fun seconds _ hs => getScanData_complete_iff hc seconds hs⟩

/-- A scan without devices, of the second in which the badge started. -/
def hidingScans : List ScanChunk := [⟨⟨0, 0⟩, []⟩, ⟨⟨5, 0⟩, [⟨3, 200, 1⟩]⟩]

def hidingConnection : Connection :=
  ⟨true, [], [(scanSeries hidingScans).flatMap Response.bytes], []⟩

/-- The scan behind it is not returned. -/
theorem chunks_returned_hidden :
    ¬ ∃ c', getScanData 0 hidingConnection = (.ok (hidingScans.map shownScan), c') ∧
      c'.connected = true ∧ c'.stream = [] ∧
      c'.sent = [fieldBytes ScanDataRequest.messageFields [0x62, 0]] := by
  intro h
  have hiff := (chunks_returned_iff (c := hidingConnection) rfl []).2 0 hidingScans (by decide)
  exact hiff.mp h _ List.mem_cons_self ⟨rfl, rfl⟩

end OpenBadge.BadgeLegacy
