import OpenBadge.BadgeLegacy.Requests

/-!
# The answers to the client's calls

Which responses a call is answered with is known when the storer is; what a status or start
response says is known when the badge makes it. The stop and identify responses have no bytes.
-/

namespace OpenBadge.BadgeLegacy

open OpenBadge.Lib OpenBadge.Tinybuf OpenBadge.Framework
open RequestHandler01
open Processing (Timestamp MicrophoneChunk ScanChunk)

/-- What the storer finds from a timestamp on. -/
structure Stored where
  microphone : Timestamp → List MicrophoneChunk
  scan : Timestamp → List ScanChunk

/-- The client can tell every chunk from an end and take it. -/
structure Stored.Readable (d : Stored) : Prop where
  microphone : ∀ t, ∀ chunk ∈ d.microphone t, chunk.microphoneData ≠ []
  scan : ∀ t, ∀ chunk ∈ d.scan t, ¬ (chunk.timestamp.seconds = 0 ∧ chunk.scanResultData = [])

/-- A response without what the badge fills in when it makes it. -/
def form : Response → Response
  | .status _ => .status ⟨false, false, false, ⟨0, 0⟩, 0⟩
  | .start k _ => .start k ⟨0, 0⟩
  | r => r

/-- The responses without bytes. -/
def silent : Response → Bool
  | .stop _ | .identify => true
  | _ => false

/-- The forms of the responses to a call. -/
def Ask.answer (d : Stored) : Ask → List Response
  | .getStatus _ _ _ => [form (.status ⟨false, false, false, ⟨0, 0⟩, 0⟩)]
  | .startRecording _ _ => [.start .microphone ⟨0, 0⟩]
  | .stopRecording => [.stop .microphone]
  | .startScanning _ _ _ _ _ _ => [.start .scan ⟨0, 0⟩]
  | .stopScanning => [.stop .scan]
  | .identify _ => [.identify]
  | .getMicData t => microphoneSeries (d.microphone t)
  | .getScanData seconds => scanSeries (d.scan ⟨seconds, 0⟩)

/-- The calls that wait for no response. -/
def Ask.silent : Ask → Bool
  | .stopRecording | .stopScanning | .identify _ => true
  | _ => false

/-- The number of bytes of responses. -/
def size (rs : List Response) : Nat := (rs.flatMap Response.bytes).length

/-! ## Sizes -/

@[simp] theorem size_nil : size [] = 0 := rfl

theorem size_cons (r : Response) (rs : List Response) :
    size (r :: rs) = r.bytes.length + size rs := by
  rw [size, List.flatMap_cons, List.length_append, size]

theorem size_append (rs rs' : List Response) : size (rs ++ rs') = size rs + size rs' := by
  rw [size, List.flatMap_append, List.length_append, size, size]

theorem size_flatMap {α : Type} (f : α → List Response) (xs : List α) :
    size (xs.flatMap f) = (xs.map fun x => size (f x)).sum := by
  induction xs with
  | nil => rfl
  | cons x xs ih => rw [List.flatMap_cons, size_append, ih, List.map_cons, List.sum_cons]

theorem bytes_length {r : Response} (h : r.Fits) :
    r.bytes.length = messageLength r.messageFields + r.behind.length := by
  rw [Response.bytes_eq, List.length_append, fieldBytes_length (Response.fits_attributes h)]

theorem form_fits {r : Response} (h : r.Fits) : (form r).Fits := by
  cases r with
  | status => trivial
  | start => trivial
  | _ => exact h

theorem form_bytes_length {r : Response} (h : r.Fits) :
    (form r).bytes.length = r.bytes.length := by
  rw [bytes_length h, bytes_length (form_fits h)]
  cases r with
  | start k t => cases k <;> rfl
  | _ => rfl

@[simp] theorem silent_form (r : Response) : silent (form r) = silent r := by cases r <;> rfl

theorem bytes_of_silent {r : Response} (h : silent r = true) : r.bytes = [] := by
  cases r with
  | stop k => cases k <;> rfl
  | identify => rfl
  | _ => cases h

theorem bytes_of_loud {r : Response} (hr : r.Fits) (h : silent r = false) :
    0 < r.bytes.length := by
  have hstatus : 0 < messageLength StatusResponse.messageFields := by decide
  have hstart : 0 < messageLength StartRecordResponse.messageFields := by decide
  have hmicrophone : 0 < messageLength MicrophoneDataHeader.messageFields := by decide
  have hscan : 0 < messageLength ScanDataHeader.messageFields := by decide
  rw [bytes_length hr]
  cases r with
  | stop => cases h
  | identify => cases h
  | start k t => cases k <;> exact Nat.lt_add_right _ hstart
  | status => exact Nat.lt_add_right _ hstatus
  | microphoneData => exact Nat.lt_add_right _ hmicrophone
  | scanData => exact Nat.lt_add_right _ hscan

theorem size_map_form {rs : List Response} (h : ∀ r ∈ rs, r.Fits) :
    size (rs.map form) = size rs := by
  induction rs with
  | nil => rfl
  | cons r rs ih =>
    rw [List.map_cons, size_cons, size_cons, form_bytes_length (h r List.mem_cons_self),
      ih fun y hy => h y (List.mem_cons_of_mem r hy)]

/-- Responses without bytes are all silent. -/
theorem size_eq_zero_iff {rs : List Response} (h : ∀ r ∈ rs, r.Fits) :
    size rs = 0 ↔ ∀ r ∈ rs, silent r = true := by
  induction rs with
  | nil => exact iff_of_true rfl fun _ hr => (by cases hr)
  | cons r rs ih =>
    rw [size_cons, Nat.add_eq_zero_iff, List.forall_mem_cons,
      ih fun y hy => h y (List.mem_cons_of_mem r hy)]
    refine and_congr_left fun _ => ?_
    cases hr : silent r with
    | true => exact iff_of_true (by rw [bytes_of_silent hr]; rfl) rfl
    | false =>
      exact iff_of_false (Nat.pos_iff_ne_zero.mp (bytes_of_loud (h r List.mem_cons_self) hr))
        Bool.false_ne_true

/-! ## Answers -/

theorem series_data {d : Stored} {a : Ask} {k : Source} (h : a.type = .data k) :
    ∀ r ∈ a.answer d, r.Fits ∧ silent r = false ∧ form r = r := by
  intro r hr
  cases a with
  | getMicData t =>
    rcases List.mem_append.mp hr with hr | hr
    · obtain ⟨chunk, -, rfl⟩ := List.mem_map.mp hr
      exact ⟨microphone_fits chunk, rfl, rfl⟩
    · obtain rfl := List.mem_singleton.mp hr
      exact ⟨Nat.zero_le _, rfl, rfl⟩
  | getScanData seconds =>
    rcases List.mem_append.mp hr with hr | hr
    · obtain ⟨chunk, -, rfl⟩ := List.mem_map.mp hr
      exact ⟨scan_fits chunk, rfl, rfl⟩
    · obtain rfl := List.mem_singleton.mp hr
      exact ⟨Nat.zero_le _, rfl, rfl⟩
  | getStatus t newId newGroupNumber =>
    rw [Ask.type] at h
    split at h <;> cases h
  | _ => cases h

/-- All responses to a call fit their arrays, are forms, and have bytes if the call waits. -/
theorem answer_mem {d : Stored} {a : Ask} {r : Response} (hr : r ∈ a.answer d) :
    r.Fits ∧ silent r = a.silent ∧ form r = r := by
  cases a with
  | getMicData t => exact series_data rfl r hr
  | getScanData seconds => exact series_data rfl r hr
  | _ =>
    obtain rfl := List.mem_singleton.mp hr
    exact ⟨trivial, rfl, rfl⟩

theorem answer_ne_nil (d : Stored) (a : Ask) : a.answer d ≠ [] := by
  cases a with
  | getMicData t => exact List.append_ne_nil_of_right_ne_nil _ (List.cons_ne_nil _ _)
  | getScanData seconds => exact List.append_ne_nil_of_right_ne_nil _ (List.cons_ne_nil _ _)
  | _ => exact List.cons_ne_nil _ _

theorem answer_of_silent (d : Stored) {a : Ask} (h : a.silent = true) :
    ∃ r, a.answer d = [r] := by
  cases a with
  | stopRecording => exact ⟨_, rfl⟩
  | stopScanning => exact ⟨_, rfl⟩
  | identify => exact ⟨_, rfl⟩
  | _ => cases h

theorem size_answer_eq_zero_iff (d : Stored) (a : Ask) :
    size (a.answer d) = 0 ↔ a.silent = true := by
  rw [size_eq_zero_iff fun r hr => (answer_mem hr).1]
  obtain ⟨r, rs, hrs⟩ := List.exists_cons_of_ne_nil (answer_ne_nil d a)
  have hall : ∀ r ∈ a.answer d, silent r = a.silent := fun r hr => (answer_mem hr).2.1
  constructor
  · intro h
    have hr : r ∈ a.answer d := hrs ▸ List.mem_cons_self
    rw [← hall r hr]
    exact h r hr
  · exact fun h r hr => (hall r hr).trans h

end OpenBadge.BadgeLegacy
