import OpenBadge.Framework.Coupled

/-!
# A download

The badge with the codec of the protocol, and a client that asks for the status and then for
the battery data.
-/

namespace OpenBadge.Framework

open OpenBadge.Lib OpenBadge.Tinybuf OpenBadge.RequestHandler

def decodeRequest (bytes : List UInt8) : Request × Bool :=
  match request.decode .bigEndian bytes with
  | .ok v => (requestOf v, true)
  | .error _ => (default, false)

def encodeResponse (m : Response) : Option (List UInt8) :=
  if Roomy m then some (response.wire .bigEndian (responseValue m, ())) else none

/-- The codec of the protocol over a storer with the same chunks for every sensor. -/
def protocolLibraries (chunks : List Chunk) : Libraries (Sensor → List Chunk) :=
  { listLibraries chunks with decode := decodeRequest, encode := encodeResponse }

theorem protocolLibraries_speaks (chunks : List Chunk) : Speaks (protocolLibraries chunks) := by
  refine ⟨fun a => ⟨requestOf a.value, ?_, rfl, ?_⟩, fun m d hd => ?_⟩
  · have hdecode : request.decode .bigEndian (request.wire .bigEndian a.value) = .ok a.value :=
      (decode_eq_ok request_accepted).mpr ⟨Message.Meets.imp valid_implies_encodable request
        request_accepted (request.plain_valid request_plain a.value), List.prefix_refl _⟩
    change decodeRequest (request.wire .bigEndian a.value) = _
    rw [decodeRequest, hdecode]
  · rcases a.type with _ | ⟨⟨⟩⟩ | ⟨⟨⟩⟩ | ⟨⟨⟩⟩ | ⟨⟨⟩⟩ | ⟨⟨⟩⟩ | _ | _ | _ <;> first | rfl | trivial
  · change encodeResponse m = some d at hd
    rw [encodeResponse] at hd
    split at hd
    · next hroomy =>
      exact ⟨responseValue m, responseValue_shows m, responseValue_valid hroomy,
        (Option.some.inj hd).symm⟩
    · cases hd

theorem protocolLibraries_yield {chunks : List Chunk} {k : Sensor} {u : Sensor → List Chunk}
    {cs : List Chunk} (h : Yield (listLibraries chunks) k u cs) :
    Yield (protocolLibraries chunks) k u cs := by
  induction h with
  | ends last ends => exact .ends last ends
  | chunk next _ ih => exact .chunk next ih

theorem yield_protocolLibraries {chunks : List Chunk} {k : Sensor} {u : Sensor → List Chunk}
    {cs : List Chunk} (h : Yield (protocolLibraries chunks) k u cs) :
    Yield (listLibraries chunks) k u cs := by
  induction h with
  | ends last ends => exact .ends last ends
  | chunk next _ ih => exact .chunk next ih

theorem protocolLibraries_finds (chunks : List Chunk) :
    (protocolLibraries chunks).Finds fun _ _ => chunks := by
  have h := listLibraries_finds chunks
  exact ⟨h.ready, fun k t u => protocolLibraries_yield (h.find k t u),
    fun k i t u cs hi hy =>
      protocolLibraries_yield (h.find_other k i t u cs hi (yield_protocolLibraries hy)),
    fun k i u cs hi hy =>
      protocolLibraries_yield (h.next_other k i u cs hi (yield_protocolLibraries hy))⟩

/-- Two battery chunks. -/
def batteryChunks : List Chunk := [⟨⟨8, 0⟩, 0, [[0, 0, 64, 64]]⟩, ⟨⟨9, 0⟩, 0, [[0, 0, 32, 64]]⟩]

def statusAndBattery : List Ask := [askStatus 7 0 none none, askData .battery 8 0]

/-- The status request comes in two packets, the data request when the status response has been
sent. -/
def downloadRun : List (Action (Sensor → List Chunk)) :=
  [.packet ((framedRequest (askStatus 7 0 none none).value).take 4) 7 ⟨7, 0⟩] ++
    List.replicate 4 (.dispatch .success) ++
    [.packet ((framedRequest (askStatus 7 0 none none).value).drop 4) 8 ⟨7, 1⟩] ++
    List.replicate 8 (.dispatch .success) ++
    [.packet (framedRequest (askData .battery 8 0).value) 9 ⟨7, 2⟩] ++
    List.replicate 16 (.dispatch .success)

/-- What the client hears of it, in one piece. -/
def downloadClient : Badge :=
  newClient (run (step (protocolLibraries batteryChunks)) (State.init fun _ => [])
    (.connect :: downloadRun)).wired

/-- Both calls return, the second with the two chunks. -/
theorem calls_answered_download :
    ∃ xs, (session statusAndBattery downloadClient).1 =
      [xs, batteryChunks.map (chunkValue .battery)] := by
  have hcoupled : Along (step (protocolLibraries batteryChunks)) (Coupled statusAndBattery)
      (State.init fun _ => []).onConnectCallback downloadRun := by decide +kernel
  have htest : ∀ a ∈ statusAndBattery, a.type ≠ .test := by decide
  obtain ⟨hrights, hall⟩ := calls_answered (protocolLibraries_finds batteryChunks)
    (protocolLibraries_speaks batteryChunks) htest (fun _ => []) hcoupled (by decide +kernel)
    (b := downloadClient) rfl rfl List.flatten_singleton
  have hlen := hall (by decide +kernel) (by decide +kernel)
    (fun e he => absurd he (by decide +revert +kernel)) (by decide +kernel)
  rw [hlen] at hrights
  generalize (session statusAndBattery downloadClient).1 = results at hrights
  cases hrights with
  | cons _ hrest =>
    cases hrest with
    | cons hdata hnil =>
      cases hnil
      exact ⟨_, by rw [hdata]⟩

end OpenBadge.Framework
