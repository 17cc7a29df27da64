import OpenBadge.Lib.Proc
import Mathlib.Data.List.Basic

/-!
# ble_badge_connection.py

Every notification of the radio puts its bytes into `rx_queue`, and `await_data` takes
bytes out until it has as many as it was asked for. The notifications that are still to
come are part of the state: how the bytes are cut into notifications makes no difference.
-/

namespace OpenBadge.Framework

open OpenBadge.Lib

/-- How a call of the client can end other than with a result. A call `waits` when what it
waits for never comes. -/
inductive Failure where
  | waits
  | runtimeError
  | typeError
  | valueError
  | structError
  | notEnoughBytes
  | indexError
  | keyError
  deriving DecidableEq, Repr

structure Connection where
  /-- `ble_device` is set. -/
  connected : Bool
  rxQueue : List UInt8
  /-- What `waitForNotifications` is going to deliver. -/
  incoming : List (List UInt8)
  /-- What was written to the characteristic. -/
  sent : List (List UInt8)
  deriving DecidableEq, Repr

/-- The bytes that have not been read. -/
def Connection.stream (c : Connection) : List UInt8 := c.rxQueue ++ c.incoming.flatten

/-- `while(not self.rx_queue.empty()):`, with the message and the queue behind it. -/
def takeQueued (expected : Nat) : List UInt8 → List UInt8 → List UInt8 × List UInt8
  | message, [] => (message, [])
  | message, b :: queue =>
    if (message ++ [b]).length = expected then (message ++ [b], queue)
    else takeQueued expected (message ++ [b]) queue

/-- `while True:`, with what is left of the queue and of the notifications. -/
def receiveFrom (expected : Nat) : List UInt8 → List UInt8 → List (List UInt8) →
    Option (List UInt8 × List UInt8 × List (List UInt8))
  | message, queue, [] =>
    let taken := takeQueued expected message queue
    if taken.1.length = expected then some (taken.1, taken.2, []) else none
  | message, queue, data :: incoming =>
    let taken := takeQueued expected message queue
    if taken.1.length = expected then some (taken.1, taken.2, data :: incoming)
    else receiveFrom expected taken.1 (taken.2 ++ data) incoming

def receive (expected : Nat) : Proc Connection Failure (List UInt8) := fun c =>
  match receiveFrom expected [] c.rxQueue c.incoming with
  | some (message, rxQueue, incoming) => (.ok message, { c with rxQueue, incoming })
  | none => (.error .waits, c)

/-- The loop is not entered for no bytes, and `None` is returned. -/
def receiveSome (expected : Nat) : Proc Connection Failure (Option (List UInt8)) :=
  if expected > 0 then do
    let message ← receive expected
    pure (some message)
  else pure none

/-- `await_data` -/
def awaitData (dataLen : Nat) : Proc Connection Failure (Option (List UInt8)) := do
  let c ← Proc.get
  Proc.failIf (c.connected = false) .runtimeError
  receiveSome dataLen

/-- `send` -/
def send (message : List UInt8) (responseLen : Nat) :
    Proc Connection Failure (Option (List UInt8)) := do
  let c ← Proc.get
  Proc.failIf (c.connected = false) .runtimeError
  Proc.modify fun c => { c with sent := c.sent ++ [message] }
  receiveSome responseLen

theorem takeQueued_eq {expected : Nat} (queue : List UInt8) :
    ∀ {message : List UInt8}, message.length < expected → takeQueued expected message queue =
      (message ++ queue.take (expected - message.length),
        queue.drop (expected - message.length)) := by
  induction queue with
  | nil =>
    intro message _
    rw [takeQueued, List.take_nil, List.drop_nil, List.append_nil]
  | cons b queue ih =>
    intro message h
    have hlen : (message ++ [b]).length = message.length + 1 := List.length_append
    obtain ⟨n, hn⟩ : ∃ n, expected - message.length = n + 1 :=
      ⟨expected - message.length - 1, by omega⟩
    rw [takeQueued, hn, List.take_succ_cons, List.drop_succ_cons]
    by_cases hfull : (message ++ [b]).length = expected
    · have hzero : n = 0 := by omega
      rw [if_pos hfull, hzero]
      rfl
    · have hlt : (message ++ [b]).length < expected := by omega
      have hsub : expected - (message ++ [b]).length = n := by omega
      rw [if_neg hfull, ih hlt, hsub, List.append_assoc]
      rfl

/-- The queue is emptied and the message not complete. -/
theorem receiveFrom_next {expected : Nat} {message queue : List UInt8}
    (hlt : message.length + queue.length < expected) (data : List UInt8)
    (incoming : List (List UInt8)) : receiveFrom expected message queue (data :: incoming) =
      receiveFrom expected (message ++ queue) data incoming := by
  have htake : queue.take (expected - message.length) = queue :=
    List.take_of_length_le (by omega)
  have hdrop : queue.drop (expected - message.length) = [] := List.drop_eq_nil_of_le (by omega)
  have hlen : (message ++ queue).length = message.length + queue.length := List.length_append
  have hne : ¬ (message ++ queue).length = expected := by omega
  rw [receiveFrom, takeQueued_eq queue (by omega), htake, hdrop, List.nil_append]
  exact if_neg hne

/-- The queue holds what is missing. -/
theorem receiveFrom_done {expected : Nat} {message queue : List UInt8}
    (h : message.length < expected) (hle : expected ≤ message.length + queue.length)
    (incoming : List (List UInt8)) : receiveFrom expected message queue incoming =
      some (message ++ queue.take (expected - message.length),
        queue.drop (expected - message.length), incoming) := by
  have hlen : (message ++ queue.take (expected - message.length)).length = expected := by
    rw [List.length_append, List.length_take]
    omega
  cases incoming with
  | nil =>
    rw [receiveFrom, takeQueued_eq queue h]
    exact if_pos hlen
  | cons data incoming =>
    rw [receiveFrom, takeQueued_eq queue h]
    exact if_pos hlen

/-- The message is the front of what is queued and what comes, and the rest stays. -/
theorem receiveFrom_some {expected : Nat} (incoming : List (List UInt8)) :
    ∀ {message queue : List UInt8}, message.length < expected →
      expected ≤ message.length + (queue ++ incoming.flatten).length →
      ∃ queue' incoming', receiveFrom expected message queue incoming =
          some (message ++ (queue ++ incoming.flatten).take (expected - message.length),
            queue', incoming') ∧
        queue' ++ incoming'.flatten =
          (queue ++ incoming.flatten).drop (expected - message.length) := by
  induction incoming with
  | nil =>
    intro message queue h hle
    rw [List.flatten_nil, List.append_nil] at hle ⊢
    exact ⟨_, _, receiveFrom_done h hle [], List.append_nil _⟩
  | cons data incoming ih =>
    intro message queue h hle
    rw [List.flatten_cons] at hle ⊢
    rw [List.length_append, List.length_append] at hle
    by_cases hq : expected ≤ message.length + queue.length
    · refine ⟨queue.drop (expected - message.length), data :: incoming, ?_, ?_⟩
      · rw [List.take_append_of_le_length (by omega)]
        exact receiveFrom_done h hq _
      · rw [List.drop_append_of_le_length (by omega), List.flatten_cons]
    · have hlen : (message ++ queue).length = message.length + queue.length :=
        List.length_append
      have hlt : (message ++ queue).length < expected := by omega
      have hdata : expected ≤ (message ++ queue).length + (data ++ incoming.flatten).length := by
        rw [hlen, List.length_append]
        omega
      obtain ⟨queue', incoming', hsome, hrest⟩ := ih hlt hdata
      have hsub : expected - message.length =
          queue.length + (expected - (message ++ queue).length) := by omega
      refine ⟨queue', incoming', ?_, ?_⟩
      · rw [receiveFrom_next (Nat.lt_of_not_le hq), hsome, hsub, List.take_length_add_append,
          List.append_assoc]
      · rw [hrest, hsub, List.drop_length_add_append]

theorem receiveFrom_none {expected : Nat} (incoming : List (List UInt8)) :
    ∀ {message queue : List UInt8},
      message.length + (queue ++ incoming.flatten).length < expected →
      receiveFrom expected message queue incoming = none := by
  induction incoming with
  | nil =>
    intro message queue hlt
    rw [List.flatten_nil, List.append_nil] at hlt
    have hm : message.length < expected := by omega
    rw [receiveFrom, takeQueued_eq queue hm]
    refine if_neg ?_
    rw [List.length_append, List.length_take]
    omega
  | cons data incoming ih =>
    intro message queue hlt
    rw [List.flatten_cons, List.length_append, List.length_append] at hlt
    have hnext : message.length + queue.length < expected := by omega
    rw [receiveFrom_next hnext]
    refine ih ?_
    rw [List.length_append, List.length_append]
    omega

/-- The same connection with other bytes in front of the reader. -/
def Connection.Reads (c c' : Connection) (rest : List UInt8) : Prop :=
  c'.stream = rest ∧ c'.connected = c.connected ∧ c'.sent = c.sent

theorem receive_ok {c : Connection} {n : Nat} (hn : 0 < n) {d rest : List UInt8}
    (hlen : d.length = n) (hs : c.stream = d ++ rest) :
    ∃ c', receive n c = (.ok d, c') ∧ c.Reads c' rest := by
  have hle : n ≤ ([] : List UInt8).length + (c.rxQueue ++ c.incoming.flatten).length := by
    have hstream : (c.rxQueue ++ c.incoming.flatten).length = d.length + rest.length :=
      (congrArg List.length hs).trans List.length_append
    rw [hstream]
    omega
  obtain ⟨queue, incoming, hsome, hrest⟩ := receiveFrom_some c.incoming hn hle
  have hc : c.rxQueue ++ c.incoming.flatten = d ++ rest := hs
  rw [hc, List.length_nil, Nat.sub_zero, ← hlen, List.take_left, List.nil_append] at hsome
  rw [hc, List.length_nil, Nat.sub_zero, ← hlen, List.drop_left] at hrest
  refine ⟨{ c with rxQueue := queue, incoming }, ?_, hrest, rfl, rfl⟩
  rw [receive, ← hlen, hsome]

theorem receive_waits {c : Connection} {n : Nat} (hlt : c.stream.length < n) :
    receive n c = (.error .waits, c) := by
  have hnone : receiveFrom n [] c.rxQueue c.incoming = none :=
    receiveFrom_none c.incoming (by rw [List.length_nil, Nat.zero_add]; exact hlt)
  rw [receive, hnone]

/-- However the bytes come in: `await_data` returns the next ones, in their order. -/
theorem awaitData_ok {c : Connection} (hc : c.connected = true) {n : Nat} (hn : 0 < n)
    {d rest : List UInt8} (hlen : d.length = n) (hs : c.stream = d ++ rest) :
    ∃ c', awaitData n c = (.ok (some d), c') ∧ c.Reads c' rest := by
  obtain ⟨c', hreceive, hreads⟩ := receive_ok hn hlen hs
  refine ⟨c', ?_, hreads⟩
  rw [awaitData, Proc.get_bind_apply, Proc.failIf_bind_neg (by simp [hc]), receiveSome, if_pos hn,
    Proc.bind_ok hreceive]
  rfl

theorem awaitData_waits {c : Connection} (hc : c.connected = true) {n : Nat}
    (hlt : c.stream.length < n) : awaitData n c = (.error .waits, c) := by
  rw [awaitData, Proc.get_bind_apply, Proc.failIf_bind_neg (by simp [hc]), receiveSome,
    if_pos (Nat.lt_of_le_of_lt (Nat.zero_le _) hlt)]
  exact Proc.bind_error (receive_waits hlt) _

end OpenBadge.Framework
