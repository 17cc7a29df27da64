import Mathlib.Algebra.Group.Nat.Defs
import Mathlib.Data.List.Basic
import OpenBadge.RetCode

/-!
# uart_lib.c: transmitting

`uart_transmit_bkgnd` and the TX_DONE branch of `uart_0_event_handler`. Data of more than
255 bytes is sent in parts, the first by the function and the others by the handler, each
when the one before is done. The driver takes an 8-bit length, accepts every call that it
does not answer with an error, and raises one TX_DONE event for it.
-/

namespace OpenBadge.Uart

/-- What the driver was told to send, and the report to the application. -/
inductive Entry where
  | tx (bytes : List UInt8)
  | transmitDone
  deriving DecidableEq, Repr

/-- The entries of peripheral 0 in the arrays of the library. `txData` is what
`p_remaining_data` points into, with the pointer as an offset, and `outstanding` are the
TX_DONE events that the driver has yet to raise. -/
structure State where
  operations : UInt8
  instanceTransmit : Bool
  handlerTransmit : Bool
  txData : List UInt8
  pRemainingData : Option Nat
  remainingDataLen : Nat
  outstanding : Nat
  log : List Entry

/-- `MAX_BYTES_PER_TRANSMIT_OPERATION`. -/
def maxBytesPerTransmitOperation : Nat := 255

/-- `UART_TRANSMIT_OPERATION`. -/
def transmitOperation : UInt8 := 1

namespace State

/-- The `UART_TRANSMIT_OPERATION` flag is set. -/
def transmitting (s : State) : Bool := s.operations &&& transmitOperation ≠ 0

def setTransmitting (s : State) : State := { s with operations := s.operations ||| transmitOperation }

def clearTransmitting (s : State) : State :=
  { s with operations := s.operations &&& ~~~transmitOperation }

/-- `nrf_drv_uart_tx`, with the length as a `uint8_t`. -/
def nrfDrvUartTx (p len : Nat) (s : State) : State :=
  { s with
    outstanding := s.outstanding + 1
    log := s.log ++ [.tx ((s.txData.drop p).take (len % 2 ^ 8))] }

/-- The call of the application's handler, if there is one. -/
def report (s : State) : State :=
  if s.handlerTransmit then { s with log := s.log ++ [.transmitDone] } else s

end State

/-- `uart_transmit_bkgnd`; `answer` is what the driver returns. -/
def uartTransmitBkgnd (answer : Except RetCode Unit) (uartHandler : Bool) (txData : List UInt8)
    (s : State) : Except RetCode Unit × State :=
  if s.transmitting then (.error .busy, s)
  else
    let s := { s.setTransmitting with
      instanceTransmit := true
      handlerTransmit := uartHandler
      txData := txData }
    let s :=
      if txData.length ≤ maxBytesPerTransmitOperation then
        { s with pRemainingData := none, remainingDataLen := 0 }
      else
        { s with
          pRemainingData := some maxBytesPerTransmitOperation
          remainingDataLen := txData.length - maxBytesPerTransmitOperation }
    let txDataLen :=
      if txData.length ≤ maxBytesPerTransmitOperation then txData.length
      else maxBytesPerTransmitOperation
    match answer with
    | .ok () => (.ok (), s.nrfDrvUartTx 0 txDataLen)
    | .error .forbidden => (.error .internal, s.clearTransmitting)
    | .error e => (.error e, s.clearTransmitting)

/-- The TX_DONE branch of `uart_0_event_handler`. -/
def uart0EventHandler (s : State) : State :=
  match s.pRemainingData with
  | some p =>
    if 0 < s.remainingDataLen then
      let t :=
        if s.remainingDataLen ≤ maxBytesPerTransmitOperation then
          { s with pRemainingData := none, remainingDataLen := 0 }
        else
          { s with
            pRemainingData := some (p + maxBytesPerTransmitOperation)
            remainingDataLen := s.remainingDataLen - maxBytesPerTransmitOperation }
      if t.instanceTransmit then t.nrfDrvUartTx p s.remainingDataLen else t
    else s.clearTransmitting.report
  | none => s.clearTransmitting.report

/-- The driver raises a TX_DONE event, if one is outstanding. -/
def txDone (s : State) : State :=
  if s.outstanding = 0 then s else uart0EventHandler { s with outstanding := s.outstanding - 1 }

/-! ## A transmission -/

/-- The flag is set and the driver is sending. -/
def State.Busy (s : State) : Prop := s.transmitting = true ∧ s.outstanding ≠ 0

def State.Idle (s : State) : Prop := s.transmitting = false ∧ s.outstanding = 0

/-- The report of a transmission with or without a handler. -/
def reports (uartHandler : Bool) : List Entry := if uartHandler then [.transmitDone] else []

/-- The TX_DONE events from now on: each but the last makes the next of the calls, and the last
reports that the transmission is done. Until then the flag is set. -/
def Follows (uartHandler : Bool) : State → List (List UInt8) → Prop
  | s, [] => s.Busy ∧ (txDone s).Idle ∧ (txDone s).log = s.log ++ reports uartHandler
  | s, bytes :: parts => s.Busy ∧ (txDone s).log = s.log ++ [.tx bytes] ∧
      Follows uartHandler (txDone s) parts

/-- The call that leads from `s` to `t` has started a transmission of exactly these bytes, in
parts of 1 to 255. -/
def Transmits (uartHandler : Bool) (s t : State) (data : List UInt8) : Prop :=
  ∃ first parts, t.log = s.log ++ [.tx first] ∧ Follows uartHandler t parts ∧
    (∀ bytes ∈ first :: parts, 1 ≤ bytes.length ∧ bytes.length ≤ maxBytesPerTransmitOperation) ∧
    (first :: parts).flatten = data

/-- The parts that the event handler hands to the driver. -/
def laterParts (rest : List UInt8) : List (List UInt8) :=
  if rest = [] then []
  else if rest.length ≤ maxBytesPerTransmitOperation then [rest]
  else rest.take (rest.length % 2 ^ 8) :: laterParts (rest.drop maxBytesPerTransmitOperation)
termination_by rest.length
decreasing_by
  rw [List.length_drop, maxBytesPerTransmitOperation] at *
  omega

/-- The driver is sending a part, and `rest` is still to be sent. -/
structure Sending (uartHandler : Bool) (s : State) (rest : List UInt8) : Prop where
  flag : s.transmitting = true
  handler : s.handlerTransmit = uartHandler
  outstanding : s.outstanding = 1
  hasInstance : s.instanceTransmit = true
  remaining : rest = [] ∧ s.pRemainingData = none ∨ rest ≠ [] ∧
    s.remainingDataLen = rest.length ∧ ∃ p, s.pRemainingData = some p ∧ s.txData.drop p = rest

theorem transmitting_set (operations : UInt8) :
    (operations ||| transmitOperation) &&& transmitOperation ≠ 0 := by
  have h : ∀ b : BitVec 8, (b ||| 1#8) &&& 1#8 ≠ 0#8 := by decide +kernel
  intro hz
  exact h operations.toBitVec (congrArg UInt8.toBitVec hz)

theorem transmitting_clear (operations : UInt8) :
    (operations &&& ~~~transmitOperation) &&& transmitOperation = 0 := by
  have h : ∀ b : BitVec 8, (b &&& ~~~1#8) &&& 1#8 = 0#8 := by decide +kernel
  exact UInt8.toBitVec_inj.mp (h operations.toBitVec)

variable {uartHandler : Bool} {s t : State} {rest data : List UInt8}

theorem Sending.busy (h : Sending uartHandler s rest) : s.Busy := ⟨h.flag, by simp [h.outstanding]⟩

/-- The last event ends the transmission. -/
theorem Sending.done (h : Sending uartHandler s []) : (txDone s).Idle ∧
    (txDone s).log = s.log ++ reports uartHandler := by
  have hnone : s.pRemainingData = none := by
    rcases h.remaining with ⟨-, hp⟩ | ⟨hne, -⟩
    · exact hp
    · exact absurd rfl hne
  have hrun : txDone s = ({ s with outstanding := 0 }.clearTransmitting).report := by
    simp [txDone, h.outstanding, uart0EventHandler, hnone]
  have hclear : (s.operations &&& ~~~transmitOperation) &&& transmitOperation = 0 :=
    transmitting_clear _
  rw [hrun]
  cases uartHandler with
  | true =>
    simp [State.report, State.clearTransmitting, State.Idle, State.transmitting, reports,
      h.handler, hclear]
  | false =>
    simp [State.report, State.clearTransmitting, State.Idle, State.transmitting, reports,
      h.handler, hclear]

/-- The last part is handed to the driver. -/
theorem Sending.last (h : Sending uartHandler s rest) (hne : rest ≠ [])
    (hle : rest.length ≤ maxBytesPerTransmitOperation) :
    Sending uartHandler (txDone s) [] ∧ (txDone s).log = s.log ++ [.tx rest] := by
  obtain ⟨hlen, p, hp, hdrop⟩ : s.remainingDataLen = rest.length ∧
      ∃ p, s.pRemainingData = some p ∧ s.txData.drop p = rest := by
    rcases h.remaining with ⟨hnil, -⟩ | ⟨-, hr⟩
    · exact absurd hnil hne
    · exact hr
  have hpos : 0 < rest.length := List.length_pos_of_ne_nil hne
  have hrun : txDone s = State.nrfDrvUartTx p rest.length
      { s with outstanding := 0, pRemainingData := none, remainingDataLen := 0 } := by
    simp [txDone, h.outstanding, uart0EventHandler, hp, hlen, hpos, hle, h.hasInstance]
  have hmod : rest.length % 2 ^ 8 = rest.length := by
    apply Nat.mod_eq_of_lt
    exact Nat.lt_of_le_of_lt hle (by decide)
  rw [hrun]
  constructor
  · exact ⟨h.flag, h.handler, rfl, h.hasInstance, .inl ⟨rfl, rfl⟩⟩
  · simp only [State.nrfDrvUartTx, hdrop, hmod, List.take_length]

/-- A part is handed to the driver with the length of all that remains, of which the driver
takes the low eight bits. -/
theorem Sending.next (h : Sending uartHandler s rest) (hlt : maxBytesPerTransmitOperation < rest.length) :
    Sending uartHandler (txDone s) (rest.drop maxBytesPerTransmitOperation) ∧
    (txDone s).log = s.log ++ [.tx (rest.take (rest.length % 2 ^ 8))] := by
  have hpos : 0 < rest.length := Nat.zero_lt_of_lt hlt
  obtain ⟨hlen, p, hp, hdrop⟩ : s.remainingDataLen = rest.length ∧
      ∃ p, s.pRemainingData = some p ∧ s.txData.drop p = rest := by
    rcases h.remaining with ⟨hnil, -⟩ | ⟨-, hr⟩
    · rw [hnil] at hpos
      exact absurd hpos (Nat.lt_irrefl 0)
    · exact hr
  have hrun : txDone s = State.nrfDrvUartTx p rest.length { s with
      outstanding := 0
      pRemainingData := some (p + maxBytesPerTransmitOperation)
      remainingDataLen := rest.length - maxBytesPerTransmitOperation } := by
    simp [txDone, h.outstanding, uart0EventHandler, hp, hlen, hpos, Nat.not_le.mpr hlt,
      h.hasInstance]
  have hrest : rest.drop maxBytesPerTransmitOperation ≠ [] := by
    intro hnil
    have := List.drop_eq_nil_iff.mp hnil
    omega
  have hdrop' : s.txData.drop (p + maxBytesPerTransmitOperation) =
      rest.drop maxBytesPerTransmitOperation := by
    rw [← hdrop, List.drop_drop]
  rw [hrun]
  constructor
  · exact ⟨h.flag, h.handler, rfl, h.hasInstance,
      .inr ⟨hrest, by simp [State.nrfDrvUartTx], _, rfl, hdrop'⟩⟩
  · simp only [State.nrfDrvUartTx, hdrop]

/-- From the events on, the driver is handed the later parts and nothing else. -/
theorem follows_laterParts (rest : List UInt8) {s : State} (h : Sending uartHandler s rest) :
    Follows uartHandler s (laterParts rest) := by
  induction rest using laterParts.induct generalizing s with
  | case1 =>
    rw [laterParts, if_pos rfl]
    exact ⟨h.busy, h.done⟩
  | case2 rest hne hle =>
    obtain ⟨hlast, hlog⟩ := h.last hne hle
    rw [laterParts, if_neg hne, if_pos hle]
    exact ⟨h.busy, hlog, hlast.busy, hlast.done⟩
  | case3 rest hne hle ih =>
    obtain ⟨hnext, hlog⟩ := h.next (Nat.lt_of_not_le hle)
    rw [laterParts, if_neg hne, if_neg hle]
    exact ⟨h.busy, hlog, ih hnext⟩

/-- The events leave no choice. -/
theorem Follows.unique {parts parts' : List (List UInt8)} {s : State} (h : Follows uartHandler s parts)
    (h' : Follows uartHandler s parts') : parts = parts' := by
  induction parts generalizing parts' s with
  | nil =>
    cases parts' with
    | nil => rfl
    | cons bytes parts' =>
      have hbusy : (txDone s).Busy := by
        cases parts' <;> exact h'.2.2.1
      exact absurd h.2.1.2 hbusy.2
  | cons bytes parts ih =>
    cases parts' with
    | nil =>
      have hbusy : (txDone s).Busy := by
        cases parts <;> exact h.2.2.1
      exact absurd h'.2.1.2 hbusy.2
    | cons bytes' parts' =>
      have hlog := h.2.1.symm.trans h'.2.1
      have hbytes : bytes = bytes' := by simpa using hlog
      rw [hbytes, ih h.2.2 h'.2.2]

/-! ## The lengths -/

/-- The driver is never handed more bytes than there are, and fewer as soon as more than 255
bytes remain. -/
theorem laterParts_length (rest : List UInt8) :
    (laterParts rest).flatten.length ≤ rest.length ∧
    (maxBytesPerTransmitOperation < rest.length →
      (laterParts rest).flatten.length < rest.length) := by
  induction rest using laterParts.induct with
  | case1 =>
    rw [laterParts, if_pos rfl]
    simp
  | case2 rest hne hle =>
    rw [laterParts, if_neg hne, if_pos hle]
    simp only [List.flatten_cons, List.flatten_nil, List.append_nil]
    exact ⟨Nat.le_refl _, fun hlt => absurd hle (Nat.not_le.mpr hlt)⟩
  | case3 rest hne hle ih =>
    have hmod : rest.length % 2 ^ 8 ≤ rest.length := Nat.mod_le _ _
    rw [laterParts, if_neg hne, if_neg hle]
    rw [List.length_drop] at ih
    simp only [List.flatten_cons, List.length_append, List.length_take, Nat.min_eq_left hmod]
    -- A part of 255 bytes leaves a multiple of 256, of which the next part takes nothing.
    rw [maxBytesPerTransmitOperation] at *
    omega

/-- The call hands the first 255 bytes to the driver. -/
theorem uartTransmitBkgnd_sending (h : s.Idle) (uartHandler : Bool) (data : List UInt8) :
    (uartTransmitBkgnd (.ok ()) uartHandler data s).1 = .ok () ∧
    (uartTransmitBkgnd (.ok ()) uartHandler data s).2.log =
      s.log ++ [.tx (data.take maxBytesPerTransmitOperation)] ∧
    Sending uartHandler (uartTransmitBkgnd (.ok ()) uartHandler data s).2
      (data.drop maxBytesPerTransmitOperation) := by
  have hflag : s.setTransmitting.transmitting = true :=
    decide_eq_true (transmitting_set s.operations)
  by_cases hle : data.length ≤ maxBytesPerTransmitOperation
  · have hmod : data.length % 2 ^ 8 = data.length := by
      apply Nat.mod_eq_of_lt
      exact Nat.lt_of_le_of_lt hle (by decide)
    have hrun : uartTransmitBkgnd (.ok ()) uartHandler data s = (.ok (),
        State.nrfDrvUartTx 0 data.length { s.setTransmitting with
          instanceTransmit := true
          handlerTransmit := uartHandler
          txData := data
          pRemainingData := none
          remainingDataLen := 0 }) := by
      simp [uartTransmitBkgnd, h.1, hle]
    rw [hrun, List.drop_of_length_le hle, List.take_of_length_le hle]
    constructor
    · rfl
    constructor
    · simp only [State.nrfDrvUartTx, List.drop_zero, hmod, List.take_length]
      rfl
    · exact ⟨hflag, rfl, congrArg (· + 1) h.2, rfl, .inl ⟨rfl, rfl⟩⟩
  · have hrun : uartTransmitBkgnd (.ok ()) uartHandler data s = (.ok (),
        State.nrfDrvUartTx 0 maxBytesPerTransmitOperation { s.setTransmitting with
          instanceTransmit := true
          handlerTransmit := uartHandler
          txData := data
          pRemainingData := some maxBytesPerTransmitOperation
          remainingDataLen := data.length - maxBytesPerTransmitOperation }) := by
      simp [uartTransmitBkgnd, h.1, hle]
    have hrest : data.drop maxBytesPerTransmitOperation ≠ [] := by
      intro hnil
      exact hle (List.drop_eq_nil_iff.mp hnil)
    rw [hrun]
    constructor
    · rfl
    constructor
    · rfl
    · exact ⟨hflag, rfl, congrArg (· + 1) h.2, rfl,
        .inr ⟨hrest, by simp [State.nrfDrvUartTx], _, rfl, rfl⟩⟩

/-- Data that fits into two parts is sent as it is. -/
theorem parts_of_le (hle : data.length ≤ 510) (hdata : data ≠ []) :
    (∀ bytes ∈ data.take maxBytesPerTransmitOperation ::
      laterParts (data.drop maxBytesPerTransmitOperation),
      1 ≤ bytes.length ∧ bytes.length ≤ maxBytesPerTransmitOperation) ∧
    (data.take maxBytesPerTransmitOperation ::
      laterParts (data.drop maxBytesPerTransmitOperation)).flatten = data := by
  have hpos : 0 < data.length := List.length_pos_of_ne_nil hdata
  have hfirst : 1 ≤ (data.take maxBytesPerTransmitOperation).length ∧
      (data.take maxBytesPerTransmitOperation).length ≤ maxBytesPerTransmitOperation := by
    rw [List.length_take, maxBytesPerTransmitOperation]
    omega
  have hlength : (data.drop maxBytesPerTransmitOperation).length ≤
      maxBytesPerTransmitOperation := by
    rw [List.length_drop, maxBytesPerTransmitOperation]
    omega
  rw [laterParts]
  by_cases hrest : data.drop maxBytesPerTransmitOperation = []
  · rw [if_pos hrest]
    have hall : data.take maxBytesPerTransmitOperation = data :=
      List.take_of_length_le (List.drop_eq_nil_iff.mp hrest)
    constructor
    · intro bytes hmem
      rw [List.mem_singleton.mp hmem]
      exact hfirst
    · simp [hall]
  · rw [if_neg hrest, if_pos hlength]
    constructor
    · intro bytes hmem
      rcases List.mem_cons.mp hmem with hb | hb
      · rw [hb]
        exact hfirst
      · rw [List.mem_singleton.mp hb]
        exact ⟨List.length_pos_of_ne_nil hrest, hlength⟩
    · simp

theorem transmits_iff (h : s.Idle) (uartHandler : Bool) (hdata : data ≠ []) :
    Transmits uartHandler s (uartTransmitBkgnd (.ok ()) uartHandler data s).2 data ↔
      data.length ≤ 510 := by
  obtain ⟨-, hlog, hsending⟩ := uartTransmitBkgnd_sending h uartHandler data
  have hfollows := follows_laterParts _ hsending
  constructor
  · intro htransmits
    obtain ⟨first, parts, hfirst, hparts, -, hflat⟩ := htransmits
    have hbytes : first = data.take maxBytesPerTransmitOperation := by
      simpa using hfirst.symm.trans hlog
    rw [hparts.unique hfollows, hbytes] at hflat
    have hlength := congrArg List.length hflat
    have hshort := (laterParts_length (data.drop maxBytesPerTransmitOperation)).2
    rw [List.flatten_cons, List.length_append, List.length_take] at hlength
    rw [List.length_drop] at hshort
    rw [maxBytesPerTransmitOperation] at hlength hshort
    omega
  · intro hle
    obtain ⟨hsizes, hflat⟩ := parts_of_le hle hdata
    exact ⟨_, _, hlog, hfollows, hsizes, hflat⟩

/-- Data is transmitted completely exactly when it fits into two parts: the event handler hands
all that remains to the driver, whose length has eight bits. -/
theorem uart_transmit_complete_iff (h : s.Idle) (uartHandler : Bool) (hdata : data ≠ []) :
    (uartTransmitBkgnd (.ok ()) uartHandler data s).1 = .ok () ∧
    (Transmits uartHandler s (uartTransmitBkgnd (.ok ()) uartHandler data s).2 data ↔
      data.length ≤ 510) :=
  ⟨(uartTransmitBkgnd_sending h uartHandler data).1, transmits_iff h uartHandler hdata⟩

/-- After `uart_init`. -/
def State.init : State where
  operations := 0
  instanceTransmit := false
  handlerTransmit := false
  txData := []
  pRemainingData := none
  remainingDataLen := 0
  outstanding := 0
  log := []

theorem State.idle_init : State.init.Idle := ⟨by decide, rfl⟩

theorem replicate_ne_nil (n : Nat) (b : UInt8) : List.replicate (n + 1) b ≠ [] :=
  List.cons_ne_nil _ _

theorem uart_transmit_complete_iff_two_parts :
    Transmits true .init (uartTransmitBkgnd (.ok ()) true (List.replicate 300 7) .init).2
      (List.replicate 300 7) := by
  have hle : (List.replicate 300 (7 : UInt8)).length ≤ 510 := by
    rw [List.length_replicate]
    decide
  exact (uart_transmit_complete_iff State.idle_init true (replicate_ne_nil 299 7)).2.mpr hle

/-- Of 511 bytes the event handler has 256 left, and the driver takes none of them. -/
theorem uart_transmit_loses_bytes :
    ¬ Transmits true .init (uartTransmitBkgnd (.ok ()) true (List.replicate 511 7) .init).2
      (List.replicate 511 7) ∧
    (txDone (uartTransmitBkgnd (.ok ()) true (List.replicate 511 7) .init).2).log =
      [.tx (List.replicate 255 7), .tx []] := by
  constructor
  · rw [transmits_iff State.idle_init true (replicate_ne_nil 510 7), List.length_replicate]
    decide
  · decide +kernel

end OpenBadge.Uart
