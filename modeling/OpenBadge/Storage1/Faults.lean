import OpenBadge.Storage1.Store
import OpenBadge.Lib.Run

/-!
# Stores after failed flash calls

`storage1_compute_pages_to_erase` enters the end address of a store in the table
before anything is erased. When the erase then fails, the entry vouches for bytes
that were never blanked, and a later store behind it on the same page is
programmed over them. A failure at any later point is harmless, since the page of
the end address is blank behind it by then.
-/

namespace OpenBadge.Storage1

open OpenBadge.Lib

variable {c : Config}

/-- The arguments of `storage1_store`: a 32-bit address, and a buffer no larger
than an object of a 32-bit processor can be. -/
structure Call where
  address : Nat
  data : List UInt8
  address_lt : address < 2 ^ 32
  length_lt : data.length < 2 ^ 31

/-- The address of the last byte of a call. -/
def Call.last (call : Call) : Nat := call.address + call.data.length - 1

/-- The state after a call, whatever it returned. -/
def stepStore (c : Config) (s : State) (call : Call) : State :=
  (store c call.address call.data s).2

/-- The bytes behind `last` on its page are blank. -/
def BlankBehind (c : Config) (s : State) (last : Nat) : Prop :=
  ∀ x, last < x → x / getUnitSize c = last / getUnitSize c → byteAt s.cells x = 0xFF

/-- A call whose first flash call succeeds, or behind whose data the last page is
blank already. A call out of range and a call without data use no flash. -/
def Harmless (c : Config) (s : State) (call : Call) : Prop :=
  call.address + call.data.length ≤ getSize c → call.data ≠ [] →
    s.fault s.calls ≠ none → BlankBehind c s call.last

/-- Whatever flash calls fail from now on, a store that returns success reads back. -/
def ReadsBack (c : Config) (s : State) : Prop :=
  ∀ (fault : Nat → Option RetCode) (call : Call) (t : State),
    store c call.address call.data { s with fault := fault } = (.ok (), t) →
    read c call.address call.data.length t = (.ok call.data, t)

/-- The invariant over flash that fails. -/
structure Consistent (c : Config) (s : State) : Prop where
  table : TableSound c s
  length : s.lastStored.length = c.lastStoredSize

/-- An out-of-range call returns an error and changes nothing. -/
theorem store_out_of_range (s : State) (call : Call)
    (h : getSize c < call.address + call.data.length) :
    ∃ e, store c call.address call.data s = (.error e, s) := by
  have hsize : getSize c < 2 ^ 31 := c.size_lt
  have hunit : getUnitSize c ≤ getSize c := by
    unfold getUnitSize getSize
    have := Nat.le_mul_of_pos_right c.pageSizeWords c.numPages_pos
    omega
  have haddress := call.address_lt
  have hlength := call.length_lt
  unfold store
  by_cases hcheck : getSize c < (call.address + call.data.length) % 2 ^ 32
  · exact ⟨_, Proc.failIf_bind_pos hcheck _ _ s⟩
  have hfar : 2 ^ 31 < call.address := by omega
  rw [Proc.failIf_bind_neg hcheck, if_neg (by omega), getPageAddress, if_pos (by omega)]
  refine ⟨_, Proc.failIf_bind_pos ?_ _ _ s⟩
  change getUnitSize c < _
  omega

theorem outcome_of_call {s : State} (hs : Consistent c s) (call : Call) :
    (∃ e, store c call.address call.data s = (.error e, s)) ∨
    (call.data = [] ∧ call.address ≤ getSize c ∧
      store c call.address call.data s = (.ok (), s)) ∨
    (call.address + call.data.length ≤ getSize c ∧ call.data ≠ [] ∧
      Outcome c s call.address call.data (store c call.address call.data s)) := by
  rcases Nat.lt_or_ge (getSize c) (call.address + call.data.length) with hout | hin
  · exact Or.inl (store_out_of_range s call hout)
  by_cases h0 : call.data = []
  · rw [h0] at hin ⊢
    exact Or.inr (Or.inl ⟨rfl, hin, store_nil s call.address hin⟩)
  · exact Or.inr (Or.inr ⟨hin, h0, store_outcome hs.table (List.length_pos_iff.mpr h0) hin⟩)

/-- A sound entry off the touched pages stays sound. -/
theorem sound_of_off {s t : State} {address last : Nat} {e : Int} (h : Sound c s.cells e)
    (hoff : ¬ (address / getUnitSize c ≤ getPageAddress c e.toNat ∧
      getPageAddress c e.toNat ≤ last / getUnitSize c))
    (hcells : ∀ x, (x / getUnitSize c < address / getUnitSize c ∨
      last / getUnitSize c < x / getUnitSize c) → byteAt t.cells x = byteAt s.cells x) :
    Sound c t.cells e := by
  rcases h with h | ⟨a, rfl, ha, hblank⟩
  · exact Or.inl h
  · rw [Int.toNat_natCast, getPageAddress_eq ha] at hoff
    refine Or.inr ⟨a, rfl, ha, ?_⟩
    intro x hx hpage
    rw [hcells x (by omega)]
    exact hblank x hx hpage

theorem stepStore_consistent (s : State) (call : Call) (hs : Consistent c s)
    (hcall : Harmless c s call) : Consistent c (stepStore c s call) := by
  unfold stepStore
  rcases outcome_of_call hs call with ⟨e, h⟩ | ⟨-, -, h⟩ | ⟨hin, h0, hout⟩
  · rw [h]
    exact hs
  · rw [h]
    exact hs
  have hlen : 0 < call.data.length := List.length_pos_iff.mpr h0
  constructor
  · intro e he
    rw [hout.lastStored] at he
    rcases hout.effect with ⟨err, -, hfault, hcells⟩ | hwrote
    · rw [hcells]
      rcases remembered_entries he with h | h | ⟨hmem, -⟩
      · exact Or.inl h
      · refine Or.inr ⟨_, h, by omega, ?_⟩
        exact hcall hin h0 (by rw [hfault]; simp)
      · exact hs.table e hmem
    · rcases remembered_entries he with h | h | ⟨hmem, hoff⟩
      · exact Or.inl h
      · exact Or.inr ⟨_, h, by omega, hwrote.behind⟩
      · exact sound_of_off (hs.table e hmem) hoff hwrote.off
  · rw [hout.lastStored, remembered_length]
    exact hs.length

theorem Consistent.readsBack {s : State} (hs : Consistent c s) : ReadsBack c s := by
  intro fault call t h
  rcases outcome_of_call (s := { s with fault := fault }) ⟨hs.table, hs.length⟩ call with
    ⟨e, herror⟩ | ⟨h0, hin, -⟩ | ⟨hin, h0, hout⟩
  · rw [herror] at h
    exact absurd (congrArg Prod.fst h) (by simp)
  · rw [h0, List.length_nil, read_ok hin]
    rfl
  rw [h] at hout
  rcases hout.effect with ⟨e, herror, -⟩ | hwrote
  · exact absurd herror (by simp)
  rw [read_ok hin]
  have hdata : slice (byteAt t.cells) call.address call.data.length = call.data := by
    apply slice_eq_iff.mpr
    intro i hi
    rw [hwrote.bytes rfl, stored, if_pos (by omega), Nat.add_sub_cancel_left,
      List.getD_eq_getElem?_getD, List.getElem?_eq_getElem hi, Option.getD_some]
  rw [hdata]

/-- An entry with a byte behind it that is not blank spoils the store of a byte of
ones there: no page is erased, and the byte stays as it is. -/
theorem stale_entry_misread {s : State} (hs : Ideal s) {last x : Nat}
    (hlast : (last : Int) ∈ s.lastStored) (hin : x < getSize c) (hx : last < x)
    (hpage : x / getUnitSize c = last / getUnitSize c) (hbyte : byteAt s.cells x ≠ 0xFF) :
    ∃ t, store c x [0xFF] s = (.ok (), t) ∧ read c x 1 t ≠ (.ok [0xFF], t) := by
  have hone : x + [(0xFF : UInt8)].length ≤ getSize c := by
    rw [List.length_singleton]
    omega
  have hkeep : (planned c s x 1).2 =
      ⟨x / getUnitSize c + 1, (x + 1 - 1) / getUnitSize c + 1 - x / getUnitSize c - 1⟩ := by
    apply planned_keeps
    refine ⟨last, hlast, by omega, ?_, by omega⟩
    rw [Int.toNat_natCast, getPageAddress_eq (by omega), hpage]
  have hnum : (x + 1 - 1) / getUnitSize c + 1 - x / getUnitSize c - 1 = 0 := by
    rw [Nat.add_sub_cancel]
    omega
  rw [hnum] at hkeep
  have hstored : Ideal { s with lastStored := remembered c s x 1 } := hs
  obtain ⟨t, ht, hp⟩ := storeUint8AsUint32_programs c hstored hone
  refine ⟨t, ?_, ?_⟩
  · rw [store_phases (by decide) hone, List.length_singleton, hkeep, Proc.when_neg (by simp),
      Proc.when_neg (by simp)]
    exact ht
  · intro hread
    rw [read_ok (by rw [List.length_singleton] at hone; exact hone)] at hread
    have hslice : slice (byteAt t.cells) x 1 = [0xFF] := Except.ok.inj (congrArg Prod.fst hread)
    have hbyte' : byteAt t.cells x = 0xFF := List.head_eq_of_cons_eq hslice
    have hoffer : offer x [0xFF] x = 0xFF := by
      rw [offer_eq_getD (Nat.le_refl x) (by rw [List.length_singleton]; omega), Nat.sub_self]
      rfl
    rw [hp.bytes, hoffer, and_ones] at hbyte'
    exact hbyte hbyte'

theorem not_readsBack {s : State} {last x : Nat} (hlast : (last : Int) ∈ s.lastStored)
    (hin : x < getSize c) (hx : last < x) (hpage : x / getUnitSize c = last / getUnitSize c)
    (hbyte : byteAt s.cells x ≠ 0xFF) : ¬ ReadsBack c s := by
  have hsize : getSize c < 2 ^ 31 := c.size_lt
  intro hreads
  obtain ⟨t, hstore, hread⟩ := stale_entry_misread s.unfailing_ideal hlast hin hx hpage hbyte
  exact hread (hreads (fun _ => none) ⟨x, [0xFF], by omega, by decide⟩ t hstore)

/-- A failed erase leaves the cells as they were and the new table. -/
theorem store_erase_fails {s : State} {address : Nat} {data : List UInt8} {e : RetCode}
    (hlen : 0 < data.length) (hin : address + data.length ≤ getSize c)
    (hnum : 0 < (planned c s address data.length).2.eraseNum) (hfault : s.fault s.calls = some e) :
    store c address data s = (.error e, { s with
      lastStored := remembered c s address data.length, calls := s.calls + 1 }) := by
  rw [store_phases hlen hin, Proc.when_pos hnum]
  apply Proc.bind_error
  unfold flashErase withFault
  dsimp only
  rw [hfault]

/-- Addresses on the page of an address of the storage are in the storage. -/
theorem lt_size_of_page {x last : Nat} (hlast : last < getSize c)
    (hpage : x / getUnitSize c = last / getUnitSize c) : x < getSize c := by
  have hsize : getSize c = c.numPages * getUnitSize c := by
    unfold getSize getUnitSize
    ring
  rw [hsize] at hlast ⊢
  rw [← Nat.div_lt_iff_lt_mul (unit_pos c)] at hlast ⊢
  rw [hpage]
  exact hlast

theorem harmless_of_readsBack {s : State} (hs : Consistent c s) {call : Call}
    (h : ReadsBack c (stepStore c s call)) : Harmless c s call := by
  intro hin h0 hfault x hx hpage
  have hlen : 0 < call.data.length := List.length_pos_iff.mpr h0
  have hmono : call.address / getUnitSize c ≤ call.last / getUnitSize c :=
    Nat.div_le_div_right (by unfold Call.last; omega)
  obtain ⟨e, hfails⟩ := Option.ne_none_iff_exists'.mp hfault
  by_cases hnum : 0 < (planned c s call.address call.data.length).2.eraseNum
  · by_contra hbyte
    have hopen : call.last % getUnitSize c ≠ getUnitSize c - 1 := by
      intro hclose
      have hdiv := Nat.div_add_mod call.last (getUnitSize c)
      have hdiv' := Nat.div_add_mod x (getUnitSize c)
      have hlt := Nat.mod_lt x (unit_pos c)
      rw [hpage] at hdiv'
      omega
    have hmem : (call.last : Int) ∈ remembered c s call.address call.data.length := by
      apply mem_remembered _ hopen
      rw [hs.length]
      exact c.lastStoredSize_pos
    have hsize := lt_size_of_page (c := c) (show call.last < getSize c by unfold Call.last; omega)
      hpage
    unfold stepStore at h
    rw [store_erase_fails hlen hin hnum hfails] at h
    exact absurd h (not_readsBack hmem hsize hx hpage hbyte)
  · rcases planned_plan (s := s) hmono with hplan | ⟨hplan, e, he, hfree, hepage, hlt⟩
    · rw [Call.last] at hmono
      rw [hplan] at hnum
      dsimp only at hnum
      omega
    · rw [hplan] at hnum
      rw [Call.last] at hmono hx hpage
      dsimp only at hnum
      exact blank_of_sound (hs.table e he) hfree hepage hlt (by omega) (by omega)

theorem init_consistent (s : State) : Consistent c (init c s).2 := by
  have htable : ∀ t : State, t.lastStored = List.replicate c.lastStoredSize (-1) →
      Consistent c t := by
    intro t ht
    constructor
    · intro e he
      rw [ht] at he
      exact Or.inl (List.eq_of_mem_replicate he)
    · rw [ht, List.length_replicate]
  apply htable
  unfold init
  rw [Proc.modify_bind_apply, Proc.get_bind_apply]
  split
  · rfl
  · rw [Proc.bind_apply]
    unfold flashInit withFault
    dsimp only
    cases s.fault s.calls with
    | some e => rfl
    | none => rfl

/-- Stores after failed flash calls. From arbitrary flash contents and whatever
`storage1_init` returned, every state that a run of stores reaches reads back its
next successful store, whatever fails then, exactly when every store of the run
that fails at its first flash call finds the rest of its last page blank. -/
theorem stores_read_back_iff (c : Config) (s : State) (calls : List Call) :
    Along (stepStore c) (Harmless c) (init c s).2 calls ↔
      ∀ done, done <+: calls → ReadsBack c (run (stepStore c) (init c s).2 done) := by
  constructor
  · rintro h done ⟨rest, rfl⟩
    have hdone := ((along_append done rest).mp h).1
    exact (run_invariant stepStore_consistent (init_consistent s) hdone).readsBack
  · have hs := init_consistent (c := c) s
    generalize (init c s).2 = t at hs ⊢
    intro h
    induction calls generalizing t with
    | nil => trivial
    | cons call calls ih =>
      have hcall : Harmless c t call :=
        harmless_of_readsBack hs (h [call] ⟨calls, rfl⟩)
      refine ⟨hcall, ih _ (stepStore_consistent t call hs hcall) ?_⟩
      rintro done ⟨rest, rfl⟩
      exact h (call :: done) ⟨rest, rfl⟩

/-- Blank flash of the nRF51 board whose fourth call fails. -/
def fourthCallFails : State :=
  { cells := fun _ _ => 0xFF, fault := fun n => if n = 3 then some .timeout else none, calls := 0,
    lastStored := [], initDone := false }

/-- Zeros are stored; the store of two bytes over them fails at its erase; the
store of one byte behind these two succeeds and reads back as zero. -/
theorem failed_erase_poisons :
    ∃ s t u v, init nrf51 fourthCallFails = (.ok (), s) ∧
      store nrf51 0 [0, 0, 0, 0, 0, 0, 0, 0] s = (.ok (), t) ∧
      store nrf51 0 [1, 2] t = (.error .timeout, u) ∧
      store nrf51 4 [0xAB] u = (.ok (), v) ∧ read nrf51 4 1 v = (.ok [0], v) := by
  refine ⟨_, _, _, _, rfl, rfl, rfl, rfl, ?_⟩
  rw [read_ok (by decide)]
  rfl

end OpenBadge.Storage1
