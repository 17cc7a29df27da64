import OpenBadge.Storage1.Erase
import OpenBadge.Storage1.Stopped

/-!
# The byte store over NOR flash

On ideal flash every in-range store succeeds and its effect on the bytes is known
exactly: the data stand at their addresses, the rest of the last touched page is
blank, and everything else is as before. The invariant behind it is that every
remembered end address is sound. On flash that fails, a store that gets past its
erase still leaves the rest of the last touched page blank.
-/

namespace OpenBadge.Storage1

open OpenBadge.Lib

variable {c : Config}

/-- The bytes after a store of `data` at `address` over the bytes `m`. -/
def stored (c : Config) (m : Nat → UInt8) (address : Nat) (data : List UInt8) : Nat → UInt8 :=
  fun x =>
    if address ≤ x ∧ x < address + data.length then data.getD (x - address) 0
    else if address + data.length ≤ x ∧ 0 < data.length ∧
        x / getUnitSize c = (address + data.length - 1) / getUnitSize c then 0xFF
    else m x

theorem ones_and (b : UInt8) : 0xFF &&& b = b := by rw [UInt8.and_comm, and_ones]

theorem offer_eq_getD {address : Nat} {data : List UInt8} {x : Nat} (h : address ≤ x)
    (h' : x < address + data.length) : offer address data x = data.getD (x - address) 0 := by
  rw [offer, overwrite, if_pos h, List.getD_eq_getElem?_getD,
    List.getElem?_eq_getElem (by omega), Option.getD_some, Option.getD_some]

/-- Programming `data` over cells that are blank at the data, as before outside
the touched pages and in front of the data, and blank behind the data on the last
touched page, gives the stored bytes. -/
theorem stored_of_programs {s t u : State} {address : Nat} {data : List UInt8}
    (hp : Programs address data t u) (hlen : 0 < data.length)
    (hblank : ∀ x, address ≤ x → x / getUnitSize c ≤ (address + data.length - 1) / getUnitSize c →
      byteAt t.cells x = 0xFF)
    (hkeep : ∀ x, (x < address ∨
        (address + data.length - 1) / getUnitSize c < x / getUnitSize c) →
      byteAt t.cells x = byteAt s.cells x) :
    byteAt u.cells = stored c (byteAt s.cells) address data := by
  funext x
  rw [hp.bytes]
  unfold stored
  by_cases hin : address ≤ x ∧ x < address + data.length
  · have hpage : x / getUnitSize c ≤ (address + data.length - 1) / getUnitSize c :=
      Nat.div_le_div_right (by omega)
    rw [if_pos hin, hblank x hin.1 hpage, ones_and, offer_eq_getD hin.1 hin.2]
  · rw [if_neg hin, offer_outside hin, and_ones]
    by_cases hlast : address + data.length ≤ x ∧ 0 < data.length ∧
        x / getUnitSize c = (address + data.length - 1) / getUnitSize c
    · rw [if_pos hlast]
      exact hblank x (by omega) (by omega)
    · rw [if_neg hlast]
      apply hkeep
      by_cases hx : x < address
      · exact Or.inl hx
      · have hmono : (address + data.length - 1) / getUnitSize c ≤ x / getUnitSize c :=
          Nat.div_le_div_right (by omega)
        exact Or.inr (by omega)

/-- A sound entry before `address` on its page makes the rest of the page blank. -/
theorem blank_of_sound {cells : Nat → Word} {e : Int} {address : Nat} (h : Sound c cells e)
    (hfree : e ≠ -1) (hpage : getPageAddress c e.toNat = address / getUnitSize c)
    (hlt : e < address) {x : Nat} (hx : address ≤ x)
    (hx' : x / getUnitSize c = address / getUnitSize c) : byteAt cells x = 0xFF := by
  rcases h with h | ⟨a, rfl, ha, hblank⟩
  · exact absurd h hfree
  · rw [Int.toNat_natCast, getPageAddress_eq ha] at hpage
    exact hblank x (by omega) (by omega)

/-- Entries off the touched pages, and the new end address, are sound after the
store. -/
theorem sound_after {cells cells' : Nat → Word} {address : Nat} {data : List UInt8} {e : Int}
    (hin : address + data.length ≤ getSize c) (hlen : 0 < data.length)
    (hcells : byteAt cells' = stored c (byteAt cells) address data)
    (he : e = -1 ∨ e = ((address + data.length - 1 : Nat) : Int) ∨
      (Sound c cells e ∧ ¬ (address / getUnitSize c ≤ getPageAddress c e.toNat ∧
        getPageAddress c e.toNat ≤ (address + data.length - 1) / getUnitSize c))) :
    Sound c cells' e := by
  rcases he with rfl | rfl | ⟨hs, hoff⟩
  · exact Or.inl rfl
  · refine Or.inr ⟨_, rfl, by omega, ?_⟩
    intro x hx hpage
    rw [hcells, stored, if_neg (by omega), if_pos ⟨by omega, hlen, hpage⟩]
  · rcases hs with rfl | ⟨a, rfl, ha, hblank⟩
    · exact Or.inl rfl
    · rw [Int.toNat_natCast, getPageAddress_eq ha] at hoff
      refine Or.inr ⟨a, rfl, ha, ?_⟩
      intro x hx hpage
      have hmem : ¬ (address ≤ x ∧ x < address + data.length) := by
        rintro ⟨h1, h2⟩
        have h3 : address / getUnitSize c ≤ x / getUnitSize c := Nat.div_le_div_right h1
        have h4 : x / getUnitSize c ≤ (address + data.length - 1) / getUnitSize c :=
          Nat.div_le_div_right (by omega)
        omega
      rw [hcells, stored, if_neg hmem]
      split
      · rfl
      · exact hblank x hx hpage

/-- Erasing on any flash: it fails and has no effect, or the planned pages are
blank. -/
theorem eraseStep (plan : Plan) (s : State) :
    (∃ e t, (Proc.when (0 < plan.eraseNum) (flashErase c plan.erasePage plan.eraseNum) : M Unit) s =
        (.error e, t) ∧ s.fault s.calls = some e ∧ t.cells = s.cells ∧
        t.lastStored = s.lastStored ∧ t.fault = s.fault) ∨
    ∃ t, (Proc.when (0 < plan.eraseNum) (flashErase c plan.erasePage plan.eraseNum) : M Unit) s =
        (.ok (), t) ∧ t.lastStored = s.lastStored ∧ t.fault = s.fault ∧
      ∀ x, byteAt t.cells x = if plan.erasePage ≤ x / getUnitSize c ∧
          x / getUnitSize c < plan.erasePage + plan.eraseNum then 0xFF else byteAt s.cells x := by
  by_cases hnum : 0 < plan.eraseNum
  · rw [Proc.when_pos hnum]
    unfold flashErase withFault
    dsimp only
    cases hfault : s.fault s.calls with
    | some e => exact Or.inl ⟨e, _, rfl, rfl, rfl, rfl, rfl⟩
    | none =>
      refine Or.inr ⟨_, rfl, rfl, rfl, ?_⟩
      intro x
      dsimp only
      rw [byteAt_erased]
      by_cases hx : plan.erasePage ≤ x / getUnitSize c ∧
          x / getUnitSize c < plan.erasePage + plan.eraseNum
      · rw [if_pos hx, if_pos ((page_range c _ _ x).mpr hx)]
      · rw [if_neg hx, if_neg fun h' => hx ((page_range c _ _ x).mp h')]
  · rw [Proc.when_neg hnum]
    refine Or.inr ⟨s, rfl, rfl, rfl, fun x => ?_⟩
    rw [if_neg (by omega)]

/-- The address of the first byte on the page of `address`. -/
def pageFirst (c : Config) (address : Nat) : Nat := address / getUnitSize c * getUnitSize c

theorem pageFirst_le (c : Config) (address : Nat) : pageFirst c address ≤ address :=
  Nat.div_mul_le_self _ _

theorem lt_pageFirst_add (c : Config) (address : Nat) :
    address < pageFirst c address + getUnitSize c := by
  unfold pageFirst
  rw [← Nat.succ_mul]
  exact (Nat.div_lt_iff_lt_mul (unit_pos c)).mp (Nat.lt_succ_self _)

theorem page_of_pageFirst_le {address x : Nat} (h : pageFirst c address ≤ x) (h' : x ≤ address) :
    x / getUnitSize c = address / getUnitSize c := by
  apply Nat.le_antisymm (Nat.div_le_div_right h')
  rw [Nat.le_div_iff_mul_le (unit_pos c)]
  exact h

theorem page_lt_of_lt_pageFirst {address x : Nat} (h : x < pageFirst c address) :
    x / getUnitSize c < address / getUnitSize c :=
  (Nat.div_lt_iff_lt_mul (unit_pos c)).mpr h

/-- The bytes before the data on their first page, which are put back behind an
erase. -/
def backup (c : Config) (s : State) (address : Nat) : List UInt8 :=
  slice (byteAt s.cells) (pageFirst c address) (address - pageFirst c address)

section Phases

variable {s : State} {address : Nat} {data : List UInt8}

/-- An in-range store plans, erases, puts the backup back and programs. -/
theorem store_phases (hlen : 0 < data.length) (hin : address + data.length ≤ getSize c) :
    store c address data s =
      (do
        Proc.when (0 < (planned c s address data.length).2.eraseNum)
          (flashErase c (planned c s address data.length).2.erasePage
            (planned c s address data.length).2.eraseNum)
        Proc.when (0 < address - pageFirst c address ∧
            (planned c s address data.length).2.erasePage = address / getUnitSize c)
          (storeUint8AsUint32 c (pageFirst c address) (backup c s address))
        storeUint8AsUint32 c address data : M Unit)
      { s with lastStored := remembered c s address data.length } := by
  have hsize : getSize c < 2 ^ 31 := c.size_lt
  have hfirst : address / getUnitSize c * c.pageSizeWords * 4 = pageFirst c address := by
    unfold pageFirst getUnitSize
    ring
  have hfloor := pageFirst_le c address
  have hceil := lt_pageFirst_add c address
  unfold store
  rw [Proc.failIf_bind_neg (by rw [Nat.mod_eq_of_lt (by omega)]; omega), if_neg (by omega),
    getPageAddress_eq (by omega), hfirst,
    Proc.failIf_bind_neg (by change ¬ getUnitSize c < _; omega)]
  have hbackup : (Proc.branch (0 < address - pageFirst c address)
      (readUint32AsUint8 c (pageFirst c address) (address - pageFirst c address))
      (pure []) : M _) s = (.ok (backup c s address), s) := by
    by_cases hb : 0 < address - pageFirst c address
    · rw [Proc.branch_pos hb]
      exact readUint32AsUint8_ok (by omega)
    · rw [Proc.branch_neg hb, backup, show address - pageFirst c address = 0 by omega]
      rfl
  rw [Proc.bind_ok hbackup, Proc.bind_ok (computePagesToErase_eq hlen hin)]

/-- After the erase: blank from the data to the end of the last touched page, as
before off the touched pages, and the first page blank or, if it is kept, as
before. -/
theorem erased_pages {cells : Nat → Word} (hs : TableSound c s) (hlen : 0 < data.length)
    (hcells : ∀ x, byteAt cells x =
      if (planned c s address data.length).2.erasePage ≤ x / getUnitSize c ∧
        x / getUnitSize c < (planned c s address data.length).2.erasePage +
          (planned c s address data.length).2.eraseNum then 0xFF else byteAt s.cells x) :
    (∀ x, address ≤ x → x / getUnitSize c ≤ (address + data.length - 1) / getUnitSize c →
      byteAt cells x = 0xFF) ∧
    (∀ x, (x / getUnitSize c < address / getUnitSize c ∨
        (address + data.length - 1) / getUnitSize c < x / getUnitSize c) →
      byteAt cells x = byteAt s.cells x) ∧
    ((planned c s address data.length).2.erasePage = address / getUnitSize c →
      ∀ x, x / getUnitSize c = address / getUnitSize c → byteAt cells x = 0xFF) ∧
    ((planned c s address data.length).2.erasePage ≠ address / getUnitSize c →
      ∀ x, x / getUnitSize c = address / getUnitSize c → byteAt cells x = byteAt s.cells x) := by
  have hmono : address / getUnitSize c ≤ (address + data.length - 1) / getUnitSize c :=
    Nat.div_le_div_right (by omega)
  rcases planned_plan (s := s) hmono with hplan | ⟨hplan, e, he, hfree, hepage, hlt⟩
  · rw [hplan] at hcells ⊢
    dsimp only at hcells ⊢
    refine ⟨?_, ?_, ?_, fun h => absurd rfl h⟩
    · intro x hx hx'
      have hge : address / getUnitSize c ≤ x / getUnitSize c := Nat.div_le_div_right hx
      rw [hcells, if_pos (by omega)]
    · intro x hx
      rw [hcells, if_neg (by omega)]
    · intro _ x hx
      rw [hcells, if_pos (by omega)]
  · rw [hplan] at hcells ⊢
    dsimp only at hcells ⊢
    refine ⟨?_, ?_, fun h => absurd h (by omega), ?_⟩
    · intro x hx hx'
      have hge : address / getUnitSize c ≤ x / getUnitSize c := Nat.div_le_div_right hx
      rw [hcells]
      by_cases hsame : x / getUnitSize c = address / getUnitSize c
      · rw [if_neg (by omega)]
        exact blank_of_sound (hs e he) hfree hepage hlt hx hsame
      · rw [if_pos (by omega)]
    · intro x hx
      rw [hcells, if_neg (by omega)]
    · intro _ x hx
      rw [hcells, if_neg (by omega)]

/-- Putting the backup back, where the first page was erased. -/
theorem restoreStep (hin : address ≤ getSize c) (p : Prop) [Decidable p] (t : State) :
    Attempts (pageFirst c address) (if p then backup c s address else []) t
      ((Proc.when (0 < address - pageFirst c address ∧ p)
        (storeUint8AsUint32 c (pageFirst c address) (backup c s address)) : M Unit) t) := by
  have hfloor := pageFirst_le c address
  by_cases h : 0 < address - pageFirst c address ∧ p
  · rw [Proc.when_pos h, if_pos h.2]
    apply storeUint8AsUint32_attempts
    rw [backup, slice_length]
    omega
  · have hnil : (if p then backup c s address else []) = [] := by
      split
      · rename_i hp
        rw [backup, show address - pageFirst c address = 0 from
          Nat.eq_zero_of_not_pos fun hpos => h ⟨hpos, hp⟩]
        rfl
      · rfl
    rw [Proc.when_neg h, hnil]
    exact ⟨fun _ _ => rfl, fun _ => Programs.nil _ t, rfl, rfl, fun _ => rfl⟩

/-- What a store leaves that got past its erase. -/
structure Wrote (c : Config) (s : State) (address : Nat) (data : List UInt8)
    (result : Except RetCode Unit × State) : Prop where
  behind : ∀ x, address + data.length - 1 < x →
    x / getUnitSize c = (address + data.length - 1) / getUnitSize c →
    byteAt result.2.cells x = 0xFF
  off : ∀ x, (x / getUnitSize c < address / getUnitSize c ∨
      (address + data.length - 1) / getUnitSize c < x / getUnitSize c) →
    byteAt result.2.cells x = byteAt s.cells x
  bytes : result.1 = .ok () → byteAt result.2.cells = stored c (byteAt s.cells) address data

/-- What a store leaves whatever flash calls fail. -/
structure Outcome (c : Config) (s : State) (address : Nat) (data : List UInt8)
    (result : Except RetCode Unit × State) : Prop where
  lastStored : result.2.lastStored = remembered c s address data.length
  fault : result.2.fault = s.fault
  ideal : Ideal s → result.1 = .ok ()
  effect : (∃ e, result.1 = .error e ∧ s.fault s.calls = some e ∧ result.2.cells = s.cells) ∨
    Wrote c s address data result

theorem store_outcome (hs : TableSound c s) (hlen : 0 < data.length)
    (hin : address + data.length ≤ getSize c) :
    Outcome c s address data (store c address data s) := by
  have hfloor := pageFirst_le c address
  have hmono : address / getUnitSize c ≤ (address + data.length - 1) / getUnitSize c :=
    Nat.div_le_div_right (by omega)
  have hpage : ∀ x, ¬ (pageFirst c address ≤ x ∧ x < address) → ∀ p : Prop, ∀ [Decidable p],
      ¬ (pageFirst c address ≤ x ∧ x < pageFirst c address +
        (if p then backup c s address else []).length) := by
    intro x hx p _ hmem
    split at hmem
    · rw [backup, slice_length] at hmem
      omega
    · rw [List.length_nil] at hmem
      omega
  rw [store_phases hlen hin]
  rcases eraseStep (c := c) (planned c s address data.length).2
    { s with lastStored := remembered c s address data.length } with
    ⟨e, t, ht, hfault, hcells, htable, hkept⟩ | ⟨t₁, ht₁, htab₁, hf₁, hb₁⟩
  · rw [Proc.bind_error ht]
    exact ⟨htable, hkept, fun hideal => absurd (hfault.symm.trans (hideal _)) (by simp),
      Or.inl ⟨e, rfl, hfault, hcells⟩⟩
  obtain ⟨hblank, hoff, herased, hkept⟩ := erased_pages hs hlen hb₁
  have hrestore := restoreStep (c := c) (s := s) (show address ≤ getSize c by omega)
    ((planned c s address data.length).2.erasePage = address / getUnitSize c) t₁
  rw [Proc.bind_ok ht₁]
  rcases hr₂ : (Proc.when (0 < address - pageFirst c address ∧
      (planned c s address data.length).2.erasePage = address / getUnitSize c)
      (storeUint8AsUint32 c (pageFirst c address) (backup c s address)) : M Unit) t₁ with
    ⟨e | ⟨⟩, t₂⟩
  · rw [hr₂] at hrestore
    rw [Proc.bind_error hr₂]
    refine ⟨hrestore.lastStored.trans htab₁, hrestore.fault.trans hf₁, ?_, Or.inr ⟨?_, ?_, ?_⟩⟩
    · intro hideal
      exact hrestore.ideal fun n => (congrFun hf₁ n).trans (hideal n)
    · intro x hx hpx
      rw [hrestore.outside x (hpage x (by omega) _), hblank x (by omega) (by omega)]
    · intro x hx
      rw [hrestore.outside x (hpage x ?_ _), hoff x hx]
      rintro ⟨h1, h2⟩
      have := page_of_pageFirst_le h1 (Nat.le_of_lt h2)
      omega
    · intro hok
      exact absurd hok (by simp)
  rw [hr₂] at hrestore
  rw [Proc.bind_ok hr₂]
  have hblank₂ : ∀ x, address ≤ x →
      x / getUnitSize c ≤ (address + data.length - 1) / getUnitSize c →
      byteAt t₂.cells x = 0xFF := by
    intro x hx hx'
    exact (hrestore.outside x (hpage x (by omega) _)).trans (hblank x hx hx')
  have hkeep₂ : ∀ x, (x < address ∨
        (address + data.length - 1) / getUnitSize c < x / getUnitSize c) →
      byteAt t₂.cells x = byteAt s.cells x := by
    intro x hx
    by_cases hmem : pageFirst c address ≤ x ∧ x < address
    · have hpx := page_of_pageFirst_le hmem.1 (Nat.le_of_lt hmem.2)
      rw [(hrestore.programs rfl).bytes]
      by_cases hplan : (planned c s address data.length).2.erasePage = address / getUnitSize c
      · rw [if_pos hplan, herased hplan x hpx, ones_and, backup,
          offer_eq_getD hmem.1 (by rw [slice_length]; omega), List.getD_eq_getElem?_getD,
          slice_getElem? _ (by omega), Option.getD_some, Nat.add_sub_cancel' hmem.1]
      · rw [if_neg hplan, hkept hplan x hpx, offer_nil, and_ones]
    · rw [hrestore.outside x (hpage x hmem _)]
      apply hoff
      rcases hx with hx | hx
      · exact Or.inl (page_lt_of_lt_pageFirst (by omega))
      · exact Or.inr hx
  have hstore := storeUint8AsUint32_attempts hin t₂
  refine ⟨hstore.lastStored.trans (hrestore.lastStored.trans htab₁),
    hstore.fault.trans (hrestore.fault.trans hf₁), ?_, Or.inr ⟨?_, ?_, ?_⟩⟩
  · intro hideal
    apply hstore.ideal
    intro n
    rw [hrestore.fault, hf₁]
    exact hideal n
  · intro x hx hpx
    rw [hstore.outside x (by omega), hblank₂ x (by omega) (by omega)]
  · intro x hx
    have hout : ¬ (address ≤ x ∧ x < address + data.length) := by
      rintro ⟨h1, h2⟩
      have h3 : address / getUnitSize c ≤ x / getUnitSize c := Nat.div_le_div_right h1
      have h4 : x / getUnitSize c ≤ (address + data.length - 1) / getUnitSize c :=
        Nat.div_le_div_right (by omega)
      omega
    rw [hstore.outside x hout]
    apply hkeep₂
    rcases hx with hx | hx
    · refine Or.inl (Nat.lt_of_not_le fun hle => ?_)
      have : address / getUnitSize c ≤ x / getUnitSize c := Nat.div_le_div_right hle
      omega
    · exact Or.inr hx
  · intro hok
    exact stored_of_programs (hstore.programs hok) (by omega) hblank₂ hkeep₂

end Phases

/-- The invariant of the storage layer over ideal flash. -/
structure Inv (c : Config) (s : State) : Prop where
  ideal : Ideal s
  table : TableSound c s

theorem store_nil (s : State) (address : Nat) (hin : address ≤ getSize c) :
    store c address [] s = (.ok (), s) := by
  have hsize : getSize c < 2 ^ 31 := c.size_lt
  unfold store
  rw [Proc.failIf_bind_neg (by rw [List.length_nil, Nat.mod_eq_of_lt (by omega)]; omega)]
  rfl

/-- One in-range store: it succeeds, has exactly the effect `stored`, and keeps
the invariant. -/
theorem store_ok {s : State} (hs : Inv c s) {address : Nat} {data : List UInt8}
    (hin : address + data.length ≤ getSize c) :
    ∃ t, store c address data s = (.ok (), t) ∧ Inv c t ∧
      byteAt t.cells = stored c (byteAt s.cells) address data := by
  by_cases h0 : data = []
  · subst h0
    refine ⟨s, store_nil s address hin, hs, ?_⟩
    funext x
    rw [List.length_nil] at hin
    rw [stored, List.length_nil, if_neg (by omega), if_neg (by omega)]
  have hlen : 0 < data.length := List.length_pos_iff.mpr h0
  have hout := store_outcome hs.table hlen hin
  have hok := hout.ideal hs.ideal
  have hbytes : byteAt (store c address data s).2.cells =
      stored c (byteAt s.cells) address data := by
    rcases hout.effect with ⟨e, herror, -⟩ | hwrote
    · rw [hok] at herror
      exact absurd herror (by simp)
    · exact hwrote.bytes hok
  refine ⟨_, Proc.eq_of_fst hok, ⟨?_, ?_⟩, hbytes⟩
  · intro n
    rw [hout.fault]
    exact hs.ideal n
  · intro e he
    rw [hout.lastStored] at he
    apply sound_after hin hlen hbytes
    rcases remembered_entries he with h | h | ⟨hmem, hoff⟩
    · exact Or.inl h
    · exact Or.inr (Or.inl h)
    · exact Or.inr (Or.inr ⟨hs.table e hmem, hoff⟩)

theorem init_ok {s : State} (hs : Ideal s) :
    ∃ t, init c s = (.ok (), t) ∧ Inv c t ∧ t.cells = s.cells := by
  have htable : ∀ e ∈ List.replicate c.lastStoredSize (-1 : Int), ∀ cells, Sound c cells e :=
    fun e he _ => Or.inl (List.eq_of_mem_replicate he)
  unfold init
  rw [Proc.modify_bind_apply, Proc.get_bind_apply]
  by_cases hd : s.initDone = true
  · rw [if_pos hd]
    exact ⟨_, rfl, ⟨hs, fun e he => htable e he _⟩, rfl⟩
  · rw [if_neg hd]
    have hinit := withFault_ideal
      (s := { s with lastStored := List.replicate c.lastStoredSize (-1) }) hs id
    exact ⟨_, Proc.bind_ok hinit _, ⟨hs, fun e he => htable e he _⟩, rfl⟩

/-- A sequence of `storage1_store` calls. -/
def storeAll (c : Config) : List (Nat × List UInt8) → M Unit
  | [] => pure ()
  | (address, data) :: calls => do
    store c address data
    storeAll c calls

theorem storeAll_ok {s : State} (hs : Inv c s) (calls : List (Nat × List UInt8))
    (hin : ∀ call ∈ calls, call.1 + call.2.length ≤ getSize c) :
    ∃ t, storeAll c calls s = (.ok (), t) ∧ Inv c t := by
  induction calls generalizing s with
  | nil => exact ⟨s, rfl, hs⟩
  | cons call calls ih =>
    obtain ⟨t, ht, hinv, -⟩ := store_ok hs (hin call List.mem_cons_self)
    obtain ⟨u, hu, hinv'⟩ := ih hinv fun call' h => hin call' (List.mem_cons_of_mem _ h)
    exact ⟨u, (Proc.bind_ok ht _).trans hu, hinv'⟩

/-- The page of the first byte is kept by the erase plan of a store. -/
def SkipsFirstPage (c : Config) (address length : Nat) (s : State) : Prop :=
  ∃ plan t, computePagesToErase c address length s = (.ok plan, t) ∧ 0 < length ∧
    plan.erasePage ≠ getPageAddress c address

theorem skipped_page_blank {s : State} (hs : Inv c s) {address length : Nat}
    (hin : address + length ≤ getSize c) (hskip : SkipsFirstPage c address length s) {x : Nat}
    (hx : address ≤ x) (hpage : x / getUnitSize c = address / getUnitSize c) :
    byteAt s.cells x = 0xFF := by
  obtain ⟨plan, t, hplan, hlen, hne⟩ := hskip
  rw [computePagesToErase_eq hlen hin] at hplan
  obtain rfl : (planned c s address length).2 = plan :=
    Except.ok.inj (congrArg Prod.fst hplan)
  have hmono : address / getUnitSize c ≤ (address + length - 1) / getUnitSize c :=
    Nat.div_le_div_right (by omega)
  rcases planned_plan (s := s) hmono with hfull | ⟨-, e, he, hfree, hepage, hlt⟩
  · rw [hfull] at hne
    exact absurd (getPageAddress_eq (by omega)).symm hne
  · exact blank_of_sound (hs.table e he) hfree hepage hlt hx hpage

/-- The byte store over NOR flash. After any sequence of in-range stores from
arbitrary flash contents, an in-range store succeeds and reads back; bytes before
it on its page and bytes of untouched pages keep their values; bytes behind it on
the last touched page keep their value or become ones; and a first page that is
not erased is blank from the store's address on. -/
theorem nor_byte_store (c : Config) (s₀ : State) (hideal : Ideal s₀)
    (calls : List (Nat × List UInt8))
    (hcalls : ∀ call ∈ calls, call.1 + call.2.length ≤ getSize c)
    (address : Nat) (data : List UInt8) (hin : address + data.length ≤ getSize c) :
    ∃ s t, (do init c; storeAll c calls) s₀ = (.ok (), s) ∧
      store c address data s = (.ok (), t) ∧
      read c address data.length t = (.ok data, t) ∧
      (∀ x, x / getUnitSize c = address / getUnitSize c → x < address →
        byteAt t.cells x = byteAt s.cells x) ∧
      (∀ x, (∀ y, address ≤ y → y < address + data.length →
          y / getUnitSize c ≠ x / getUnitSize c) →
        byteAt t.cells x = byteAt s.cells x) ∧
      (∀ x, address + data.length ≤ x →
        x / getUnitSize c = (address + data.length - 1) / getUnitSize c →
        byteAt t.cells x = byteAt s.cells x ∨ byteAt t.cells x = 0xFF) ∧
      (SkipsFirstPage c address data.length s →
        ∀ x, address ≤ x → x / getUnitSize c = address / getUnitSize c →
          byteAt s.cells x = 0xFF) := by
  obtain ⟨s₁, hinit, hinv₁, -⟩ := init_ok (c := c) hideal
  obtain ⟨s, hall, hinv⟩ := storeAll_ok hinv₁ calls hcalls
  obtain ⟨t, hstore, -, hbytes⟩ := store_ok hinv hin
  refine ⟨s, t, (Proc.bind_ok hinit _).trans hall, hstore, ?_, ?_, ?_, ?_, ?_⟩
  · rw [read_ok hin]
    have hdata : slice (byteAt t.cells) address data.length = data := by
      apply slice_eq_iff.mpr
      intro i hi
      rw [hbytes, stored, if_pos (by omega), Nat.add_sub_cancel_left,
        List.getD_eq_getElem?_getD, List.getElem?_eq_getElem hi, Option.getD_some]
    rw [hdata]
  · intro x _ hx
    rw [hbytes, stored, if_neg (by omega), if_neg (by omega)]
  · intro x hx
    rw [hbytes, stored, if_neg, if_neg]
    · rintro ⟨hge, hlen, hpage⟩
      exact hx (address + data.length - 1) (by omega) (by omega) hpage.symm
    · rintro ⟨h1, h2⟩
      exact hx x h1 h2 rfl
  · intro x hx hpage
    rw [hbytes, stored, if_neg (by omega)]
    split
    · exact Or.inr rfl
    · exact Or.inl rfl
  · intro hskip x hx hpage
    exact skipped_page_blank hinv hin hskip hx hpage

/-- Flash of the nRF51 board full of zeros, before initialisation. -/
def zeroFlash : State :=
  { cells := fun _ _ => 0, fault := fun _ => none, calls := 0, lastStored := [], initDone := false }

theorem nor_byte_store_nrf51 :
    ∃ s t, (do init nrf51; storeAll nrf51 [(5, [1, 2, 3])]) zeroFlash = (.ok (), s) ∧
      store nrf51 1022 [7, 8, 9, 10] s = (.ok (), t) ∧
      read nrf51 1022 4 t = (.ok [7, 8, 9, 10], t) ∧ byteAt t.cells 6 = byteAt s.cells 6 := by
  obtain ⟨s, t, hs, ht, hread, hbefore, -⟩ := nor_byte_store nrf51 zeroFlash (fun _ => rfl)
    [(5, [1, 2, 3])] (by decide) 1022 [7, 8, 9, 10] (by decide)
  exact ⟨s, t, hs, ht, hread, hbefore 6 (by decide) (by decide)⟩

end OpenBadge.Storage1
