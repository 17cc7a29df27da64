import OpenBadge.Storage.Split

/-!
# One flat address space

Storage modules that behave as byte arrays make up one byte array: what is stored,
cleared and read through `storage_lib` is stored, cleared and read in the array that
the modules form one behind the other. The units of the modules tile the same address
space.
-/

namespace OpenBadge.StorageLib

open OpenBadge.Lib OpenBadge.Storage

/-! ## Module arrays as one array -/

/-- The arrays `m 0`, `m 1`, … of the given sizes, one behind the other. -/
def flat : List Nat → (Nat → Nat → UInt8) → Nat → UInt8
  | [], _ => fun _ => 0
  | size :: sizes, m => fun x => if x < size then m 0 x else flat sizes (fun i => m (i + 1)) (x - size)

theorem flat_congr : ∀ (sizes : List Nat) {m w : Nat → Nat → UInt8},
    (∀ i, i < sizes.length → m i = w i) → flat sizes m = flat sizes w
  | [], _, _, _ => rfl
  | size :: sizes, m, w, h => by
    have ih := flat_congr sizes (m := fun i => m (i + 1)) (w := fun i => w (i + 1))
      fun i hi => h (i + 1) (Nat.succ_lt_succ hi)
    funext x
    simp only [flat, ih, h 0 (Nat.succ_pos _)]

/-- Bytes written inside one array are written behind the arrays in front of it. -/
theorem flat_overwrite {a : Nat} {d : List UInt8} : ∀ (front : List Nat) (size : Nat)
    (back : List Nat) {m w : Nat → Nat → UInt8}, a + d.length ≤ size →
    w front.length = overwrite (m front.length) a d → (∀ j, j ≠ front.length → w j = m j) →
    flat (front ++ size :: back) w =
      overwrite (flat (front ++ size :: back) m) (front.sum + a) d
  | [], size, back, m, w, hfit, hwrite, hframe => by
    have htail : flat back (fun i => w (i + 1)) = flat back (fun i => m (i + 1)) :=
      flat_congr back fun i _ => hframe (i + 1) (Nat.succ_ne_zero i)
    funext x
    simp only [List.nil_append, flat, List.length_nil, List.sum_nil, Nat.zero_add] at hwrite ⊢
    rw [htail, hwrite]
    by_cases hx : x < a
    · rw [overwrite_of_lt _ _ hx, overwrite_of_lt _ _ hx]
    · by_cases hx' : x < a + d.length
      · obtain ⟨i, rfl⟩ := Nat.exists_eq_add_of_le (Nat.le_of_not_lt hx)
        rw [if_pos (by omega), overwrite_add _ _ _ (by omega), overwrite_add _ _ _ (by omega)]
      · rw [overwrite_of_ge _ _ (by omega), overwrite_of_ge _ _ (by omega)]
  | n :: front, size, back, m, w, hfit, hwrite, hframe => by
    have hhead : w 0 = m 0 := hframe 0 (Nat.succ_ne_zero _).symm
    have ih := flat_overwrite front size back (m := fun i => m (i + 1))
      (w := fun i => w (i + 1)) hfit hwrite fun j hj => hframe (j + 1) fun h => hj (Nat.succ.inj h)
    funext x
    simp only [List.cons_append, flat, List.sum_cons]
    rw [hhead, ih]
    by_cases hx : x < n
    · rw [if_pos hx, overwrite_of_lt _ _ (by omega), if_pos hx]
    · obtain ⟨y, rfl⟩ := Nat.exists_eq_add_of_le (Nat.le_of_not_lt hx)
      rw [if_neg hx, Nat.add_sub_cancel_left]
      by_cases hlo : y < front.sum + a
      · rw [overwrite_of_lt _ _ hlo, overwrite_of_lt _ _ (by omega), if_neg hx,
          Nat.add_sub_cancel_left]
      · by_cases hhi : y < front.sum + a + d.length
        · obtain ⟨i, rfl⟩ := Nat.exists_eq_add_of_le (Nat.le_of_not_lt hlo)
          rw [overwrite_add _ _ _ (by omega), ← Nat.add_assoc n, ← Nat.add_assoc n,
            overwrite_add _ _ _ (by omega)]
        · rw [overwrite_of_ge _ _ (by omega), overwrite_of_ge _ _ (by omega), if_neg hx,
            Nat.add_sub_cancel_left]

/-- A range inside one array is read behind the arrays in front of it. -/
theorem slice_flat {a n : Nat} : ∀ (front : List Nat) (size : Nat) (back : List Nat)
    {m : Nat → Nat → UInt8}, a + n ≤ size →
    slice (flat (front ++ size :: back) m) (front.sum + a) n = slice (m front.length) a n
  | [], size, back, m, hfit => by
    apply List.map_congr_left
    intro i hi
    rw [List.mem_range] at hi
    simp only [List.nil_append, flat, List.sum_nil, List.length_nil, Nat.zero_add]
    rw [if_pos (by omega)]
  | k :: front, size, back, m, hfit => by
    have ih := slice_flat front size back (m := fun i => m (i + 1)) hfit
    rw [List.length_cons, ← ih]
    apply List.map_congr_left
    intro i _
    simp only [List.cons_append, flat, List.sum_cons]
    rw [if_neg (by omega)]
    congr 1
    omega

/-! ## Modules that behave as byte arrays -/

variable {σ : Type}

/-- The functions of the `i`-th module are those of a byte array: in states with `I` they
succeed inside it, have the effect on it that they should have, and leave the other
modules alone. -/
structure IsByteArray (I : σ → Prop) (bytes : σ → Nat → Nat → UInt8) (i : Nat)
    (m : StorageFunctions σ) : Prop where
  store : ∀ a d s, I s → 0 < d.length → a + d.length ≤ m.size →
    ∃ t, m.store a d s = (.ok (), t) ∧ I t ∧ bytes t i = overwrite (bytes s i) a d ∧
      ∀ j, j ≠ i → bytes t j = bytes s j
  read : ∀ a n s, I s → 0 < n → a + n ≤ m.size →
    ∃ t, m.read a n s = (.ok (slice (bytes s i) a n), t) ∧ I t ∧ bytes t = bytes s
  clear : ∀ a n s, I s → 0 < n → a + n ≤ m.size →
    ∃ t, m.clear a n s = (.ok (), t) ∧ I t ∧
      bytes t i = overwrite (bytes s i) a (List.replicate n 0xFF) ∧
      ∀ j, j ≠ i → bytes t j = bytes s j

def AreByteArrays (I : σ → Prop) (bytes : σ → Nat → Nat → UInt8) (ms : List (StorageFunctions σ)) :
    Prop := ∀ i m, ms[i]? = some m → IsByteArray I bytes i m

/-- The byte array that the modules make up. -/
def flatBytes (ms : List (StorageFunctions σ)) (bytes : σ → Nat → Nat → UInt8) (s : σ) :
    Nat → UInt8 := flat (storageSizes ms) (bytes s)

/-! ## The loop over the pieces -/

variable {β : Type} {ms : List (StorageFunctions σ)} {I : σ → Prop}
  {bytes : σ → Nat → Nat → UInt8} {address stop : Nat}

/-- What every piece carries on from where it begins to where it ends is carried on from
the beginning of the request to its end. -/
theorem forPieces_ok (act : StorageFunctions σ → Piece → β → Proc σ RetCode β)
    {P : Nat → σ → β → Prop} (data : Option Nat) (hle : address ≤ stop) :
    ∀ (back : List (StorageFunctions σ)) (start : Nat),
    (∀ front m rest first last s b, back = front ++ m :: rest →
      start + (storageSizes front).sum ≤ first → first < last →
      last ≤ start + (storageSizes front).sum + m.size → address ≤ first → last ≤ stop →
      P first s b → ∃ b' t,
        act m { address := first - (start + (storageSizes front).sum)
                data := data.map (· + (first - address)), length := last - first } b s =
          (.ok b', t) ∧ P last t b') →
    ∀ (s : σ) (b : β), stop ≤ start + (storageSizes back).sum →
    P (reached address stop start) s b → ∃ b' t,
      forPieces act back (pieces address stop data (storageSizes back) start) b s = (.ok b', t) ∧
        P stop t b'
  | [], start, _, s, b, hfit, hP => by
    refine ⟨b, s, rfl, ?_⟩
    rwa [show stop = reached address stop start by
      simp only [storageSizes, List.map_nil, List.sum_nil] at hfit
      unfold reached
      omega]
  | m :: back, start, hact, s, b, hfit, hP => by
    simp only [storageSizes, List.map_cons, List.sum_cons] at hfit
    have hback := forPieces_ok act (P := P) data hle back (start + m.size) (by
        intro front m' rest first last s b hms
        have h := hact (m :: front) m' rest first last s b (by rw [hms, List.cons_append])
        simp only [storageSizes, List.map_cons, List.sum_cons, ← Nat.add_assoc] at h ⊢
        exact h)
    simp only [storageSizes, List.map_cons, pieces, forPieces]
    by_cases hin : max address start < min stop (start + m.size)
    · obtain ⟨b', t, hb, hPt⟩ := hact [] m back (max address start) (min stop (start + m.size)) s b
        rfl (Nat.le_max_right address start) hin (Nat.min_le_right stop (start + m.size))
        (Nat.le_max_left address start) (Nat.min_le_left stop (start + m.size))
        (by rwa [show max address start = reached address stop start by unfold reached; omega])
      obtain ⟨b'', u, hu, hPu⟩ := hback t b' (by simpa [storageSizes, Nat.add_assoc] using hfit)
        (by rwa [show reached address stop (start + m.size) = min stop (start + m.size) by
          unfold reached; omega])
      refine ⟨b'', u, ?_, hPu⟩
      rw [pieceIn_of_lt hin, if_neg (by dsimp only; omega)]
      exact (Proc.bind_ok hb _).trans hu
    · rw [pieceIn_of_not_lt hin, if_pos (show Piece.empty.length = 0 from rfl)]
      apply hback s b (by simpa [storageSizes, Nat.add_assoc] using hfit)
      rwa [show reached address stop (start + m.size) = reached address stop start by
        unfold reached; omega]

/-- The loop over the pieces of a whole request. -/
theorem forPieces_split (act : StorageFunctions σ → Piece → β → Proc σ RetCode β)
    {P : Nat → σ → β → Prop} (data : Option Nat) {length : Nat} {s : σ} {b : β}
    (hfit : address + length ≤ (storageSizes ms).sum) (hsum : (storageSizes ms).sum < 2 ^ 32)
    (hact : ∀ front m rest first last s b, ms = front ++ m :: rest →
      (storageSizes front).sum ≤ first → first < last → last ≤ (storageSizes front).sum + m.size →
      address ≤ first → last ≤ address + length → P first s b → ∃ b' t,
        act m { address := first - (storageSizes front).sum
                data := data.map (· + (first - address)), length := last - first } b s =
          (.ok b', t) ∧ P last t b') (hP : P address s b) :
    ∃ b' t, forPieces act ms
        (storageSplitToStorageModules address data length (storageSizes ms)) b s = (.ok b', t) ∧
      P (address + length) t b' := by
  rw [storageSplit_eq hfit hsum]
  apply forPieces_ok act data (Nat.le_add_right address length)
  · intro front m rest first last s b
    simpa only [Nat.zero_add] using hact front m rest first last s b
  · rwa [Nat.zero_add]
  · rwa [show reached address (address + length) 0 = address by simp [reached]]

theorem storageGetSize_eq (hsum : (storageSizes ms).sum < 2 ^ 32) :
    storageGetSize ms = (storageSizes ms).sum := Nat.mod_eq_of_lt hsum

theorem request_check {a n : Nat} (hfit : a + n ≤ (storageSizes ms).sum)
    (hsum : (storageSizes ms).sum < 2 ^ 32) : ¬ (a + n) % 2 ^ 32 > storageGetSize ms := by
  rw [storageGetSize_eq hsum, Nat.mod_eq_of_lt (by omega)]
  omega

theorem storageSizes_append (front back : List (StorageFunctions σ)) (m : StorageFunctions σ) :
    storageSizes (front ++ m :: back) = storageSizes front ++ m.size :: storageSizes back := by
  simp [storageSizes]

section Modules

variable (hms : AreByteArrays I bytes ms)
include hms

theorem AreByteArrays.middle {front rest : List (StorageFunctions σ)} {m : StorageFunctions σ}
    (h : ms = front ++ m :: rest) : IsByteArray I bytes front.length m :=
  hms front.length m (by rw [h, List.getElem?_append_right (Nat.le_refl _), Nat.sub_self]; rfl)

omit hms in
/-- A change of one module, seen in the flat array. -/
theorem flatBytes_overwrite {front rest : List (StorageFunctions σ)} {m : StorageFunctions σ}
    {s t : σ} {a : Nat} {d : List UInt8} (h : ms = front ++ m :: rest)
    (hfit : a + d.length ≤ m.size)
    (hwrite : bytes t front.length = overwrite (bytes s front.length) a d)
    (hframe : ∀ j, j ≠ front.length → bytes t j = bytes s j) :
    flatBytes ms bytes t = overwrite (flatBytes ms bytes s) ((storageSizes front).sum + a) d := by
  have hlen : (storageSizes front).length = front.length := List.length_map _
  unfold flatBytes
  rw [h, storageSizes_append]
  apply flat_overwrite _ _ _ hfit
  · rwa [hlen]
  · rwa [hlen]

theorem storageStore_flat {d : List UInt8} {s : σ} (hs : I s)
    (hsum : (storageSizes ms).sum < 2 ^ 32)
    (hfit : address + d.length ≤ (storageSizes ms).sum) :
    ∃ t, storageStore ms address d s = (.ok (), t) ∧ I t ∧
      flatBytes ms bytes t = overwrite (flatBytes ms bytes s) address d := by
  unfold storageStore
  rw [Proc.failIf_bind_neg (request_check hfit hsum)]
  by_cases hd : d.length = 0
  · rw [List.length_eq_zero_iff] at hd
    subst hd
    refine ⟨s, rfl, hs, (overwrite_nil _ _).symm⟩
  rw [Proc.when_pos hd]
  obtain ⟨u, t, hrun, ht, hflat⟩ := forPieces_split (storePiece d) (some 0)
    (P := fun x t _ => I t ∧ flatBytes ms bytes t =
      overwrite (flatBytes ms bytes s) address (d.take (x - address))) (b := ()) hfit hsum
    (by
      rintro front m rest first last t _ hm hfirst hlt hlast hle hle' ⟨ht, hflat⟩
      have hpiece : ((d.drop (first - address)).take (last - first)).length = last - first := by
        rw [List.length_take, List.length_drop]
        omega
      obtain ⟨u, hu, hIu, hwrite, hframe⟩ := (hms.middle hm).store
        (first - (storageSizes front).sum) ((d.drop (first - address)).take (last - first)) t ht
        (by omega) (by omega)
      refine ⟨(), u, ?_, hIu, ?_⟩
      · simpa [storePiece] using hu
      · rw [flatBytes_overwrite hm (by omega) hwrite hframe, hflat,
          Nat.add_sub_cancel' hfirst, show last - address = first - address + (last - first) by omega,
          List.take_add, ← overwrite_append, List.length_take]
        congr 1
        omega)
    ⟨hs, by simp⟩
  rw [Nat.add_sub_cancel_left, List.take_length] at hflat
  exact ⟨t, hrun, ht, hflat⟩

theorem storageClear_flat {length : Nat} {s : σ} (hs : I s)
    (hsum : (storageSizes ms).sum < 2 ^ 32)
    (hfit : address + length ≤ (storageSizes ms).sum) :
    ∃ t, storageClear ms address length s = (.ok (), t) ∧ I t ∧
      flatBytes ms bytes t =
        overwrite (flatBytes ms bytes s) address (List.replicate length 0xFF) := by
  unfold storageClear
  rw [Proc.failIf_bind_neg (request_check hfit hsum)]
  by_cases hn : length = 0
  · subst hn
    exact ⟨s, rfl, hs, (overwrite_nil _ _).symm⟩
  rw [Proc.when_pos hn]
  obtain ⟨u, t, hrun, ht, hflat⟩ := forPieces_split clearPiece none
    (P := fun x t _ => I t ∧ flatBytes ms bytes t =
      overwrite (flatBytes ms bytes s) address (List.replicate (x - address) 0xFF)) (b := ()) hfit
    hsum
    (by
      rintro front m rest first last t _ hm hfirst hlt hlast hle hle' ⟨ht, hflat⟩
      obtain ⟨u, hu, hIu, hwrite, hframe⟩ := (hms.middle hm).clear
        (first - (storageSizes front).sum) (last - first) t ht (by omega) (by omega)
      refine ⟨(), u, hu, hIu, ?_⟩
      rw [flatBytes_overwrite hm (by rw [List.length_replicate]; omega) hwrite hframe, hflat,
        Nat.add_sub_cancel' hfirst, show last - address = first - address + (last - first) by omega,
        ← List.replicate_append_replicate, ← overwrite_append, List.length_replicate]
      congr 1
      omega)
    ⟨hs, by simp⟩
  rw [Nat.add_sub_cancel_left] at hflat
  exact ⟨t, hrun, ht, hflat⟩

theorem storageRead_flat {length : Nat} (buffer : Nat → UInt8) {s : σ} (hs : I s)
    (hsum : (storageSizes ms).sum < 2 ^ 32)
    (hfit : address + length ≤ (storageSizes ms).sum) :
    ∃ t, storageRead ms address length buffer s =
        (.ok (overwrite buffer 0 (slice (flatBytes ms bytes s) address length)), t) ∧ I t ∧
      flatBytes ms bytes t = flatBytes ms bytes s := by
  unfold storageRead
  rw [Proc.failIf_bind_neg (request_check hfit hsum)]
  by_cases hn : length = 0
  · subst hn
    refine ⟨s, ?_, hs, rfl⟩
    rw [Proc.branch_pos rfl, slice_zero, overwrite_nil]
    rfl
  rw [Proc.branch_neg hn]
  obtain ⟨b, t, hrun, ht, hflat, hb⟩ := forPieces_split readPiece (some 0)
    (P := fun x t b => I t ∧ flatBytes ms bytes t = flatBytes ms bytes s ∧
      b = overwrite buffer 0 (slice (flatBytes ms bytes s) address (x - address))) (b := buffer)
    hfit hsum
    (by
      rintro front m rest first last t b hm hfirst hlt hlast hle hle' ⟨ht, hflat, hb⟩
      obtain ⟨u, hu, hIu, hsame⟩ := (hms.middle hm).read
        (first - (storageSizes front).sum) (last - first) t ht (by omega) (by omega)
      have hslice : slice (bytes t front.length) (first - (storageSizes front).sum) (last - first) =
          slice (flatBytes ms bytes s) first (last - first) := by
        rw [← hflat, flatBytes, hm, storageSizes_append]
        have hlen : (storageSizes front).length = front.length := List.length_map _
        have h := slice_flat (storageSizes front) m.size (storageSizes rest) (m := bytes t)
          (a := first - (storageSizes front).sum) (n := last - first) (by omega)
        rw [Nat.add_sub_cancel' hfirst, hlen] at h
        exact h.symm
      refine ⟨_, u, Proc.bind_ok hu _, hIu, ?_, ?_⟩
      · rw [flatBytes, hsame]
        exact hflat
      · rw [hslice, hb, show last - address = first - address + (last - first) by omega, slice_add,
          ← overwrite_append, slice_length, Nat.add_sub_cancel' hle])
    ⟨hs, rfl, by rw [Nat.sub_self, slice_zero, overwrite_nil]⟩
  rw [Nat.add_sub_cancel_left] at hb
  exact ⟨t, hb ▸ hrun, ht, hflat⟩

end Modules

/-! ## Runs of requests -/

/-- A call of `storage_store`, `storage_read` or `storage_clear`. -/
inductive Request where
  | store (address : Nat) (data : List UInt8)
  | read (address length : Nat) (buffer : Nat → UInt8)
  | clear (address length : Nat)

/-- `address` and `length_data` of the call. -/
def Request.range : Request → Nat × Nat
  | .store address data => (address, data.length)
  | .read address length _ => (address, length)
  | .clear address length => (address, length)

/-- The call, with the buffer of a read as its result. -/
def Request.perform (ms : List (StorageFunctions σ)) :
    Request → Proc σ RetCode (Option (Nat → UInt8))
  | .store address data => do storageStore ms address data; pure none
  | .read address length buffer => do
    let buffer ← storageRead ms address length buffer
    pure (some buffer)
  | .clear address length => do storageClear ms address length; pure none

/-- The request served by a single byte array. -/
def Request.onArray (m : Nat → UInt8) : Request → Option (Nat → UInt8) × (Nat → UInt8)
  | .store address data => (none, overwrite m address data)
  | .read address length buffer => (some (overwrite buffer 0 (slice m address length)), m)
  | .clear address length => (none, overwrite m address (List.replicate length 0xFF))

/-- The calls one after the other, with their results. -/
def performAll (ms : List (StorageFunctions σ)) :
    List Request → Proc σ RetCode (List (Option (Nat → UInt8)))
  | [] => pure []
  | r :: rs => do
    let result ← r.perform ms
    let results ← performAll ms rs
    pure (result :: results)

def onArrayAll (m : Nat → UInt8) : List Request → List (Option (Nat → UInt8)) × (Nat → UInt8)
  | [] => ([], m)
  | r :: rs =>
    ((r.onArray m).1 :: (onArrayAll (r.onArray m).2 rs).1, (onArrayAll (r.onArray m).2 rs).2)

theorem Request.perform_flat (hms : AreByteArrays I bytes ms) {s : σ} (hs : I s)
    (hsum : (storageSizes ms).sum < 2 ^ 32) (r : Request)
    (hfit : r.range.1 + r.range.2 ≤ (storageSizes ms).sum) :
    ∃ t, r.perform ms s = (.ok (r.onArray (flatBytes ms bytes s)).1, t) ∧ I t ∧
      flatBytes ms bytes t = (r.onArray (flatBytes ms bytes s)).2 := by
  cases r with
  | store address data =>
    obtain ⟨t, hrun, ht, hflat⟩ := storageStore_flat hms hs hsum hfit
    exact ⟨t, Proc.bind_ok hrun _, ht, hflat⟩
  | read address length buffer =>
    obtain ⟨t, hrun, ht, hflat⟩ := storageRead_flat hms buffer hs hsum hfit
    exact ⟨t, Proc.bind_ok hrun _, ht, hflat⟩
  | clear address length =>
    obtain ⟨t, hrun, ht, hflat⟩ := storageClear_flat hms hs hsum hfit
    exact ⟨t, Proc.bind_ok hrun _, ht, hflat⟩

theorem performAll_flat (hms : AreByteArrays I bytes ms) (hsum : (storageSizes ms).sum < 2 ^ 32) :
    ∀ {rs : List Request} {s : σ}, I s →
    (∀ r ∈ rs, r.range.1 + r.range.2 ≤ (storageSizes ms).sum) →
    ∃ t, performAll ms rs s = (.ok (onArrayAll (flatBytes ms bytes s) rs).1, t) ∧ I t ∧
      flatBytes ms bytes t = (onArrayAll (flatBytes ms bytes s) rs).2
  | [], s, hs, _ => ⟨s, rfl, hs, rfl⟩
  | r :: rs, s, hs, hfit => by
    obtain ⟨t, hrun, ht, hflat⟩ := r.perform_flat hms hs hsum (hfit r List.mem_cons_self)
    obtain ⟨u, hrest, hu, hflat'⟩ := performAll_flat hms hsum ht
      fun r' hr => hfit r' (List.mem_cons_of_mem r hr)
    rw [hflat] at hrest hflat'
    exact ⟨u, (Proc.bind_ok hrun _).trans (Proc.bind_ok hrest _), hu, hflat'⟩

/-! ## Units -/

/-- `x` is a multiple of the unit size of a module that it lies in or borders on. -/
def UnitAligned (modules : List StorageModule) (x : Nat) : Prop :=
  ∃ front m back, modules = front ++ m :: back ∧ totalSize front ≤ x ∧
    x ≤ totalSize front + m.size ∧ m.unitSize ∣ x - totalSize front

theorem UnitAligned.cons {modules : List StorageModule} {x : Nat} (h : UnitAligned modules x)
    (m : StorageModule) : UnitAligned (m :: modules) (x + m.size) := by
  obtain ⟨front, m', back, rfl, hlo, hhi, hdvd⟩ := h
  have hfront : totalSize (m :: front) = m.size + totalSize front := rfl
  refine ⟨m :: front, m', back, rfl, by omega, by omega, ?_⟩
  rwa [hfront, Nat.add_comm m.size, Nat.add_sub_add_right]

theorem unitStart_aligned : ∀ {modules : List StorageModule} {x : Nat}, x < totalSize modules →
    UnitAligned modules (unitStart modules x)
  | [], _, h => absurd h (Nat.not_lt_zero _)
  | m :: modules, x, h => by
    have htotal : totalSize (m :: modules) = m.size + totalSize modules := rfl
    unfold unitStart
    split
    · have hle := Nat.div_mul_le_self x m.unitSize
      exact ⟨[], m, modules, rfl, Nat.zero_le _, by change _ ≤ 0 + m.size; omega,
        Nat.dvd_mul_left _ _⟩
    · exact (unitStart_aligned (by omega)).cons m

theorem unitStop_aligned : ∀ {modules : List StorageModule} {x : Nat}, x < totalSize modules →
    UnitAligned modules (unitStop modules x)
  | [], _, h => absurd h (Nat.not_lt_zero _)
  | m :: modules, x, h => by
    have htotal : totalSize (m :: modules) = m.size + totalSize modules := rfl
    unfold unitStop
    split
    · rename_i hx
      have hle := module_stop_le hx
      exact ⟨[], m, modules, rfl, Nat.zero_le _, by change _ ≤ 0 + m.size; omega,
        Nat.dvd_mul_left _ _⟩
    · exact (unitStop_aligned (by omega)).cons m

/-- Aligned positions are the fixed points of `unitStart`. -/
theorem UnitAligned.unitStart_eq {x : Nat} : ∀ {modules : List StorageModule},
    UnitAligned modules x → unitStart modules x = x
  | modules, ⟨[], m, back, hm, _, hhi, hdvd⟩ => by
    subst hm
    change x ≤ 0 + m.size at hhi
    change m.unitSize ∣ x at hdvd
    simp only [List.nil_append, unitStart]
    split
    · exact Nat.div_mul_cancel hdvd
    · have hx : x = m.size := by omega
      have h0 := unitStart_le back 0
      rw [hx, Nat.sub_self]
      omega
  | modules, ⟨n :: front, m, back, hm, hlo, hhi, hdvd⟩ => by
    subst hm
    have hfront : totalSize (n :: front) = n.size + totalSize front := rfl
    rw [hfront] at hlo hhi hdvd
    have ih : unitStart (front ++ m :: back) (x - n.size) = x - n.size :=
      UnitAligned.unitStart_eq ⟨front, m, back, rfl, by omega, by omega, by
        rwa [Nat.sub_sub]⟩
    simp only [List.cons_append, unitStart]
    rw [if_neg (by omega), ih]
    omega

theorem unitStart_mono : ∀ (modules : List StorageModule) {x y : Nat}, x ≤ y →
    unitStart modules x ≤ unitStart modules y
  | [], _, _, h => h
  | m :: modules, x, y, h => by
    have ih := unitStart_mono modules (Nat.sub_le_sub_right h m.size)
    unfold unitStart
    by_cases hx : x < m.size
    · rw [if_pos hx]
      have hle := Nat.div_mul_le_self x m.unitSize
      split
      · exact Nat.mul_le_mul_right _ (Nat.div_le_div_right h)
      · omega
    · rw [if_neg hx, if_neg (by omega)]
      omega

/-- `[first, last]` is the smallest range between aligned positions that contains the
`length` addresses from `address` on. -/
structure IsUnitLimits (modules : List StorageModule) (address length first last : Nat) :
    Prop where
  first_le : first ≤ address
  le_last : address + length ≤ last + 1
  first_aligned : UnitAligned modules first
  last_aligned : UnitAligned modules (last + 1)
  first_max : ∀ x, UnitAligned modules x → x ≤ address → x ≤ first
  last_min : ∀ x, UnitAligned modules x → address + length ≤ x → last + 1 ≤ x

theorem storageGetUnitAddressLimits_smallest {modules : List StorageModule}
    (hsum : totalSize modules < 2 ^ 32) {a n : Nat} (hn : 0 < n) (hfit : a + n ≤ totalSize modules) :
    ∃ first last, storageGetUnitAddressLimits modules a n = .ok (first, last) ∧
      IsUnitLimits modules a n first last := by
  have hstop := lt_unitStop modules (a + n - 1)
  have hrun : storageGetUnitAddressLimits modules a n =
      .ok (unitStart modules a, unitStop modules (a + n - 1) - 1) := by
    unfold storageGetUnitAddressLimits
    rw [Nat.mod_eq_of_lt hsum, Nat.mod_eq_of_lt (show a + n < 2 ^ 32 by omega), if_neg (by omega),
      if_neg (by omega), Nat.mod_eq_of_lt (show a + n - 1 < 2 ^ 32 by omega), unitLimitsLoop_eq modules 0 a (a + n - 1) 0 (Nat.zero_le _) (by omega)
        (by omega) (fun h => absurd h (Nat.not_lt_zero _)), if_neg (Nat.not_lt_zero _)]
    rfl
  have hlast : unitStop modules (a + n - 1) - 1 + 1 = unitStop modules (a + n - 1) := by omega
  refine ⟨_, _, hrun, unitStart_le modules a, by omega, unitStart_aligned (by omega), ?_, ?_, ?_⟩
  · rw [hlast]
    exact unitStop_aligned (by omega)
  · intro x hx hle
    rw [← hx.unitStart_eq]
    exact unitStart_mono modules hle
  · intro x hx hle
    rw [hlast]
    exact unitStop_le_of_lt hx.unitStart_eq (by omega)

/-! ## Byte arrays -/

/-- The functions of the `i`-th of several byte arrays. -/
def byteArray (i size : Nat) : StorageFunctions (Nat → Nat → UInt8) where
  size := size
  store a d := fun s => (.ok (), Function.update s i (overwrite (s i) a d))
  read a n := fun s => (.ok (slice (s i) a n), s)
  clear a n := fun s => (.ok (), Function.update s i (overwrite (s i) a (List.replicate n 0xFF)))

theorem byteArray_isByteArray (i size : Nat) :
    IsByteArray (fun _ => True) id i (byteArray i size) where
  store _ _ _ _ _ _ :=
    ⟨_, rfl, trivial, Function.update_self _ _ _, fun _ hj => Function.update_of_ne hj _ _⟩
  read _ _ s _ _ _ := ⟨s, rfl, trivial, rfl⟩
  clear _ _ _ _ _ _ :=
    ⟨_, rfl, trivial, Function.update_self _ _ _, fun _ hj => Function.update_of_ne hj _ _⟩

theorem byteArrays (sizes : List Nat) :
    AreByteArrays (fun _ => True) id (sizes.mapIdx byteArray) := by
  intro i m hm
  rw [List.getElem?_mapIdx, Option.map_eq_some_iff] at hm
  obtain ⟨size, _, rfl⟩ := hm
  exact byteArray_isByteArray i size

/-- The storage modules form one flat address space. -/
theorem storage_modules_form_one_address_space :
    (∀ (sizes : List Nat) (address length : Nat) (data : Option Nat), sizes.sum < 2 ^ 32 →
      0 < length → address + length ≤ sizes.sum →
      IsSplit address length data sizes
        (storageSplitToStorageModules address data length sizes)) ∧
    (∀ {σ : Type} (ms : List (StorageFunctions σ)) (I : σ → Prop)
      (bytes : σ → Nat → Nat → UInt8), AreByteArrays I bytes ms →
      (storageSizes ms).sum < 2 ^ 32 → ∀ (rs : List Request),
      (∀ r ∈ rs, r.range.1 + r.range.2 ≤ (storageSizes ms).sum) → ∀ s, I s →
      ∃ t, performAll ms rs s = (.ok (onArrayAll (flatBytes ms bytes s) rs).1, t) ∧
        flatBytes ms bytes t = (onArrayAll (flatBytes ms bytes s) rs).2) ∧
    (∀ (modules : List StorageModule) (address length : Nat), totalSize modules < 2 ^ 32 →
      0 < length → address + length ≤ totalSize modules →
      ∃ first last, storageGetUnitAddressLimits modules address length = .ok (first, last) ∧
        IsUnitLimits modules address length first last) := by
  refine ⟨fun sizes address length data hsum _ hfit => storageSplit_isSplit hfit hsum, ?_,
    fun modules address length hsum hn hfit => storageGetUnitAddressLimits_smallest hsum hn hfit⟩
  intro σ ms I bytes hms hsum rs hfit s hs
  obtain ⟨t, hrun, _, hflat⟩ := performAll_flat hms hsum hs hfit
  exact ⟨t, hrun, hflat⟩

theorem storage_modules_form_one_address_space_over_three :
    storageSplitToStorageModules 8 (some 0) 4 [10, 0, 10] =
        [⟨8, some 0, 2⟩, Piece.empty, ⟨0, some 2, 2⟩] ∧
      positions [10, 0, 10] 0 (storageSplitToStorageModules 8 (some 0) 4 [10, 0, 10]) =
        [8, 9, 10, 11] ∧
      (∃ t, performAll ([10, 0, 10].mapIdx byteArray)
          [.store 8 [1, 2, 3, 4], .read 9 2 fun _ => 0] (fun _ _ => 0) =
        (.ok [none, some (overwrite (fun _ => 0) 0 [2, 3])], t)) ∧
      ∃ first last, storageGetUnitAddressLimits [⟨8, 4, by decide, by decide⟩,
          ⟨6, 1, by decide, by decide⟩] 5 4 = .ok (first, last) ∧ (first, last) = (4, 8) := by
  obtain ⟨hsplit, hruns, hlimits⟩ := storage_modules_form_one_address_space
  refine ⟨by decide, ?_, ?_, ?_⟩
  · exact (hsplit [10, 0, 10] 8 4 (some 0) (by decide) (by decide) (by decide)).covers
  · obtain ⟨t, hrun, _⟩ := hruns ([10, 0, 10].mapIdx byteArray) (fun _ => True) id
      (byteArrays [10, 0, 10]) (by decide) [.store 8 [1, 2, 3, 4], .read 9 2 fun _ => 0]
      (by simp [Request.range, storageSizes, byteArray]) (fun _ _ => 0) trivial
    exact ⟨t, hrun⟩
  · obtain ⟨first, last, hrun, _⟩ := hlimits [⟨8, 4, by decide, by decide⟩,
      ⟨6, 1, by decide, by decide⟩] 5 4 (by decide) (by decide) (by decide)
    refine ⟨first, last, hrun, ?_⟩
    have h : storageGetUnitAddressLimits [⟨8, 4, by decide, by decide⟩,
      ⟨6, 1, by decide, by decide⟩] 5 4 = .ok (4, 8) := by decide
    rw [h] at hrun
    cases hrun
    rfl

end OpenBadge.StorageLib
