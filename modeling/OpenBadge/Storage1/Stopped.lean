import OpenBadge.Storage1.Convert

/-!
# Programming that a failure stops

A byte range is programmed by several `flash_store` calls, and each of them may
fail with no effect. Bits only get cleared, so a run stopped by a failure lies
between the state before it and the state the whole run would have reached. What
the whole run leaves as it was is as it was in the stopped run too.
-/

namespace OpenBadge.Storage1

open OpenBadge.Lib

/-- The state with flash whose calls no longer fail. -/
def State.unfailing (s : State) : State := { s with fault := fun _ => none }

theorem State.unfailing_ideal (s : State) : Ideal s.unfailing := fun _ => rfl

theorem State.unfailing_eq {s : State} (h : Ideal s) : s.unfailing = s := by
  have hfault : s.fault = fun _ => none := funext h
  unfold State.unfailing
  rw [← hfault]

/-- Every bit set in `t` is set in `s`. -/
def Clears (s t : State) : Prop := ∀ x, byteAt t.cells x &&& byteAt s.cells x = byteAt t.cells x

theorem Clears.refl (s : State) : Clears s s := fun _ => UInt8.and_self

theorem Clears.trans {s t u : State} (h : Clears s t) (h' : Clears t u) : Clears s u := by
  intro x
  calc byteAt u.cells x &&& byteAt s.cells x
      = byteAt u.cells x &&& byteAt t.cells x &&& byteAt s.cells x := by rw [h' x]
    _ = byteAt u.cells x &&& (byteAt t.cells x &&& byteAt s.cells x) := UInt8.and_assoc _ _ _
    _ = byteAt u.cells x := by rw [h x, h' x]

/-- A byte that is the same at both ends is the same between them. -/
theorem Clears.eq_between {s t u : State} (h : Clears s t) (h' : Clears t u) {x : Nat}
    (heq : byteAt u.cells x = byteAt s.cells x) : byteAt t.cells x = byteAt s.cells x := by
  have hu := h' x
  rw [heq] at hu
  rw [← h x, UInt8.and_comm]
  exact hu

/-- `x` consists of `flash_store` calls that do not depend on each other's outcome. -/
structure Programming (x : M Unit) : Prop where
  clears : ∀ s, Clears s (x s).2
  whole : ∀ s : State, ∃ u, x s.unfailing = (.ok (), u) ∧ Clears (x s).2 u
  same : ∀ s, (x s).1 = .ok () → x s.unfailing = (.ok (), (x s).2.unfailing)
  lastStored : ∀ s, (x s).2.lastStored = s.lastStored
  fault : ∀ s, (x s).2.fault = s.fault

theorem Programming.pure : Programming (pure ()) where
  clears s := Clears.refl s
  whole s := ⟨_, rfl, Clears.refl s⟩
  same _ _ := rfl
  lastStored _ := rfl
  fault _ := rfl

theorem Programming.flashStore (wordNum : Nat) (ws : List Word) :
    Programming (flashStore wordNum ws) := by
  have hcases : ∀ s : State, (∃ e, Storage1.flashStore wordNum ws s =
        (.error e, { s with calls := s.calls + 1 })) ∨
      Storage1.flashStore wordNum ws s =
        (.ok (), { s with cells := programmed s.cells wordNum ws, calls := s.calls + 1 }) := by
    intro s
    unfold Storage1.flashStore withFault
    cases s.fault s.calls with
    | some e => exact Or.inl ⟨e, rfl⟩
    | none => exact Or.inr rfl
  have hclears : ∀ s : State, Clears s
      { s with cells := programmed s.cells wordNum ws, calls := s.calls + 1 } := by
    intro s x
    dsimp only
    rw [byteAt_programmed, UInt8.and_assoc, UInt8.and_comm (offered wordNum ws x),
      ← UInt8.and_assoc, UInt8.and_self]
  have hwhole := fun s : State => flashStore_ideal s.unfailing_ideal wordNum ws
  constructor
  · intro s
    rcases hcases s with ⟨e, h⟩ | h
    · rw [h]
      exact Clears.refl s
    · rw [h]
      exact hclears s
  · intro s
    refine ⟨_, hwhole s, ?_⟩
    rcases hcases s with ⟨e, h⟩ | h
    · rw [h]
      exact hclears s
    · rw [h]
      exact Clears.refl _
  · intro s hok
    rcases hcases s with ⟨e, h⟩ | h
    · rw [h] at hok
      exact absurd hok (by simp)
    · rw [h, hwhole s]
      rfl
  · intro s
    rcases hcases s with ⟨e, h⟩ | h <;> rw [h]
  · intro s
    rcases hcases s with ⟨e, h⟩ | h <;> rw [h]

theorem Programming.bind {x : M Unit} {f : Unit → M Unit} (hx : Programming x)
    (hf : Programming (f ())) : Programming (x >>= f) := by
  have hcases : ∀ s, (∃ e t, x s = (.error e, t) ∧ (x >>= f) s = (.error e, t)) ∨
      ∃ t, x s = (.ok (), t) ∧ (x >>= f) s = f () t := by
    intro s
    rcases hxs : x s with ⟨e | ⟨⟩, t⟩
    · exact Or.inl ⟨e, t, rfl, Proc.bind_error hxs f⟩
    · exact Or.inr ⟨t, rfl, Proc.bind_ok hxs f⟩
  constructor
  · intro s
    have h := hx.clears s
    rcases hcases s with ⟨e, t, hxs, hs⟩ | ⟨t, hxs, hs⟩
    · rw [hxs] at h
      rw [hs]
      exact h
    · rw [hxs] at h
      rw [hs]
      exact h.trans (hf.clears t)
  · intro s
    obtain ⟨u, hu, hclear⟩ := hx.whole s
    rw [Proc.bind_ok hu]
    rcases hcases s with ⟨e, t, hxs, hs⟩ | ⟨t, hxs, hs⟩
    · rw [hxs] at hclear
      have hideal : Ideal u := by
        have hfault := hx.fault s.unfailing
        rw [hu] at hfault
        intro n
        rw [hfault]
        rfl
      obtain ⟨v, hv, -⟩ := hf.whole u
      rw [State.unfailing_eq hideal] at hv
      have hmono := hf.clears u
      rw [hv] at hmono
      rw [hs]
      exact ⟨v, hv, hclear.trans hmono⟩
    · have hsame := hx.same s
      rw [hxs] at hsame
      obtain rfl : u = t.unfailing := congrArg Prod.snd (hu.symm.trans (hsame rfl))
      rw [hs]
      exact hf.whole t
  · intro s hok
    rcases hcases s with ⟨e, t, hxs, hs⟩ | ⟨t, hxs, hs⟩
    · rw [hs] at hok
      exact absurd hok (by simp)
    · have hsame := hx.same s
      rw [hxs] at hsame
      rw [hs] at hok ⊢
      rw [Proc.bind_ok (hsame rfl)]
      exact hf.same t hok
  · intro s
    have h := hx.lastStored s
    rcases hcases s with ⟨e, t, hxs, hs⟩ | ⟨t, hxs, hs⟩
    · rw [hxs] at h
      rw [hs]
      exact h
    · rw [hxs] at h
      rw [hs]
      exact (hf.lastStored t).trans h
  · intro s
    have h := hx.fault s
    rcases hcases s with ⟨e, t, hxs, hs⟩ | ⟨t, hxs, hs⟩
    · rw [hxs] at h
      rw [hs]
      exact h
    · rw [hxs] at h
      rw [hs]
      exact (hf.fault t).trans h

theorem Programming.when {p : Prop} [Decidable p] {x : M Unit} (hx : Programming x) :
    Programming (Proc.when p x) := by
  by_cases h : p
  · rw [Proc.when_pos h]
    exact hx
  · rw [Proc.when_neg h]
    exact Programming.pure

theorem Programming.forUpTo {f : Nat → M Unit} (hf : ∀ i, Programming (f i)) (n : Nat) :
    Programming (Proc.forUpTo n f) := by
  induction n with
  | zero => exact Programming.pure
  | succ n ih => exact ih.bind (hf n)

theorem storeIntermediate_programming (address : Nat) (data : List UInt8) (al : Alignment) :
    Programming (storeIntermediate address data al) := by
  unfold storeIntermediate
  split
  · exact Programming.flashStore _ _
  · apply Programming.bind
    · exact Programming.forUpTo (fun i => Programming.flashStore _ _) _
    · exact (Programming.flashStore _ _).when

theorem storeUint8AsUint32_programming {c : Config} {address : Nat} {data : List UInt8}
    (hin : address + data.length ≤ getSize c) :
    Programming (storeUint8AsUint32 c address data) := by
  have hsize : getSize c < 2 ^ 31 := c.size_lt
  unfold storeUint8AsUint32
  have hcheck : (Proc.failIf (getSize c < (address + data.length) % 2 ^ 32) .invalidParam : M Unit)
      = pure () := by
    funext s
    exact Proc.failIf_neg (by rw [Nat.mod_eq_of_lt (by omega)]; omega) _ s
  rw [hcheck]
  apply Programming.pure.bind
  split
  · exact Programming.pure
  · apply (storeIntermediate_programming address data _).when.bind
    apply (Programming.flashStore _ _).when.bind
    exact (Programming.flashStore _ _).when

/-- Storing a range on any flash leaves the bytes outside it as they were, and
when it succeeds it programs exactly its bytes. -/
structure Attempts (address : Nat) (data : List UInt8) (s : State)
    (result : Except RetCode Unit × State) : Prop where
  outside : ∀ x, ¬ (address ≤ x ∧ x < address + data.length) →
    byteAt result.2.cells x = byteAt s.cells x
  programs : result.1 = .ok () → Programs address data s result.2
  lastStored : result.2.lastStored = s.lastStored
  fault : result.2.fault = s.fault
  ideal : Ideal s → result.1 = .ok ()

theorem offer_outside {address : Nat} {data : List UInt8} {x : Nat}
    (h : ¬ (address ≤ x ∧ x < address + data.length)) : offer address data x = 0xFF := by
  rcases Nat.lt_or_ge x address with hx | hx
  · exact overwrite_of_lt _ _ hx
  · exact overwrite_of_ge _ _ (by omega)

theorem storeUint8AsUint32_attempts {c : Config} {address : Nat} {data : List UInt8}
    (hin : address + data.length ≤ getSize c) (s : State) :
    Attempts address data s (storeUint8AsUint32 c address data s) := by
  have hx := storeUint8AsUint32_programming hin
  obtain ⟨u, hu, hp⟩ := storeUint8AsUint32_programs c s.unfailing_ideal hin
  constructor
  · intro x hout
    obtain ⟨u', hu', hclear⟩ := hx.whole s
    obtain rfl : u = u' := congrArg Prod.snd (hu.symm.trans hu')
    apply (hx.clears s).eq_between hclear
    rw [hp.bytes, offer_outside hout, and_ones]
    rfl
  · intro hok
    obtain rfl : u = (storeUint8AsUint32 c address data s).2.unfailing :=
      congrArg Prod.snd (hu.symm.trans (hx.same s hok))
    exact ⟨hp.bytes, hx.fault s, hx.lastStored s⟩
  · exact hx.lastStored s
  · exact hx.fault s
  · intro hs
    rw [State.unfailing_eq hs] at hu
    rw [hu]

end OpenBadge.Storage1
