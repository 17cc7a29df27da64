import OpenBadge.Tinybuf.Generator

/-!
# A pass of the parser from front to back

The iterator starts again whenever lines are taken out of the block. The lines in front are
then passed once more, and since nothing claims them the pass goes on where it was: a pass
reads the lines from front to back and takes out those it claims.
-/

namespace OpenBadge.Tinybuf.Generator

/-- No two lines have the same number. -/
def Numbered (lines : List Line) : Prop := (lines.map Line.number).Nodup

theorem Numbered.sublist {lines part : List Line} (h : Numbered lines) (hs : part.Sublist lines) :
    Numbered part := List.Nodup.sublist (hs.map Line.number) h

theorem fileLines_numbered (content : List (List Char)) : Numbered (fileLines content) := by
  have hz : ((content.map tokenize).zipIdx.map Prod.snd).Nodup := by
    rw [List.zipIdx_map_snd]
    exact List.nodup_range'
  have hf := hz.sublist ((List.filter_sublist (p := fun p => p.1 ≠ [])).map Prod.snd)
  unfold Numbered fileLines
  rw [List.map_map]
  have hn := hf.map Nat.succ_injective
  rw [List.map_map] at hn
  exact hn

section Block

variable {pre rest lines seg : List Line} {l : Line}

theorem closeBlock_segment {b : Line → Int} {counter : Int} (h : closeBlock b counter lines = some seg) :
    seg ≠ [] ∧ ∃ after, lines = seg ++ after := by
  induction lines generalizing counter seg with
  | nil => cases h
  | cons l rest ih =>
    unfold closeBlock at h
    split at h
    · cases h
      exact ⟨List.cons_ne_nil _ _, rest, rfl⟩
    · obtain ⟨seg', hs, rfl⟩ := Option.map_eq_some_iff.mp h
      obtain ⟨-, after, rfl⟩ := ih hs
      exact ⟨List.cons_ne_nil _ _, after, rfl⟩

theorem closeBlock_head {b : Line → Int} {counter : Int} {block : List Line}
    (h : closeBlock b counter (l :: rest) = some block) :
    ∃ seg after, block = l :: seg ∧ rest = seg ++ after := by
  obtain ⟨hne, after, he⟩ := closeBlock_segment h
  obtain ⟨l', seg, rfl⟩ := List.exists_cons_of_ne_nil hne
  rw [List.cons_append] at he
  obtain ⟨rfl, rfl⟩ := List.cons.inj he
  exact ⟨seg, after, rfl, rfl⟩

/-- The block does not depend on the lines behind it. -/
theorem closeBlock_append {b : Line → Int} {counter : Int} {after : List Line}
    (h : closeBlock b counter (seg ++ after) = some seg) (after' : List Line) :
    closeBlock b counter (seg ++ after') = some seg := by
  induction seg generalizing counter with
  | nil => exact absurd rfl (closeBlock_segment h).1
  | cons l seg ih =>
    rw [List.cons_append, closeBlock] at h ⊢
    split at h
    · next hc => rw [if_pos hc]; exact h
    · next hc =>
      obtain ⟨seg', hs, he⟩ := Option.map_eq_some_iff.mp h
      cases he
      rw [if_neg hc, ih hs]
      rfl

theorem Numbered.not_mem_front (h : Numbered (pre ++ l :: rest)) : ∀ p ∈ pre, p.number ≠ l.number := by
  intro p hp he
  unfold Numbered at h
  rw [List.map_append, List.nodup_append] at h
  exact h.2.2 p.number (List.mem_map_of_mem hp) l.number (List.mem_map_of_mem List.mem_cons_self) he

/-- A block is extracted from its first line on. -/
theorem extractBlock_eq (h : Numbered (pre ++ l :: rest)) (i : Nat) :
    Block.extractBlock ⟨pre ++ l :: rest, i⟩ l.number =
      if openBrace ∈ l.tokens then (closeBlock brackets 0 (l :: rest)).map (⟨·, 0⟩) else none := by
  have hd : (pre ++ l :: rest).dropWhile (fun p => p.number ≠ l.number) = l :: rest := by
    rw [List.dropWhile_append_of_pos (by simpa using h.not_mem_front), List.dropWhile_cons_of_neg (by simp)]
  unfold Block.extractBlock
  rw [hd]

theorem removeLine_eq (h : Numbered (pre ++ l :: rest)) (i : Nat) :
    Block.removeLine ⟨pre ++ l :: rest, i⟩ l.number = ⟨pre ++ rest, 0⟩ := by
  have ha : (pre ++ l :: rest).any (·.number = l.number) = true :=
    List.any_eq_true.mpr ⟨l, by simp, by simp⟩
  unfold Block.removeLine
  rw [if_pos ha, List.eraseP_append_right _ (by simpa using h.not_mem_front),
    List.eraseP_cons_of_pos (by simp)]

/-- A segment is taken out, and the iterator starts again. -/
theorem removeLines_eq (hn : seg ≠ []) (h : Numbered (pre ++ (seg ++ rest))) (i : Nat) :
    Block.removeLines ⟨pre ++ (seg ++ rest), i⟩ (seg.map Line.number) = ⟨pre ++ rest, 0⟩ := by
  induction seg generalizing i with
  | nil => exact absurd rfl hn
  | cons l seg ih =>
    have hl : Block.removeLine ⟨pre ++ l :: (seg ++ rest), i⟩ l.number = ⟨pre ++ (seg ++ rest), 0⟩ :=
      removeLine_eq h i
    change Block.removeLines (Block.removeLine ⟨pre ++ l :: (seg ++ rest), i⟩ l.number)
      (seg.map Line.number) = _
    rw [hl]
    rcases seg with _ | ⟨l', seg⟩
    · rfl
    · apply ih (List.cons_ne_nil _ _)
      exact h.sublist ((List.sublist_cons_self _ _).append_left pre)

end Block

section Iterate

variable {σ : Type} {body : σ → Block → Line → Except Error (σ × List Nat)}
  {s s' : σ} {pre rest : List Line} {l : Line}

/-- The pass goes over the line. -/
def Passed (body : σ → Block → Line → Except Error (σ × List Nat)) (l : Line) : Prop :=
  ∀ s b, body s b l = .ok (s, [])

theorem iterate_end (i : Nat) (hi : pre.length ≤ i) : iterate body s ⟨pre, i⟩ = .ok (s, ⟨pre, i⟩) := by
  rw [iterate]
  have hg : Block.getNext ⟨pre, i⟩ = none := by
    unfold Block.getNext
    rw [List.getElem?_eq_none hi]
    rfl
  split
  · rfl
  · next h => rw [hg] at h; cases h

theorem iterate_next (lines : List Line) (i : Nat) (hl : lines[i]? = some l) :
    iterate body s ⟨lines, i⟩ =
      match body s ⟨lines, i + 1⟩ l with
      | .error e => .error e
      | .ok (s', lineNumbers) => iterate body s' (Block.removeLines ⟨lines, i + 1⟩ lineNumbers) := by
  have hg : Block.getNext ⟨lines, i⟩ = some (l, ⟨lines, i + 1⟩) := by
    unfold Block.getNext
    rw [hl]
    rfl
  rw [iterate]
  split
  · next h => rw [hg] at h; cases h
  · next h => rw [hg] at h; cases h; rfl

theorem iterate_passed (hp : Passed body l) (lines : List Line) (i : Nat) (hl : lines[i]? = some l) :
    iterate body s ⟨lines, i⟩ = iterate body s ⟨lines, i + 1⟩ := by
  rw [iterate_next lines i hl, hp]
  rfl

/-- The lines in front are passed again. -/
theorem iterate_again (hp : ∀ l ∈ pre, Passed body l) (i : Nat) (hi : i ≤ pre.length) :
    iterate body s ⟨pre ++ rest, i⟩ = iterate body s ⟨pre ++ rest, pre.length⟩ := by
  induction h : pre.length - i generalizing i with
  | zero =>
    have he : i = pre.length := by omega
    rw [he]
  | succ n ih =>
    have hlt : i < pre.length := by omega
    have hl : (pre ++ rest)[i]? = some (pre[i]) := by
      rw [List.getElem?_append_left hlt, List.getElem?_eq_getElem hlt]
    rw [iterate_passed (hp _ (List.getElem_mem hlt)) _ i hl]
    exact ih (i + 1) hlt (by omega)

/-- A pass over lines that nothing claims does nothing. -/
theorem iterate_silent (hp : ∀ l ∈ pre, Passed body l) :
    iterate body s ⟨pre, 0⟩ = .ok (s, ⟨pre, pre.length⟩) := by
  have h : iterate body s ⟨pre ++ [], 0⟩ = iterate body s ⟨pre ++ [], pre.length⟩ :=
    iterate_again hp 0 (Nat.zero_le _)
  rw [List.append_nil, iterate_end _ le_rfl] at h
  exact h

/-- A pass that ends has not met an exception. -/
theorem iterate_body {r : σ × Block} (h : iterate body s ⟨pre ++ l :: rest, pre.length⟩ = .ok r) :
    ∃ s' lineNumbers, body s ⟨pre ++ l :: rest, pre.length + 1⟩ l = .ok (s', lineNumbers) := by
  have hl : (pre ++ l :: rest)[pre.length]? = some l := by simp
  rw [iterate_next _ _ hl] at h
  split at h
  · cases h
  · next s' lineNumbers hb => exact ⟨s', lineNumbers, hb⟩

/-- A line that is passed joins those in front. -/
theorem iterate_pass (hl : Passed body l) :
    iterate body s ⟨pre ++ l :: rest, pre.length⟩ =
      iterate body s ⟨(pre ++ [l]) ++ rest, (pre ++ [l]).length⟩ := by
  rw [iterate_passed hl _ _ (by simp), List.append_assoc, List.length_append]
  rfl

theorem iterate_pass_all {seg : List Line} (hs : ∀ l ∈ seg, Passed body l) :
    iterate body s ⟨pre ++ (seg ++ rest), pre.length⟩ =
      iterate body s ⟨(pre ++ seg) ++ rest, (pre ++ seg).length⟩ := by
  induction seg generalizing pre with
  | nil => rw [List.append_nil, List.nil_append]
  | cons l seg ih =>
    rw [List.cons_append, iterate_pass (hs l List.mem_cons_self),
      ih fun l hl => hs l (List.mem_cons_of_mem _ hl), List.append_assoc pre [l] seg]
    rfl

/-- A segment that is claimed goes, and the pass goes on behind it. -/
theorem iterate_claim (seg : List Line) (hp : ∀ l ∈ pre, Passed body l)
    (hn : Numbered (pre ++ l :: (seg ++ rest)))
    (hb : body s ⟨pre ++ l :: (seg ++ rest), pre.length + 1⟩ l =
      .ok (s', (l :: seg).map Line.number)) :
    iterate body s ⟨pre ++ l :: (seg ++ rest), pre.length⟩ =
      iterate body s' ⟨pre ++ rest, pre.length⟩ := by
  have hl : (pre ++ l :: (seg ++ rest))[pre.length]? = some l := by simp
  rw [iterate_next _ _ hl, hb]
  change iterate body s' (Block.removeLines ⟨pre ++ (l :: seg ++ rest), pre.length + 1⟩
    ((l :: seg).map Line.number)) = _
  rw [removeLines_eq (List.cons_ne_nil _ _) hn]
  exact iterate_again hp 0 (Nat.zero_le _)

end Iterate

end OpenBadge.Tinybuf.Generator
