import OpenBadge.Tinybuf.ParseBlocks

/-!
# The passes over the file

The imports, the extern messages and the defines are taken out of the file without touching
the message blocks that hold none of them, and every message is then read from its block.
-/

namespace OpenBadge.Tinybuf.Generator

/-! ## The blocks of the file -/

theorem sourceBlocksFrom_eq (n : Nat) (lines : List Line) :
    sourceBlocksFrom n lines = sourceBlocks (lines.drop n) := by
  induction lines generalizing n with
  | nil =>
    rw [List.drop_nil]
    cases n <;> rfl
  | cons l rest ih =>
    cases n with
    | zero => rfl
    | succ n => exact ih n

section Blocks

variable {l : Line} {rest seg after : List Line}

/-- A block is a segment of the file. -/
theorem blockAt_split (l : Line) (rest : List Line) :
    ∃ seg after, rest = seg ++ after ∧ blockAt l (seg ++ after) = l :: seg := by
  unfold blockAt
  cases h : closeBlock fileBrackets 0 (l :: rest) with
  | none => exact ⟨rest, [], (List.append_nil _).symm, by rw [List.append_nil, h]; rfl⟩
  | some block =>
    obtain ⟨seg, after, rfl, rfl⟩ := closeBlock_head h
    exact ⟨seg, after, rfl, by rw [h]; rfl⟩

/-- The block does not depend on the lines behind it, if it is closed. -/
theorem blockAt_congr (hb : blockAt l (seg ++ after) = l :: seg) {after' : List Line}
    (ha : after = [] → after' = []) : blockAt l (seg ++ after') = l :: seg := by
  unfold blockAt at hb ⊢
  cases h : closeBlock fileBrackets 0 (l :: (seg ++ after)) with
  | none =>
    rw [h] at hb
    have he : seg ++ after = seg := List.tail_eq_of_cons_eq hb
    have hn : after = [] := List.append_cancel_left (he.trans (List.append_nil seg).symm)
    rw [ha hn, ← hn, h]
    exact hb
  | some block =>
    rw [h] at hb
    cases hb
    have hc : closeBlock fileBrackets 0 (l :: seg ++ after') = some (l :: seg) := closeBlock_append h _
    rw [List.cons_append] at hc
    rw [hc]
    rfl

theorem sourceBlocks_define (hk : l.keyword = "define") (hb : blockAt l (seg ++ after) = l :: seg) :
    sourceBlocks (l :: (seg ++ after)) = sourceBlocks after := by
  unfold sourceBlocks
  rw [sourceBlocksFrom, if_pos hk, hb, sourceBlocksFrom_eq, List.length_cons, Nat.add_sub_cancel,
    List.drop_left]
  rfl

theorem sourceBlocks_message (hk : l.keyword = "message")
    (hb : blockAt l (seg ++ after) = l :: seg) :
    sourceBlocks (l :: (seg ++ after)) = (l :: seg) :: sourceBlocks after := by
  have hd : l.keyword ≠ "define" := by rw [hk]; decide
  unfold sourceBlocks
  rw [sourceBlocksFrom, if_neg hd, if_pos hk, hb, sourceBlocksFrom_eq, List.length_cons,
    Nat.add_sub_cancel, List.drop_left]
  rfl

theorem sourceBlocks_other (hd : l.keyword ≠ "define") (hm : l.keyword ≠ "message") :
    sourceBlocks (l :: rest) = sourceBlocks rest := by
  unfold sourceBlocks
  rw [sourceBlocksFrom, if_neg hd, if_neg hm]

/-- Without import and extern lines the braces are those that the parser counts. -/
theorem closeBlock_file {counter : Int} {lines : List Line}
    (h : ∀ l ∈ lines, l.keyword ∉ ["import", "extern"]) :
    closeBlock fileBrackets counter lines = closeBlock brackets counter lines := by
  induction lines generalizing counter with
  | nil => rfl
  | cons l rest ih =>
    have hb : fileBrackets l = brackets l := if_neg (h l List.mem_cons_self)
    rw [closeBlock, closeBlock, hb, ih fun l hl => h l (List.mem_cons_of_mem _ hl)]

theorem blockAt_eq (h : ∀ l' ∈ l :: rest, l'.keyword ∉ ["import", "extern"])
    (hb : closeBlock brackets 0 (l :: rest) = some (l :: seg)) : blockAt l rest = l :: seg := by
  unfold blockAt
  rw [closeBlock_file h, hb]
  rfl

end Blocks

/-! ## The messages -/

/-- What the parser knows of types and defines only grows. -/
structure Extends (g g' : Globals) : Prop where
  defines : g'.defines = g.defines
  types : g.supportedFieldTypes ⊆ g'.supportedFieldTypes

theorem Extends.trans {g₁ g₂ g₃ : Globals} (h : Extends g₁ g₂) (h' : Extends g₂ g₃) : Extends g₁ g₃ :=
  ⟨h'.defines.trans h.defines, fun _ ht => h'.types (h.types ht)⟩

theorem DeclaresField.extend {g g' : Globals} {line : List String} {f : Field}
    (h : DeclaresField g line f) (he : Extends g g') : DeclaresField g' line f := by
  cases h with
  | required ht hn => exact .required (he.types ht) hn
  | repeated ht hn hs => exact .repeated (he.types ht) hn (he.defines ▸ hs)
  | fixedRepeated ht hn hs => exact .fixedRepeated (he.types ht) hn (he.defines ▸ hs)
  | optional ht hn => exact .optional (he.types ht) hn

theorem DeclaresAlternative.extend {g g' : Globals} {line : List String} {f : OneofInnerField}
    (h : DeclaresAlternative g line f) (he : Extends g g') : DeclaresAlternative g' line f := by
  obtain ⟨hk, ht, hn, hg⟩ := h
  exact .mk hk (he.types ht) hn (he.defines ▸ hg)

theorem Declares.extend {g g' : Globals} {lines : List Line} {fs : List Field}
    (h : Declares g lines fs) (he : Extends g g') : Declares g' lines fs := by
  induction h with
  | nil => exact .nil
  | closing h => exact .closing h
  | field h _ ih => exact .field (h.extend he) ih
  | oneof h hn hb hi hc _ ih => exact .oneof h hn hb (hi.imp fun _ _ hf => hf.extend he) hc ih

theorem DeclaresMessage.extend {g g' : Globals} {block : List Line} {m : Message}
    (h : DeclaresMessage g block m) (he : Extends g g') : DeclaresMessage g' block m := by
  obtain ⟨hl, hd⟩ := h
  exact .mk hl (hd.extend he)

section Messages

variable {g g' : Globals} {l : Line} {pre rest : List Line}

theorem messagesBody_passed (hk : l.keyword ≠ "message") : Passed messagesBody l :=
  fun _ _ => if_neg hk

/-- A message is read from its block. -/
theorem messagesBody_ok {i : Nat} {ns : List Nat} (hk : l.keyword = "message")
    (hn : Numbered (pre ++ l :: rest)) (hs : ∀ l' ∈ l :: rest, l'.keyword ∉ ["import", "extern"])
    (h : messagesBody g ⟨pre ++ l :: rest, i⟩ l = .ok (g', ns)) :
    ∃ name g₁ seg after fields b, l.tokens = ["message", name, openBrace] ∧ rest = seg ++ after ∧
      blockAt l rest = l :: seg ∧ ns = (l :: seg).map Line.number ∧ Extends g g₁ ∧
      iterate (fieldsBody g₁) [] ⟨l :: seg, 0⟩ = .ok (fields, b) ∧ Extends g₁ g' ∧
      g'.messages = g.messages ++ [⟨name, fields⟩] := by
  unfold messagesBody at h
  rw [if_pos hk] at h
  obtain ⟨⟨name, g₁⟩, hm, h⟩ := bind_eq_ok h
  unfold getMessage at hm
  obtain ⟨_, hf, hm⟩ := bind_eq_ok hm
  obtain ⟨_, hv, hm⟩ := bind_eq_ok hm
  obtain ⟨g₂, ht, hm⟩ := bind_eq_ok hm
  cases hm
  obtain ⟨hlen, hr⟩ := checkFormat_ok hf
  have hl : ∃ name, l.tokens = ["message", name, openBrace] := by
    match l.tokens, hlen, hr with
    | [a, name, b], _, hr =>
      have ha : "message" = a := hr ((a, "message", true)) (by simp) rfl
      have hb : openBrace = b := hr ((b, openBrace, true)) (by simp) rfl
      exact ⟨name, by rw [← ha, ← hb]⟩
  obtain ⟨name, hl⟩ := hl
  have hg : g₁.messages = g.messages ∧ Extends g g₁ := by
    unfold Globals.addType at ht
    split at ht
    · cases ht
    · cases ht
      exact ⟨rfl, rfl, List.subset_append_left _ _⟩
  have hm : openBrace ∈ l.tokens := by rw [hl]; simp
  rw [extractBlock_eq hn, if_pos hm] at h
  cases hb : closeBlock brackets 0 (l :: rest) with
  | none => rw [hb] at h; cases h
  | some block =>
    rw [hb] at h
    obtain ⟨⟨fields, b⟩, hi, h⟩ := bind_eq_ok h
    cases h
    obtain ⟨seg, after, rfl, rfl⟩ := closeBlock_head hb
    refine ⟨l.tokens.getD 1 "", g₁, seg, after, fields, b, ?_, rfl, blockAt_eq hs hb, rfl, hg.2, hi,
      ⟨rfl, List.Subset.refl _⟩, ?_⟩
    · rw [hl]
      rfl
    · rw [← hg.1]

/-- The fields are those that the block declares. -/
theorem block_declares {seg : List Line} {name : String} {fields : List Field} {b : Block}
    (hl : l.tokens = ["message", name, openBrace]) (hc : Claimed seg) (hn : Numbered (l :: seg))
    (hi : iterate (fieldsBody g) [] ⟨l :: seg, 0⟩ = .ok (fields, b)) :
    DeclaresMessage g (l :: seg) ⟨name, fields⟩ := by
  have hk : l.keyword = "message" := by
    unfold Line.keyword
    rw [hl]
    rfl
  have hp : Passed (fieldsBody g) l := fieldsBody_passed (by rw [hk]; decide) (by rw [hk]; decide)
  have hi' : iterate (fieldsBody g) [] ⟨[l] ++ seg, [l].length⟩ = .ok (fields, b) :=
    (iterate_again (List.forall_mem_singleton.mpr hp) 0 (Nat.zero_le _)).symm.trans hi
  obtain ⟨new, he, hd⟩ := fields_of_claimed hc (List.forall_mem_singleton.mpr hp) hn hi'
  rw [List.nil_append] at he
  rw [he]
  exact .mk hl hd

/-- The pass over the messages of a file whose blocks are claimed. -/
theorem messages_of_claimed {b' : Block} (hp : ∀ l ∈ pre, Passed messagesBody l)
    (hn : Numbered (pre ++ rest)) (hs : ∀ l ∈ rest, l.keyword ∉ statements)
    (hc : ∀ block ∈ sourceBlocks rest, Claimed block.tail)
    (h : iterate messagesBody g ⟨pre ++ rest, pre.length⟩ = .ok (g', b')) :
    Extends g g' ∧ ∃ ms, g'.messages = g.messages ++ ms ∧
      List.Forall₂ (DeclaresMessage g') (sourceBlocks rest) ms := by
  induction hlen : rest.length using Nat.strong_induction_on generalizing g pre rest with
  | _ n ih =>
    subst hlen
    rcases rest with _ | ⟨l, rest⟩
    · rw [List.append_nil, iterate_end _ le_rfl] at h
      cases h
      exact ⟨⟨rfl, List.Subset.refl _⟩, [], (List.append_nil _).symm, .nil⟩
    have hsl := hs l List.mem_cons_self
    by_cases hk : l.keyword = "message"
    · obtain ⟨_, _, hb⟩ := iterate_body h
      obtain ⟨name, g₁, seg, after, fields, b, hl, rfl, hblock, rfl, he, hi, he', hm⟩ :=
        messagesBody_ok hk hn (fun l hl hm => hs l hl (List.mem_of_mem_take (i := 2) hm)) hb
      rw [iterate_claim seg hp hn hb] at h
      rw [sourceBlocks_message hk hblock] at hc ⊢
      have hrest : (pre ++ after).Sublist (pre ++ l :: (seg ++ after)) :=
        ((List.sublist_append_right seg after).cons l).append_left pre
      have hseg : (l :: seg).Sublist (pre ++ l :: (seg ++ after)) :=
        ((List.sublist_append_left seg after).cons_cons l).trans (List.sublist_append_right _ _)
      have hlt : after.length < (l :: (seg ++ after)).length := by
        rw [List.length_cons, List.length_append]
        omega
      obtain ⟨he₂, ms, hms, hf⟩ := ih after.length hlt hp (hn.sublist hrest)
        (fun l' hl' => hs l' (List.mem_cons_of_mem _ (List.mem_append_right _ hl')))
        (fun block hb => hc block (List.mem_cons_of_mem _ hb)) h rfl
      have hd := block_declares hl (hc _ List.mem_cons_self) (hn.sublist hseg) hi
      refine ⟨he.trans (he'.trans he₂), ⟨name, fields⟩ :: ms, ?_, ?_⟩
      · rw [hms, hm, List.append_assoc]
        rfl
      · exact .cons (hd.extend (he'.trans he₂)) hf
    · have hd : l.keyword ≠ "define" := fun he => hsl (by rw [he]; decide)
      have hl : Passed messagesBody l := messagesBody_passed hk
      rw [iterate_pass hl] at h
      rw [sourceBlocks_other hd hk] at hc ⊢
      have hp' : ∀ p ∈ pre ++ [l], Passed messagesBody p :=
        List.forall_mem_append.mpr ⟨hp, List.forall_mem_singleton.mpr hl⟩
      rw [List.append_cons] at hn
      exact ih rest.length (Nat.lt_succ_self _) hp' hn (fun l hl => hs l (List.mem_cons_of_mem _ hl))
        hc h rfl

end Messages

/-! ## The other statements -/

/-- No import, extern or define line stands in a message block. -/
def Undisturbed (lines : List Line) : Prop :=
  ∀ block ∈ sourceBlocks lines, ∀ l ∈ block, l.keyword ∉ statements

theorem Claimed.keywords {lines : List Line} (h : Claimed lines) :
    ∀ l ∈ lines, l.keyword ∉ statements := by
  induction h with
  | nil => exact List.forall_mem_nil _
  | closing h => exact List.forall_mem_singleton.mpr (closing_keyword h)
  | @field l rest h _ ih =>
    have hl : l.keyword ∉ statements := by
      intro hs
      simp only [rules, statements, List.mem_cons, List.not_mem_nil, or_false] at h hs
      rcases h with h | h | h | h <;> rw [h] at hs <;> revert hs <;> decide
    exact List.forall_mem_cons.mpr ⟨hl, ih⟩
  | @oneof l body rest h _ hs _ _ ih =>
    have hl : l.keyword ∉ statements := by rw [h]; decide
    exact List.forall_mem_cons.mpr ⟨hl, List.forall_mem_append.mpr ⟨hs, ih⟩⟩

/-- A block starts with its message line. -/
theorem sourceBlocks_head {lines block : List Line} (h : block ∈ sourceBlocks lines) :
    ∃ l seg, block = l :: seg ∧ l.keyword = "message" := by
  induction hlen : lines.length using Nat.strong_induction_on generalizing lines with
  | _ n ih =>
    subst hlen
    rcases lines with _ | ⟨l, rest⟩
    · cases h
    obtain ⟨seg, after, rfl, hb⟩ := blockAt_split l rest
    have hlt : after.length < (l :: (seg ++ after)).length := by
      rw [List.length_cons, List.length_append]
      omega
    by_cases hd : l.keyword = "define"
    · rw [sourceBlocks_define hd hb] at h
      exact ih _ hlt h rfl
    by_cases hm : l.keyword = "message"
    · rw [sourceBlocks_message hm hb] at h
      rcases List.mem_cons.mp h with rfl | h
      · exact ⟨l, seg, rfl, hm⟩
      · exact ih _ hlt h rfl
    · rw [sourceBlocks_other hd hm] at h
      exact ih _ (Nat.lt_succ_self _) h rfl

theorem undisturbed_of_claimed {lines : List Line}
    (h : ∀ block ∈ sourceBlocks lines, Claimed block.tail) : Undisturbed lines := by
  intro block hb
  obtain ⟨l, seg, rfl, hm⟩ := sourceBlocks_head hb
  have hl : l.keyword ∉ statements := by rw [hm]; decide
  exact List.forall_mem_cons.mpr ⟨hl, (h _ hb).keywords⟩

section Defines

variable {g g' : Globals} {l : Line} {pre rest : List Line}

theorem addDefine_messages (g : Globals) (l : Line) : (addDefine g l).messages = g.messages := by
  unfold addDefine
  split <;> rfl

theorem addDefines_messages (lines : List Line) (g : Globals) :
    (lines.foldl addDefine g).messages = g.messages := by
  induction lines generalizing g with
  | nil => rfl
  | cons l lines ih =>
    rw [List.foldl_cons, ih]
    exact addDefine_messages g l

theorem definesBody_passed (hk : l.keyword ≠ "define") : Passed definesBody l :=
  fun _ _ => if_neg hk

theorem definesBody_ok {i : Nat} {ns : List Nat} (hk : l.keyword = "define")
    (hn : Numbered (pre ++ l :: rest)) (hs : ∀ l' ∈ l :: rest, l'.keyword ∉ ["import", "extern"])
    (h : definesBody g ⟨pre ++ l :: rest, i⟩ l = .ok (g', ns)) :
    ∃ seg after, rest = seg ++ after ∧ blockAt l rest = l :: seg ∧
      ns = (l :: seg).map Line.number ∧ g'.messages = g.messages := by
  unfold definesBody at h
  rw [if_pos hk, extractBlock_eq hn] at h
  split at h
  · cases h
  · next block hb =>
    cases h
    split at hb
    · obtain ⟨lines, hc, rfl⟩ := Option.map_eq_some_iff.mp hb
      obtain ⟨seg, after, rfl, rfl⟩ := closeBlock_head hc
      exact ⟨seg, after, rfl, blockAt_eq hs hc, rfl, addDefines_messages _ _⟩
    · cases hb

/-- The defines go, and the message blocks stay. -/
theorem defines_pass {b : Block} (hp : ∀ l ∈ pre, Passed definesBody l) (hn : Numbered (pre ++ rest))
    (hs : ∀ l ∈ rest, l.keyword ∉ ["import", "extern"]) (hu : Undisturbed rest)
    (h : iterate definesBody g ⟨pre ++ rest, pre.length⟩ = .ok (g', b)) :
    g'.messages = g.messages ∧ ∃ rest', b.lines = pre ++ rest' ∧ rest'.Sublist rest ∧
      (∀ l ∈ rest', l.keyword ∉ statements) ∧ sourceBlocks rest' = sourceBlocks rest := by
  induction hlen : rest.length using Nat.strong_induction_on generalizing g pre rest with
  | _ n ih =>
    subst hlen
    rcases rest with _ | ⟨l, rest⟩
    · rw [List.append_nil, iterate_end _ le_rfl] at h
      cases h
      exact ⟨rfl, [], (List.append_nil _).symm, List.Sublist.refl _, List.forall_mem_nil _, rfl⟩
    have hsr : ∀ l' ∈ rest, l'.keyword ∉ ["import", "extern"] :=
      fun l' hl' => hs l' (List.mem_cons_of_mem _ hl')
    have hsl := hs l List.mem_cons_self
    by_cases hd : l.keyword = "define"
    · obtain ⟨g₁, ns, hb⟩ := iterate_body h
      obtain ⟨seg, after, rfl, hblock, rfl, hm⟩ := definesBody_ok hd hn hs hb
      rw [iterate_claim seg hp hn hb] at h
      have hrest : (pre ++ after).Sublist (pre ++ l :: (seg ++ after)) :=
        ((List.sublist_append_right seg after).cons l).append_left pre
      have hlt : after.length < (l :: (seg ++ after)).length := by
        rw [List.length_cons, List.length_append]
        omega
      have hu' : Undisturbed after := by
        unfold Undisturbed at hu
        rwa [sourceBlocks_define hd hblock] at hu
      obtain ⟨hm', rest', hl, hsub, hk, hsame⟩ := ih after.length hlt hp (hn.sublist hrest)
        (fun l' hl' => hsr l' (List.mem_append_right _ hl')) hu' h rfl
      have hsub' := hsub.trans ((List.sublist_append_right seg after).cons l)
      exact ⟨hm'.trans hm, rest', hl, hsub', hk, by rw [sourceBlocks_define hd hblock, hsame]⟩
    by_cases hm : l.keyword = "message"
    · obtain ⟨seg, after, rfl, hblock⟩ := blockAt_split l rest
      unfold Undisturbed at hu
      rw [sourceBlocks_message hm hblock] at hu
      obtain ⟨hseg, hu'⟩ := List.forall_mem_cons.mp hu
      have hpseg : ∀ l' ∈ l :: seg, Passed definesBody l' := by
        intro l' hl'
        apply definesBody_passed
        intro he
        apply hseg l' hl'
        rw [he]
        decide
      have hpass : iterate definesBody g ⟨(pre ++ l :: seg) ++ after, (pre ++ l :: seg).length⟩ =
          .ok (g', b) := (iterate_pass_all hpseg).symm.trans h
      have hlt : after.length < (l :: (seg ++ after)).length := by
        rw [List.length_cons, List.length_append]
        omega
      have hn' : Numbered ((pre ++ l :: seg) ++ after) := by
        rw [List.append_assoc]
        exact hn
      obtain ⟨hm', rest', hl, hsub, hk, hsame⟩ := ih after.length hlt
        (List.forall_mem_append.mpr ⟨hp, hpseg⟩) hn'
        (fun l' hl' => hsr l' (List.mem_append_right _ hl')) hu' hpass rfl
      have hempty : after = [] → rest' = [] := fun he => List.sublist_nil.mp (he ▸ hsub)
      have hblock' := blockAt_congr hblock hempty
      refine ⟨hm', l :: (seg ++ rest'), ?_, (hsub.append_left seg).cons_cons l, ?_, ?_⟩
      · rw [hl, List.append_assoc]
        rfl
      · exact List.forall_mem_append.mpr ⟨hseg, hk⟩
      · rw [sourceBlocks_message hm hblock, sourceBlocks_message hm hblock', hsame]
    · have hl : Passed definesBody l := definesBody_passed hd
      rw [iterate_pass hl] at h
      have hu' : Undisturbed rest := by
        unfold Undisturbed at hu
        rwa [sourceBlocks_other hd hm] at hu
      rw [List.append_cons] at hn
      obtain ⟨hm', rest', hl', hsub, hk, hsame⟩ := ih rest.length (Nat.lt_succ_self _)
        (List.forall_mem_append.mpr ⟨hp, List.forall_mem_singleton.mpr hl⟩) hn hsr hu' h rfl
      have hlk : l.keyword ∉ statements := by
        intro he
        simp only [statements, List.mem_cons, List.not_mem_nil, or_false] at he hsl
        tauto
      refine ⟨hm', l :: rest', ?_, hsub.cons_cons l, List.forall_mem_cons.mpr ⟨hlk, hk⟩, ?_⟩
      · rw [hl', List.append_assoc]
        rfl
      · rw [sourceBlocks_other hd hm, sourceBlocks_other hd hm, hsame]

end Defines

/-- The line starts with another word. -/
def Line.isNot (k : String) (l : Line) : Bool := l.keyword ≠ k

theorem Line.isNot_pos {k : String} {l : Line} (h : l.keyword ≠ k) : l.isNot k = true :=
  decide_eq_true h

theorem Line.isNot_neg {k : String} {l : Line} (h : l.keyword = k) : ¬ l.isNot k = true :=
  fun hn => of_decide_eq_true hn h

section Lines

variable {k : String} {l : Line} {pre rest : List Line}

/-- The import and the extern lines are taken out of the file one at a time. -/
theorem lines_pass {body : Globals → Block → Line → Except Error (Globals × List Nat)}
    (hpass : ∀ l, l.keyword ≠ k → Passed body l)
    (hclaim : ∀ g b l, l.keyword = k → ∃ g', body g b l = .ok (g', [l.number]) ∧
      g'.messages = g.messages)
    (hp : ∀ l ∈ pre, Passed body l) (hn : Numbered (pre ++ rest)) (g : Globals) :
    ∃ g' b, iterate body g ⟨pre ++ rest, pre.length⟩ = .ok (g', b) ∧
      b.lines = pre ++ rest.filter (Line.isNot k) ∧ g'.messages = g.messages := by
  induction rest generalizing g pre with
  | nil =>
    rw [List.append_nil, iterate_end _ le_rfl]
    exact ⟨g, _, rfl, (List.append_nil _).symm, rfl⟩
  | cons l rest ih =>
    by_cases hk : l.keyword = k
    · obtain ⟨g₁, hb, hm⟩ := hclaim g ⟨pre ++ l :: rest, pre.length + 1⟩ l hk
      have hi := iterate_claim [] hp hn hb
      rw [List.nil_append] at hi
      have hn' : Numbered (pre ++ rest) :=
        hn.sublist ((List.sublist_cons_self l rest).append_left pre)
      obtain ⟨g', b, hit, hl, hm'⟩ := ih hp hn' g₁
      rw [List.filter_cons_of_neg (Line.isNot_neg hk)]
      exact ⟨g', b, hi.trans hit, hl, hm'.trans hm⟩
    · have hl : Passed body l := hpass l hk
      rw [List.append_cons] at hn
      obtain ⟨g', b, hit, hlines, hm⟩ :=
        ih (List.forall_mem_append.mpr ⟨hp, List.forall_mem_singleton.mpr hl⟩) hn g
      rw [List.filter_cons_of_pos (Line.isNot_pos hk), iterate_pass hl]
      refine ⟨g', b, hit, ?_, hm⟩
      rw [hlines, List.append_assoc]
      rfl

theorem importsBody_passed (l : Line) (hk : l.keyword ≠ "import") : Passed importsBody l :=
  fun _ _ => if_neg hk

theorem importsBody_ok (g : Globals) (b : Block) (l : Line) (hk : l.keyword = "import") :
    ∃ g', importsBody g b l = .ok (g', [l.number]) ∧ g'.messages = g.messages := by
  unfold importsBody
  rw [if_pos hk]
  split
  · next g' hi =>
    unfold getImport at hi
    obtain ⟨_, -, hi⟩ := bind_eq_ok hi
    obtain ⟨_, -, hi⟩ := bind_eq_ok hi
    split at hi
    · cases hi
    · cases hi
      exact ⟨_, rfl, rfl⟩
  · exact ⟨_, rfl, rfl⟩

theorem externMessagesBody_passed (l : Line) (hk : l.keyword ≠ "extern") :
    Passed externMessagesBody l := fun _ _ => if_neg hk

theorem externMessagesBody_ok (g : Globals) (b : Block) (l : Line) (hk : l.keyword = "extern") :
    ∃ g', externMessagesBody g b l = .ok (g', [l.number]) ∧ g'.messages = g.messages := by
  unfold externMessagesBody
  rw [if_pos hk]
  split
  · next g' hi =>
    unfold getExternMessage at hi
    obtain ⟨_, -, hi⟩ := bind_eq_ok hi
    obtain ⟨_, -, hi⟩ := bind_eq_ok hi
    unfold Globals.addType at hi
    split at hi
    · cases hi
    · cases hi
      exact ⟨_, rfl, rfl⟩
  · exact ⟨_, rfl, rfl⟩

/-- Lines without braces of their own may go from inside a block. -/
theorem closeBlock_filter {p : Line → Bool} (hp : ∀ l, p l = false → fileBrackets l = 0)
    {counter : Int} (hc : counter ≠ 0) (lines : List Line) :
    closeBlock fileBrackets counter (lines.filter p) =
      (closeBlock fileBrackets counter lines).map (List.filter p) := by
  induction lines generalizing counter with
  | nil => rfl
  | cons l lines ih =>
    cases hl : p l with
    | false =>
      have hz : counter + fileBrackets l = counter := by rw [hp l hl, Int.add_zero]
      rw [List.filter_cons_of_neg (by rw [hl]; decide), ih hc, closeBlock, hz, if_neg hc,
        Option.map_map]
      congr 1
      funext seg
      exact (List.filter_cons_of_neg (by rw [hl]; decide)).symm
    | true =>
      rw [List.filter_cons_of_pos hl, closeBlock, closeBlock]
      by_cases hz : counter + fileBrackets l = 0
      · rw [if_pos hz, if_pos hz, Option.map_some, List.filter_cons_of_pos hl]
        rfl
      · rw [if_neg hz, if_neg hz, ih hz, Option.map_map, Option.map_map]
        congr 1
        funext seg
        exact (List.filter_cons_of_pos hl).symm

theorem blockAt_filter {p : Line → Bool} (hp : ∀ l, p l = false → fileBrackets l = 0)
    (hl : p l = true) : blockAt l (rest.filter p) = (blockAt l rest).filter p := by
  unfold blockAt
  rw [closeBlock, closeBlock]
  by_cases hz : 0 + fileBrackets l = 0
  · rw [if_pos hz, if_pos hz]
    exact (List.filter_cons_of_pos hl : [l].filter p = [l]).symm
  · rw [if_neg hz, if_neg hz, closeBlock_filter hp hz]
    cases closeBlock fileBrackets (0 + fileBrackets l) rest with
    | none => exact (List.filter_cons_of_pos hl).symm
    | some seg => exact (List.filter_cons_of_pos hl).symm

/-- Without the import or the extern lines the undisturbed message blocks are the same. -/
theorem sourceBlocks_filter (hk : k ∈ ["import", "extern"]) (hu : Undisturbed rest) :
    sourceBlocks (rest.filter (Line.isNot k)) = sourceBlocks rest := by
  have hz : ∀ l : Line, l.isNot k = false → fileBrackets l = 0 := by
    intro l hl
    have he : l.keyword = k := by simpa [Line.isNot] using hl
    exact if_pos (he ▸ hk)
  have hkd : k ≠ "define" := fun he => by rw [he] at hk; revert hk; decide
  have hkm : k ≠ "message" := fun he => by rw [he] at hk; revert hk; decide
  induction hlen : rest.length using Nat.strong_induction_on generalizing rest with
  | _ n ih =>
    subst hlen
    rcases rest with _ | ⟨l, rest⟩
    · rfl
    obtain ⟨seg, after, rfl, hblock⟩ := blockAt_split l rest
    have hlt : after.length < (l :: (seg ++ after)).length := by
      rw [List.length_cons, List.length_append]
      omega
    by_cases hd : l.keyword = "define"
    · have hl : l.isNot k = true := Line.isNot_pos (hd ▸ hkd.symm)
      unfold Undisturbed at hu
      rw [sourceBlocks_define hd hblock] at hu ⊢
      have hf : blockAt l ((seg ++ after).filter (Line.isNot k)) = _ := blockAt_filter hz hl
      rw [hblock, List.filter_cons_of_pos hl, List.filter_append] at hf
      rw [List.filter_cons_of_pos hl, List.filter_append, sourceBlocks_define hd hf]
      exact ih _ hlt hu rfl
    by_cases hm : l.keyword = "message"
    · have hl : l.isNot k = true := Line.isNot_pos (hm ▸ hkm.symm)
      unfold Undisturbed at hu
      rw [sourceBlocks_message hm hblock] at hu ⊢
      obtain ⟨hseg, hu'⟩ := List.forall_mem_cons.mp hu
      have hs : seg.filter (Line.isNot k) = seg := by
        rw [List.filter_eq_self]
        intro l' hl'
        apply Line.isNot_pos
        intro he
        apply hseg l' (List.mem_cons_of_mem _ hl')
        rw [he]
        exact List.mem_of_mem_take (i := 2) hk
      have hf : blockAt l ((seg ++ after).filter (Line.isNot k)) = _ := blockAt_filter hz hl
      rw [hblock, List.filter_cons_of_pos hl, List.filter_append, hs] at hf
      rw [List.filter_cons_of_pos hl, List.filter_append, hs, sourceBlocks_message hm hf,
        ih _ hlt hu' rfl]
    · unfold Undisturbed at hu
      rw [sourceBlocks_other hd hm] at hu ⊢
      have hih := ih _ (Nat.lt_succ_self _) hu rfl
      by_cases hl : l.keyword = k
      · rw [List.filter_cons_of_neg (Line.isNot_neg hl), hih]
      · rw [List.filter_cons_of_pos (Line.isNot_pos hl), sourceBlocks_other hd hm, hih]

end Lines

/-! ## The parser -/

/-- The parser finishes without reporting an error. -/
structure Finishes (content : List (List Char)) (g : Globals) : Prop where
  ok : parser (fileLines content) = .ok g
  silent : g.printed = []

/-- The passes in front of the messages leave the message blocks, if these are undisturbed. -/
theorem parser_messages {lines : List Line} {g : Globals} (hn : Numbered lines)
    (hu : Undisturbed lines) (h : parser lines = .ok g) :
    ∃ g₁ rest b, g₁.messages = [] ∧ Numbered rest ∧ (∀ l ∈ rest, l.keyword ∉ statements) ∧
      sourceBlocks rest = sourceBlocks lines ∧ iterate messagesBody g₁ ⟨rest, 0⟩ = .ok (g, b) := by
  unfold parser at h
  obtain ⟨⟨g₁, b₁⟩, h₁, h⟩ := bind_eq_ok h
  obtain ⟨⟨g₂, b₂⟩, h₂, h⟩ := bind_eq_ok h
  obtain ⟨⟨g₃, b₃⟩, h₃, h⟩ := bind_eq_ok h
  obtain ⟨⟨g₄, b₄⟩, h₄, h⟩ := bind_eq_ok h
  cases h
  obtain ⟨g₁', b₁', h₁', hl₁, hm₁⟩ := lines_pass importsBody_passed importsBody_ok
    (List.forall_mem_nil _) hn Globals.init
  cases h₁.symm.trans h₁'
  have hs₁ : sourceBlocks (lines.filter (Line.isNot "import")) = sourceBlocks lines :=
    sourceBlocks_filter (by decide) hu
  have hn₁ := hn.sublist (List.filter_sublist (l := lines) (p := Line.isNot "import"))
  obtain ⟨g₂', b₂', h₂', hl₂, hm₂⟩ := lines_pass externMessagesBody_passed externMessagesBody_ok
    (List.forall_mem_nil _) hn₁ g₁
  unfold Block.setupIterator at h₂ h₃ h₄
  rw [hl₁] at h₂
  cases h₂.symm.trans h₂'
  rw [hl₂] at h₃
  have hu₁ : Undisturbed (lines.filter (Line.isNot "import")) := by
    unfold Undisturbed
    rwa [hs₁]
  have hs₂ := sourceBlocks_filter (k := "extern") (by decide) hu₁
  have hu₂ : Undisturbed ((lines.filter (Line.isNot "import")).filter (Line.isNot "extern")) := by
    unfold Undisturbed
    rwa [hs₂, hs₁]
  have hn₂ := hn₁.sublist (List.filter_sublist (p := Line.isNot "extern"))
  have hk : ∀ l ∈ (lines.filter (Line.isNot "import")).filter (Line.isNot "extern"),
      l.keyword ∉ ["import", "extern"] := by
    intro l hl
    obtain ⟨hl, he⟩ := List.mem_filter.mp hl
    obtain ⟨-, hi⟩ := List.mem_filter.mp hl
    simp only [Line.isNot, decide_eq_true_eq] at he hi
    simp [he, hi]
  obtain ⟨hm₃, rest, hl₃, hsub, hk₃, hs₃⟩ := defines_pass (List.forall_mem_nil _) hn₂ hk hu₂ h₃
  rw [hl₃] at h₄
  exact ⟨g₃, rest, b₄, hm₃.trans (hm₂.trans hm₁), hn₂.sublist hsub, hk₃,
    hs₃.trans (hs₂.trans hs₁), h₄⟩

/-- A parser that reports no error has made of the lines of every message block the fields that
they declare, in their order, exactly if every line of every block is claimed. -/
theorem parser_drops_nothing_iff (content : List (List Char)) (g : Globals)
    (h : Finishes content g) :
    List.Forall₂ (DeclaresMessage g) (sourceBlocks (fileLines content)) g.messages ↔
      ∀ block ∈ sourceBlocks (fileLines content), Claimed block.tail := by
  constructor
  · intro hd block hb
    have ha : List.Forall₂ (fun block m => Claimed block.tail ∧ DeclaresMessage g block m)
        (sourceBlocks (fileLines content)) g.messages := hd.imp fun block m hm => by
      obtain ⟨hl, hd⟩ := hm
      exact ⟨hd.claimed, .mk hl hd⟩
    exact ((List.forall₂_and_left _ _).mp ha).1 block hb
  · intro hc
    have hn := fileLines_numbered content
    obtain ⟨g₁, rest, b, hm, hn', hk, hs, hi⟩ := parser_messages hn (undisturbed_of_claimed hc) h.ok
    rw [← hs] at hc ⊢
    obtain ⟨-, ms, hms, hd⟩ := messages_of_claimed (List.forall_mem_nil _) hn' hk hc hi
    rw [hms, hm]
    exact hd

/-- A misspelt rule: the line of the field `a` is not claimed. -/
def misspelt : List Line :=
  [⟨1, ["message", "A", openBrace]⟩, ⟨2, ["requierd", "uint8", "a", ";"]⟩,
    ⟨3, ["required", "uint8", "b", ";"]⟩, ⟨4, [closeBrace]⟩]

def misspeltContent : List (List Char) :=
  ["message A \x7b".toList, "  requierd uint8 a;".toList, "  required uint8 b;".toList,
    "\x7d".toList]

/-- The globals when the fields are read. -/
def misspeltTypes : Globals :=
  { Globals.init with supportedFieldTypes := Globals.init.supportedFieldTypes ++ ["A"] }

/-- What the parser makes of it: the message has the field `b` alone. -/
def misspeltGlobals : Globals :=
  { misspeltTypes with messages := [⟨"A", [.required "b" "uint8"]⟩] }

theorem misspelt_lines : fileLines misspeltContent = misspelt := by decide +kernel

theorem misspelt_blocks : sourceBlocks misspelt = [misspelt] := by decide +kernel

theorem misspelt_numbered : Numbered misspelt := by
  unfold Numbered
  decide

theorem misspelt_fields :
    iterate (fieldsBody misspeltTypes) [] ⟨misspelt, 0⟩ =
      .ok ([.required "b" "uint8"], ⟨misspelt.take 2 ++ misspelt.drop 3, 3⟩) := by
  have hp : ∀ l ∈ misspelt.take 2 ++ misspelt.drop 3, Passed (fieldsBody misspeltTypes) l :=
    fun l hl => fieldsBody_passed (by revert l; decide) (by revert l; decide)
  have hp₂ := (List.forall_mem_append.mp hp).1
  have h₁ : iterate (fieldsBody misspeltTypes) [] ⟨misspelt.take 2 ++ misspelt.drop 2, 0⟩ =
      iterate (fieldsBody misspeltTypes) [] ⟨misspelt.take 2 ++ misspelt.drop 2, 2⟩ :=
    iterate_again hp₂ 0 (Nat.zero_le _)
  have h₂ : iterate (fieldsBody misspeltTypes) [] ⟨misspelt, 2⟩ =
      iterate (fieldsBody misspeltTypes) [.required "b" "uint8"]
        ⟨misspelt.take 2 ++ misspelt.drop 3, 2⟩ :=
    iterate_claim [] hp₂ misspelt_numbered rfl
  have h₃ : iterate (fieldsBody misspeltTypes) [.required "b" "uint8"]
        ⟨misspelt.take 2 ++ misspelt.drop 3, 0⟩ =
      iterate (fieldsBody misspeltTypes) [.required "b" "uint8"]
        ⟨misspelt.take 2 ++ misspelt.drop 3, 2⟩ :=
    iterate_again hp₂ 0 (Nat.zero_le _)
  exact h₁.trans (h₂.trans (h₃.symm.trans (iterate_silent hp)))

theorem misspelt_finishes : Finishes misspeltContent misspeltGlobals := by
  constructor
  · rw [misspelt_lines]
    unfold parser
    have hi : ∀ l ∈ misspelt, Passed importsBody l :=
      fun l hl => importsBody_passed l (by revert l; decide)
    have he : ∀ l ∈ misspelt, Passed externMessagesBody l :=
      fun l hl => externMessagesBody_passed l (by revert l; decide)
    have hd : ∀ l ∈ misspelt, Passed definesBody l :=
      fun l hl => definesBody_passed (by revert l; decide)
    have hm : messagesBody Globals.init ⟨misspelt, 1⟩ ⟨1, ["message", "A", openBrace]⟩ =
        .ok (misspeltGlobals, misspelt.map Line.number) := by
      have hk : (⟨1, ["message", "A", openBrace]⟩ : Line).keyword = "message" := rfl
      unfold messagesBody
      rw [if_pos hk]
      change (iterate (fieldsBody misspeltTypes) [] ⟨misspelt, 0⟩ >>= _) = _
      rw [misspelt_fields]
      rfl
    have hc : iterate messagesBody Globals.init ⟨misspelt, 0⟩ =
        iterate messagesBody misspeltGlobals ⟨[], 0⟩ :=
      iterate_claim (misspelt.drop 1) (List.forall_mem_nil _) misspelt_numbered hm
    rw [iterate_silent hi]
    change (iterate externMessagesBody Globals.init ⟨misspelt, 0⟩ >>= _) = _
    rw [iterate_silent he]
    change (iterate definesBody Globals.init ⟨misspelt, 0⟩ >>= _) = _
    rw [iterate_silent hd]
    change (iterate messagesBody Globals.init ⟨misspelt, 0⟩ >>= _) = _
    rw [hc, iterate_end 0 le_rfl]
    rfl
  · rfl

theorem parser_drops_nothing_iff_misspelt :
    Finishes misspeltContent misspeltGlobals ∧
      (List.Forall₂ (DeclaresMessage misspeltGlobals) (sourceBlocks (fileLines misspeltContent))
          misspeltGlobals.messages ↔
        ∀ block ∈ sourceBlocks (fileLines misspeltContent), Claimed block.tail) :=
  ⟨misspelt_finishes, parser_drops_nothing_iff _ _ misspelt_finishes⟩

theorem misspelt_not_claimed : ¬ Claimed misspelt.tail := by
  intro h
  generalize hl : misspelt.tail = lines at h
  cases h with
  | nil => cases hl
  | closing h => cases hl
  | field h _ =>
    obtain ⟨rfl, -⟩ := List.cons.inj hl
    revert h
    decide
  | oneof h _ _ _ _ =>
    obtain ⟨rfl, -⟩ := List.cons.inj hl
    revert h
    decide

/-- The line of the field `a` is dropped without a report. -/
theorem misspelt_field_dropped :
    ¬ ∀ content g, Finishes content g →
      List.Forall₂ (DeclaresMessage g) (sourceBlocks (fileLines content)) g.messages := by
  intro h
  have hd := h misspeltContent misspeltGlobals misspelt_finishes
  rw [misspelt_lines, misspelt_blocks] at hd
  obtain ⟨hm, -⟩ := List.forall₂_cons.mp hd
  obtain ⟨-, hd⟩ := hm
  exact misspelt_not_claimed hd.claimed

end OpenBadge.Tinybuf.Generator
