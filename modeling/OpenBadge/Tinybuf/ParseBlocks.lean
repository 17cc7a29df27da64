import OpenBadge.Tinybuf.Declarations

/-!
# The passes over the message blocks

The lines of a block that are all claimed become its fields one after the other, and the pass
over the file takes one block after the other.
-/

namespace OpenBadge.Tinybuf.Generator

theorem bind_eq_ok {ε α β : Type} {x : Except ε α} {f : α → Except ε β} {b : β}
    (h : x >>= f = .ok b) : ∃ a, x = .ok a ∧ f a = .ok b := by
  cases x with
  | error e => cases h
  | ok a => exact ⟨a, rfl, h⟩

/-! ## A line -/

theorem checkFormat_ok {line : List String} {format : List (String × Bool)} {u : Unit}
    (h : checkFormat line format = .ok u) :
    line.length = format.length ∧ ∀ p ∈ line.zip format, p.2.2 → p.2.1 = p.1 := by
  unfold checkFormat at h
  split at h
  · next hc => exact hc
  · cases h

theorem checkType_ok {g : Globals} {type : String} {u : Unit} (h : g.checkType type = .ok u) :
    type ∈ g.supportedFieldTypes := by
  unfold Globals.checkType at h
  split at h
  · next hc => exact hc
  · cases h

theorem checkName_ok {name : String} {u : Unit} (h : checkName name = .ok u) : nameValid name := by
  unfold checkName at h
  split at h
  · next hc => exact hc
  · cases h

theorem plainField_other {rule : String} {field : String → String → Field} {g : Globals}
    {line : List String} (h : line.headD "" ≠ rule) : plainField rule field g line = .ok none :=
  if_neg h

theorem arrayField_other {rule : String} {field : String → String → Int → Field} {g : Globals}
    {line : List String} (h : line.headD "" ≠ rule) : arrayField rule field g line = .ok none :=
  if_neg h

theorem plainField_ok {rule : String} {field : String → String → Field} {g : Globals}
    {line : List String} {r : Option Field} (hk : line.headD "" = rule)
    (h : plainField rule field g line = .ok r) :
    ∃ type name, line = [rule, type, name, ";"] ∧ type ∈ g.supportedFieldTypes ∧ nameValid name ∧
      r = some (field name type) := by
  unfold plainField at h
  rw [if_pos hk] at h
  obtain ⟨_, hf, h⟩ := bind_eq_ok h
  obtain ⟨_, ht, h⟩ := bind_eq_ok h
  obtain ⟨_, hn, h⟩ := bind_eq_ok h
  cases h
  obtain ⟨hlen, hr⟩ := checkFormat_ok hf
  match line, hlen with
  | [a, type, name, d], _ =>
    have ha : rule = a := hr ((a, rule, true)) (by simp) rfl
    have hd : ";" = d := hr ((d, ";", true)) (by simp) rfl
    rw [← ha, ← hd]
    exact ⟨type, name, rfl, checkType_ok ht, checkName_ok hn, rfl⟩

theorem arrayField_ok {rule : String} {field : String → String → Int → Field} {g : Globals}
    {line : List String} {r : Option Field} (hk : line.headD "" = rule)
    (h : arrayField rule field g line = .ok r) :
    ∃ type name size n, line = [rule, type, name, "[", size, "]", ";"] ∧
      type ∈ g.supportedFieldTypes ∧ nameValid name ∧ getInteger g.defines size = some n ∧
      r = some (field name type n) := by
  unfold arrayField at h
  rw [if_pos hk] at h
  obtain ⟨_, hf, h⟩ := bind_eq_ok h
  obtain ⟨_, ht, h⟩ := bind_eq_ok h
  obtain ⟨_, hn, h⟩ := bind_eq_ok h
  split at h
  · cases h
  · next n hs =>
    cases h
    obtain ⟨hlen, hr⟩ := checkFormat_ok hf
    match line, hlen with
    | [a, type, name, b, size, c, d], _ =>
      have ha : rule = a := hr ((a, rule, true)) (by simp) rfl
      have hb : "[" = b := hr ((b, "[", true)) (by simp) rfl
      have hc : "]" = c := hr ((c, "]", true)) (by simp) rfl
      have hd : ";" = d := hr ((d, ";", true)) (by simp) rfl
      rw [← ha, ← hb, ← hc, ← hd]
      exact ⟨type, name, size, n, rfl, checkType_ok ht, checkName_ok hn, hs, rfl⟩

theorem oneofInnerField_ok {g : Globals} {line : List String} {f : OneofInnerField}
    (hk : line.headD "" ∉ statements) (h : oneofInnerField g line = .ok f) :
    DeclaresAlternative g line f := by
  unfold oneofInnerField at h
  obtain ⟨_, hf, h⟩ := bind_eq_ok h
  obtain ⟨_, ht, h⟩ := bind_eq_ok h
  obtain ⟨_, hn, h⟩ := bind_eq_ok h
  split at h
  · cases h
  · next n hg =>
    cases h
    obtain ⟨hlen, hr⟩ := checkFormat_ok hf
    match line, hlen with
    | [type, name, a, tag, b, c], _ =>
      have ha : "(" = a := hr ((a, "(", true)) (by simp) rfl
      have hb : ")" = b := hr ((b, ")", true)) (by simp) rfl
      have hc : ";" = c := hr ((c, ";", true)) (by simp) rfl
      rw [← ha, ← hb, ← hc]
      exact .mk hk (checkType_ok ht) (checkName_ok hn) hg

theorem isOneofField_ok {line : List String} {r : Bool} (hk : line.headD "" = "oneof")
    (h : isOneofField line = .ok r) :
    r = true ∧ ∃ name, line = ["oneof", name, openBrace] ∧ nameValid name := by
  unfold isOneofField at h
  rw [if_pos hk] at h
  obtain ⟨_, hf, h⟩ := bind_eq_ok h
  obtain ⟨_, hn, h⟩ := bind_eq_ok h
  cases h
  obtain ⟨hlen, hr⟩ := checkFormat_ok hf
  match line, hlen with
  | [a, name, b], _ =>
    have ha : "oneof" = a := hr ((a, "oneof", true)) (by simp) rfl
    have hb : openBrace = b := hr ((b, openBrace, true)) (by simp) rfl
    rw [← ha, ← hb]
    exact ⟨rfl, name, rfl, checkName_ok hn⟩

theorem isOneofField_other {line : List String} (h : line.headD "" ≠ "oneof") :
    isOneofField line = .ok false := if_neg h

theorem addField_ok {fields fields' : List Field} {field : Field}
    (h : addField fields field = .ok fields') : fields' = fields ++ [field] := by
  unfold addField at h
  split at h
  · cases h
  · cases h
    rfl

/-! ## The pass over a block -/

section Fields

variable {g : Globals} {fs fs' : List Field} {b : Block} {l : Line} {ns : List Nat}

/-- A line that starts with the rule of a field becomes that field. -/
theorem fieldsBody_rule (hk : l.keyword ∈ rules) (h : fieldsBody g fs b l = .ok (fs', ns)) :
    ∃ f, fs' = fs ++ [f] ∧ ns = [l.number] ∧ DeclaresField g l.tokens f := by
  unfold fieldsBody requiredField repeatedField fixedRepeatedField optionalField at h
  have hr : l.tokens.headD "" = "required" ∨ l.tokens.headD "" = "repeated" ∨
      l.tokens.headD "" = "fixed_repeated" ∨ l.tokens.headD "" = "optional" := by
    simpa [rules, Line.keyword] using hk
  rcases hr with hr | hr | hr | hr
  · obtain ⟨_, hf, h⟩ := bind_eq_ok h
    obtain ⟨type, name, hl, ht, hn, rfl⟩ := plainField_ok hr hf
    obtain ⟨_, ha, h⟩ := bind_eq_ok h
    cases h
    rw [hl]
    exact ⟨_, addField_ok ha, rfl, .required ht hn⟩
  · rw [plainField_other (by rw [hr]; decide)] at h
    obtain ⟨_, ⟨⟩, h⟩ := bind_eq_ok h
    obtain ⟨_, hf, h⟩ := bind_eq_ok h
    obtain ⟨type, name, size, n, hl, ht, hn, hs, rfl⟩ := arrayField_ok hr hf
    obtain ⟨_, ha, h⟩ := bind_eq_ok h
    cases h
    rw [hl]
    exact ⟨_, addField_ok ha, rfl, .repeated ht hn hs⟩
  · rw [plainField_other (by rw [hr]; decide), arrayField_other (by rw [hr]; decide)] at h
    obtain ⟨_, ⟨⟩, h⟩ := bind_eq_ok h
    obtain ⟨_, ⟨⟩, h⟩ := bind_eq_ok h
    obtain ⟨_, hf, h⟩ := bind_eq_ok h
    obtain ⟨type, name, size, n, hl, ht, hn, hs, rfl⟩ := arrayField_ok hr hf
    obtain ⟨_, ha, h⟩ := bind_eq_ok h
    cases h
    rw [hl]
    exact ⟨_, addField_ok ha, rfl, .fixedRepeated ht hn hs⟩
  · rw [plainField_other (by rw [hr]; decide), arrayField_other (by rw [hr]; decide),
      arrayField_other (by rw [hr]; decide)] at h
    obtain ⟨_, ⟨⟩, h⟩ := bind_eq_ok h
    obtain ⟨_, ⟨⟩, h⟩ := bind_eq_ok h
    obtain ⟨_, ⟨⟩, h⟩ := bind_eq_ok h
    obtain ⟨_, hf, h⟩ := bind_eq_ok h
    obtain ⟨type, name, hl, ht, hn, rfl⟩ := plainField_ok hr hf
    obtain ⟨_, ha, h⟩ := bind_eq_ok h
    cases h
    rw [hl]
    exact ⟨_, addField_ok ha, rfl, .optional ht hn⟩

/-- The remaining lines are those of a oneof, and the lines nothing claims. -/
theorem fieldsBody_other (hk : l.keyword ∉ rules) :
    fieldsBody g fs b l = (do
      if ← isOneofField l.tokens then
        match b.extractBlock l.number with
        | none => .error .noOneof
        | some oneofBlock =>
          let field ← oneofField g oneofBlock
          return (← addField fs field, oneofBlock.lines.map Line.number)
      return (fs, [])) := by
  have hr : l.tokens.headD "" ≠ "required" ∧ l.tokens.headD "" ≠ "repeated" ∧
      l.tokens.headD "" ≠ "fixed_repeated" ∧ l.tokens.headD "" ≠ "optional" := by
    simpa [rules, Line.keyword] using hk
  unfold fieldsBody requiredField repeatedField fixedRepeatedField optionalField
  rw [plainField_other hr.1, arrayField_other hr.2.1, arrayField_other hr.2.2.1,
    plainField_other hr.2.2.2]
  rfl

theorem fieldsBody_passed (hk : l.keyword ∉ rules) (ho : l.keyword ≠ "oneof") :
    Passed (fieldsBody g) l := by
  intro fs b
  rw [fieldsBody_other hk, isOneofField_other ho]
  rfl

theorem innerFields_ok {lines : List Line} {inner inner' : List OneofInnerField}
    (hs : ∀ l ∈ lines, l.keyword ∉ statements)
    (h : lines.foldlM (addInnerField g) inner = .ok inner') :
    ∃ new, inner' = inner ++ new ∧
      List.Forall₂ (fun l f => DeclaresAlternative g l.tokens f) lines new := by
  induction lines generalizing inner with
  | nil =>
    cases h
    exact ⟨[], (List.append_nil _).symm, .nil⟩
  | cons l lines ih =>
    obtain ⟨_, ha, h⟩ := bind_eq_ok h
    unfold addInnerField at ha
    obtain ⟨f, hf, ha⟩ := bind_eq_ok ha
    split at ha
    · cases ha
    · cases ha
      obtain ⟨new, rfl, hn⟩ := ih (fun l hl => hs l (List.mem_cons_of_mem _ hl)) h
      have hd := oneofInnerField_ok (hs l List.mem_cons_self) hf
      exact ⟨f :: new, List.append_assoc _ _ _, .cons hd hn⟩

/-- The block of a oneof becomes its field. -/
theorem fieldsBody_oneof {pre body rest : List Line} {i : Nat} (hk : l.keyword = "oneof")
    (hb : closeBlock brackets 0 (l :: (body ++ rest)) = some (l :: body))
    (hs : ∀ l ∈ body, l.keyword ∉ statements) (hn : Numbered (pre ++ l :: (body ++ rest)))
    (h : fieldsBody g fs ⟨pre ++ l :: (body ++ rest), i⟩ l = .ok (fs', ns)) :
    ns = (l :: body).map Line.number ∧ ∃ name inner, fs' = fs ++ [.oneof name inner] ∧
      l.tokens = ["oneof", name, openBrace] ∧ nameValid name ∧
      List.Forall₂ (fun l f => DeclaresAlternative g l.tokens f) body.dropLast inner := by
  rw [fieldsBody_other (by rw [hk]; decide)] at h
  obtain ⟨r, ho, h⟩ := bind_eq_ok h
  obtain ⟨rfl, name, hl, hv⟩ := isOneofField_ok hk ho
  have hm : openBrace ∈ l.tokens := by rw [hl]; simp
  rw [extractBlock_eq hn, if_pos hm, hb] at h
  obtain ⟨f, hf, h⟩ := bind_eq_ok h
  obtain ⟨_, ha, h⟩ := bind_eq_ok h
  cases h
  unfold oneofField at hf
  obtain ⟨inner, hi, hf⟩ := bind_eq_ok hf
  cases hf
  have hd : ∀ l ∈ innerLines (l :: body), l.keyword ∉ statements :=
    fun l hl => hs l ((List.dropLast_sublist body).subset hl)
  obtain ⟨new, rfl, hn⟩ := innerFields_ok hd hi
  have hname : (((l :: body).head?.map Line.tokens).getD []).getD 1 "" = name := by
    change l.tokens.getD 1 "" = name
    rw [hl]
    rfl
  rw [addField_ok ha, hname]
  exact ⟨rfl, name, _, rfl, hl, hv, hn⟩

/-- Lines that are all claimed are declarations, and the pass makes fields of all of them. -/
theorem fields_of_claimed {pre rest : List Line} {b' : Block} (hc : Claimed rest)
    (hp : ∀ l ∈ pre, Passed (fieldsBody g) l) (hn : Numbered (pre ++ rest))
    (h : iterate (fieldsBody g) fs ⟨pre ++ rest, pre.length⟩ = .ok (fs', b')) :
    ∃ new, fs' = fs ++ new ∧ Declares g rest new := by
  induction hc generalizing fs with
  | nil =>
    rw [List.append_nil, iterate_end _ le_rfl] at h
    cases h
    exact ⟨[], (List.append_nil _).symm, .nil⟩
  | @closing l hl =>
    have hkey : l.keyword = closeBrace := by
      unfold Line.keyword
      rw [hl]
      rfl
    have hl' : Passed (fieldsBody g) l :=
      fieldsBody_passed (by rw [hkey]; decide) (by rw [hkey]; decide)
    rw [iterate_pass hl', List.append_nil, iterate_end _ le_rfl] at h
    cases h
    exact ⟨[], (List.append_nil _).symm, .closing hl⟩
  | @field l rest hk _ ih =>
    obtain ⟨fs₁, ns, hb⟩ := iterate_body h
    obtain ⟨f, rfl, rfl, hf⟩ := fieldsBody_rule hk hb
    have hi := iterate_claim [] hp hn hb
    rw [List.nil_append] at hi
    rw [hi] at h
    have hn' : Numbered (pre ++ rest) := hn.sublist ((List.sublist_cons_self l rest).append_left pre)
    obtain ⟨new, rfl, hd⟩ := ih hn' h
    exact ⟨f :: new, List.append_assoc _ _ _, .field hf hd⟩
  | @oneof l body rest hk hb hs hc _ ih =>
    obtain ⟨fs₁, ns, hx⟩ := iterate_body h
    obtain ⟨rfl, name, inner, rfl, hl, hv, hi⟩ := fieldsBody_oneof hk hb hs hn hx
    rw [iterate_claim body hp hn hx] at h
    have hn' : Numbered (pre ++ rest) :=
      hn.sublist (((List.sublist_append_right body rest).cons l).append_left pre)
    obtain ⟨new, rfl, hd⟩ := ih hn' h
    exact ⟨.oneof name inner :: new, List.append_assoc _ _ _, .oneof hl hv hb hi hc hd⟩

end Fields

end OpenBadge.Tinybuf.Generator
