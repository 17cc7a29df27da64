import OpenBadge.Tinybuf.Sweep
import Mathlib.Data.List.Forall2

/-!
# What a schema file declares, and what the parser makes of it

A message block is read off the lines of the file by its braces. Its lines declare fields, and
the parser makes the same fields of them exactly if it claims every line: a line of a block
that starts with none of the words the parser looks for is passed and never reported.
-/

namespace OpenBadge.Tinybuf.Generator

/-! ## Declarations -/

/-- The statements that are taken out of the file before its messages are read. -/
def statements : List String := ["import", "extern", "define"]

/-- The rules of the fields that stand on one line. -/
def rules : List String := ["required", "repeated", "fixed_repeated", "optional"]

/-- A field declared on a line. -/
inductive DeclaresField (g : Globals) : List String → Field → Prop
  | required {type name : String} (ht : type ∈ g.supportedFieldTypes) (hn : nameValid name) :
      DeclaresField g ["required", type, name, ";"] (.required name type)
  | repeated {type name size : String} {n : Int} (ht : type ∈ g.supportedFieldTypes)
      (hn : nameValid name) (hs : getInteger g.defines size = some n) :
      DeclaresField g ["repeated", type, name, "[", size, "]", ";"] (.repeated name type n)
  | fixedRepeated {type name size : String} {n : Int} (ht : type ∈ g.supportedFieldTypes)
      (hn : nameValid name) (hs : getInteger g.defines size = some n) :
      DeclaresField g ["fixed_repeated", type, name, "[", size, "]", ";"]
        (.fixedRepeated name type n)
  | optional {type name : String} (ht : type ∈ g.supportedFieldTypes) (hn : nameValid name) :
      DeclaresField g ["optional", type, name, ";"] (.optional name type)

/-- An alternative of a oneof; a line that starts another statement declares none. -/
inductive DeclaresAlternative (g : Globals) : List String → OneofInnerField → Prop
  | mk {type name tag : String} {n : Int} (hk : type ∉ statements)
      (ht : type ∈ g.supportedFieldTypes) (hn : nameValid name)
      (hg : getInteger g.defines tag = some n) :
      DeclaresAlternative g [type, name, "(", tag, ")", ";"] ⟨name, type, n⟩

/-- The lines behind the opening line of a message declare these fields, in this order. -/
inductive Declares (g : Globals) : List Line → List Field → Prop
  | nil : Declares g [] []
  | closing {l : Line} (h : l.tokens = [closeBrace]) : Declares g [l] []
  | field {l : Line} {rest : List Line} {f : Field} {fs : List Field}
      (h : DeclaresField g l.tokens f) (hr : Declares g rest fs) :
      Declares g (l :: rest) (f :: fs)
  | oneof {l : Line} {body rest : List Line} {name : String} {inner : List OneofInnerField}
      {fs : List Field} (h : l.tokens = ["oneof", name, openBrace]) (hn : nameValid name)
      (hb : closeBlock brackets 0 (l :: (body ++ rest)) = some (l :: body))
      (hi : List.Forall₂ (fun l f => DeclaresAlternative g l.tokens f) body.dropLast inner)
      (hc : ∀ c ∈ body.getLast?, c.tokens = [closeBrace]) (hr : Declares g rest fs) :
      Declares g (l :: (body ++ rest)) (.oneof name inner :: fs)

/-- The block declares the message. -/
inductive DeclaresMessage (g : Globals) : List Line → Message → Prop
  | mk {l : Line} {rest : List Line} {m : Message} (h : l.tokens = ["message", m.name, openBrace])
      (hd : Declares g rest m.fields) : DeclaresMessage g (l :: rest) m

/-- The braces of a line of the file; an import and an extern line opens and closes nothing. -/
def fileBrackets (l : Line) : Int := if l.keyword ∈ ["import", "extern"] then 0 else brackets l

/-- The block that starts with a line; one that is not closed goes to the end. -/
def blockAt (l : Line) (rest : List Line) : List Line :=
  (closeBlock fileBrackets 0 (l :: rest)).getD (l :: rest)

/-- The message blocks behind the first lines. -/
def sourceBlocksFrom : Nat → List Line → List (List Line)
  | _, [] => []
  | n + 1, _ :: rest => sourceBlocksFrom n rest
  | 0, l :: rest =>
    if l.keyword = "define" then sourceBlocksFrom ((blockAt l rest).length - 1) rest
    else if l.keyword = "message" then
      blockAt l rest :: sourceBlocksFrom ((blockAt l rest).length - 1) rest
    else sourceBlocksFrom 0 rest

/-- The message blocks of a file, from their opening lines to their closing lines. -/
def sourceBlocks : List Line → List (List Line) := sourceBlocksFrom 0

/-- Every line starts with the rule of a field, or stands in the block of a oneof that ends with
a line for the brace alone and holds no other statement, or is the line of the closing brace. -/
inductive Claimed : List Line → Prop
  | nil : Claimed []
  | closing {l : Line} (h : l.tokens = [closeBrace]) : Claimed [l]
  | field {l : Line} {rest : List Line} (h : l.keyword ∈ rules) (hr : Claimed rest) :
      Claimed (l :: rest)
  | oneof {l : Line} {body rest : List Line} (h : l.keyword = "oneof")
      (hb : closeBlock brackets 0 (l :: (body ++ rest)) = some (l :: body))
      (hs : ∀ l ∈ body, l.keyword ∉ statements)
      (hc : ∀ c ∈ body.getLast?, c.tokens = [closeBrace]) (hr : Claimed rest) :
      Claimed (l :: (body ++ rest))

theorem DeclaresField.keyword {g : Globals} {l : Line} {f : Field} (h : DeclaresField g l.tokens f) :
    l.keyword ∈ rules := by
  unfold Line.keyword
  generalize l.tokens = tokens at h
  cases h <;> simp [rules]

theorem DeclaresAlternative.keyword {g : Globals} {l : Line} {f : OneofInnerField}
    (h : DeclaresAlternative g l.tokens f) : l.keyword ∉ statements := by
  unfold Line.keyword
  generalize l.tokens = tokens at h
  obtain ⟨hk, -, -, -⟩ := h
  exact hk

theorem closing_keyword {l : Line} (h : l.tokens = [closeBrace]) : l.keyword ∉ statements := by
  unfold Line.keyword
  rw [h]
  decide

/-- The lines of a block are its inner lines and the last one. -/
theorem mem_dropLast_or_getLast {α : Type} {a : α} {as : List α} (h : a ∈ as) :
    a ∈ as.dropLast ∨ a ∈ as.getLast? := by
  have hn : as ≠ [] := List.ne_nil_of_mem h
  rw [← List.dropLast_append_getLast hn, List.mem_append, List.mem_singleton] at h
  rw [List.getLast?_eq_some_getLast hn]
  exact h.imp id fun h => congrArg some h.symm

/-- What is declared is claimed. -/
theorem Declares.claimed {g : Globals} {lines : List Line} {fs : List Field}
    (h : Declares g lines fs) : Claimed lines := by
  induction h with
  | nil => exact .nil
  | closing h => exact .closing h
  | field h _ ih => exact .field h.keyword ih
  | oneof h _ hb hi hc _ ih =>
    apply Claimed.oneof _ hb _ hc ih
    · unfold Line.keyword
      rw [h]
      rfl
    · intro l hl
      have ha := (List.forall₂_and_left _ _).mp (hi.imp fun l f hf => ⟨hf.keyword, hf⟩)
      rcases mem_dropLast_or_getLast hl with hd | hg
      · exact ha.1 l hd
      · exact closing_keyword (hc l hg)

end OpenBadge.Tinybuf.Generator
