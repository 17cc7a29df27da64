import Mathlib.Data.List.SplitOn
import Mathlib.Data.List.Nodup
import Mathlib.Data.List.TakeWhile

/-!
# tinybuf_generator.py: the parser

The parser reads the lines of a schema file as lists of tokens. Each of its four passes
takes the lines of one kind out of the file, and within a message the lines of the fields
are taken out of the block; whenever lines are taken out the iterator starts again. An
exception that ends the program is an error of the model; one that is printed while the
parser goes on is noted.
-/

namespace OpenBadge.Tinybuf.Generator

/-! ## File and Block -/

/-- A line that is not blank, split into its tokens. -/
structure Line where
  number : Nat
  tokens : List String
  deriving DecidableEq, Repr

/-- `line[0]`. -/
def Line.keyword (l : Line) : String := l.tokens.headD ""

def openBrace : String := "\x7b"

def closeBrace : String := "\x7d"

/-- `File.SPECIAL_CHARACTERS`. -/
def specialCharacters : List Char := [';', '\x7b', '\x7d', '[', ']', '(', ')']

/-- The characters that `strip` removes. -/
def whitespace : List Char := [' ', '\t', '\n', '\r', '\x0b', '\x0c']

/-- A line of text as tokens: the special characters are tokens of their own. -/
def tokenize (text : List Char) : List String :=
  let stripped := ((text.dropWhile (· ∈ whitespace)).reverse.dropWhile (· ∈ whitespace)).reverse
  let spaced := stripped.flatMap fun c => if c ∈ specialCharacters then [' ', c, ' '] else [c]
  ((spaced.splitOnP (· ∈ [' ', '\n', '\r', '\t'])).filter (· ≠ [])).map String.ofList

/-- `File.__init__`: the lines with their numbers, without the blank ones. -/
def fileLines (content : List (List Char)) : List Line :=
  ((content.map tokenize).zipIdx.filter (·.1 ≠ [])).map fun p => ⟨p.2 + 1, p.1⟩

structure Block where
  lines : List Line
  iteratorIndex : Nat

/-- What a line adds to `bracket_open_counter`. -/
def brackets (l : Line) : Int :=
  (if openBrace ∈ l.tokens then 1 else 0) - (if closeBrace ∈ l.tokens then 1 else 0)

/-- The lines up to the first with which the counter is zero. -/
def closeBlock (brackets : Line → Int) : Int → List Line → Option (List Line)
  | _, [] => none
  | counter, l :: rest =>
    if counter + brackets l = 0 then some [l]
    else (closeBlock brackets (counter + brackets l) rest).map (l :: ·)

namespace Block

def setupIterator (b : Block) : Block := { b with iteratorIndex := 0 }

/-- `has_next` and `get_next`. -/
def getNext (b : Block) : Option (Line × Block) :=
  b.lines[b.iteratorIndex]?.map fun l => (l, { b with iteratorIndex := b.iteratorIndex + 1 })

/-- `extract_block`, of a line that is in the block. -/
def extractBlock (b : Block) (lineNumber : Nat) : Option Block :=
  match b.lines.dropWhile fun l => l.number ≠ lineNumber with
  | [] => none
  | l :: rest =>
    if openBrace ∈ l.tokens then (closeBlock brackets 0 (l :: rest)).map (⟨·, 0⟩) else none

/-- A turn of the outer loop of `remove_lines`. -/
def removeLine (b : Block) (lineNumber : Nat) : Block :=
  if b.lines.any (·.number = lineNumber) then
    ⟨b.lines.eraseP (·.number = lineNumber), 0⟩
  else b

def removeLines (b : Block) (lineNumbers : List Nat) : Block := lineNumbers.foldl removeLine b

end Block

/-! ## Errors -/

/-- The exceptions. -/
inductive Error where
  | expectsFormat (format line : List String)
  | unsupportedName (name : String)
  | unsupportedType (type : String)
  | unsupportedSize (size : String)
  | unsupportedTag (tag : String)
  | duplicateTag (tag : Int)
  | duplicateDefine (name : String)
  | duplicateMessage (name : String)
  | duplicateImport (name : String)
  | duplicateField (name : String)
  | noInteger (literal : String)
  | noBlock (lineNumber : Nat)
  | noOneof
  deriving DecidableEq, Repr

/-- `check_format`; the flags say which tokens are required. -/
def checkFormat (line : List String) (format : List (String × Bool)) : Except Error Unit :=
  if line.length = format.length ∧ ∀ p ∈ line.zip format, p.2.2 → p.2.1 = p.1 then pure ()
  else .error (.expectsFormat (format.map Prod.fst) line)

/-- `name_valid`. -/
def nameValid (name : String) : Bool := !(name.toList.headD ' ').isDigit

def checkName (name : String) : Except Error Unit :=
  if nameValid name then pure () else .error (.unsupportedName name)

/-! ## The fields -/

structure OneofInnerField where
  name : String
  type : String
  tag : Int
  deriving DecidableEq, Repr

inductive Field where
  | required (name type : String)
  | repeated (name type : String) (size : Int)
  | fixedRepeated (name type : String) (size : Int)
  | optional (name type : String)
  | oneof (name : String) (innerFields : List OneofInnerField)
  deriving DecidableEq, Repr

/-- `get_name`, which gives a list. -/
def Field.getName : Field → List String
  | .required name _ => [name]
  | .repeated name _ _ => [name]
  | .fixedRepeated name _ _ => [name]
  | .optional name _ => [name]
  | .oneof name innerFields => name :: innerFields.map OneofInnerField.name

structure Message where
  name : String
  fields : List Field
  deriving DecidableEq, Repr

/-- The global variables, and the exceptions that were printed with their line numbers. -/
structure Globals where
  imports : List String
  defines : List (String × Int)
  supportedFieldTypes : List String
  messages : List Message
  printed : List (Nat × Error)
  deriving DecidableEq, Repr

namespace Globals

def init : Globals where
  imports := []
  defines := []
  supportedFieldTypes :=
    ["uint8", "int8", "uint16", "int16", "uint32", "int32", "uint64", "int64", "float", "double"]
  messages := []
  printed := []

def print (g : Globals) (lineNumber : Nat) (e : Error) : Globals :=
  { g with printed := g.printed ++ [(lineNumber, e)] }

def checkType (g : Globals) (type : String) : Except Error Unit :=
  if type ∈ g.supportedFieldTypes then pure () else .error (.unsupportedType type)

end Globals

/-- The number that a string of digits stands for. -/
def digits (s : List Char) : Option Nat :=
  if s ≠ [] ∧ s.all Char.isDigit then
    some (s.foldl (fun n c => 10 * n + (c.toNat - '0'.toNat)) 0)
  else none

/-- `int(s)`. -/
def toInteger (s : String) : Except Error Int :=
  match s.toList with
  | '-' :: s' => (digits s').elim (.error (.noInteger s)) fun n => pure (-n)
  | '+' :: s' => (digits s').elim (.error (.noInteger s)) fun n => pure n
  | s' => (digits s').elim (.error (.noInteger s)) fun n => pure n

/-- `Field.get_integer`. -/
def getInteger (defines : List (String × Int)) (s : String) : Option Int :=
  match digits s.toList with
  | some n => some n
  | none => (defines.find? fun d => s = d.1).map Prod.snd

/-- `RequiredField.get_field` and `OptionalField.get_field`. -/
def plainField (rule : String) (field : String → String → Field) (g : Globals)
    (line : List String) : Except Error (Option Field) :=
  if line.headD "" = rule then do
    checkFormat line [(rule, true), ("field_type", false), ("field_name", false), (";", true)]
    g.checkType (line.getD 1 "")
    checkName (line.getD 2 "")
    pure (some (field (line.getD 2 "") (line.getD 1 "")))
  else pure none

/-- `RepeatedField.get_field` and `FixedRepeatedField.get_field`. -/
def arrayField (rule : String) (field : String → String → Int → Field) (g : Globals)
    (line : List String) : Except Error (Option Field) :=
  if line.headD "" = rule then do
    checkFormat line [(rule, true), ("field_type", false), ("field_name", false), ("[", true),
      ("array_size", false), ("]", true), (";", true)]
    g.checkType (line.getD 1 "")
    checkName (line.getD 2 "")
    match getInteger g.defines (line.getD 4 "") with
    | none => .error (.unsupportedSize (line.getD 4 ""))
    | some size => pure (some (field (line.getD 2 "") (line.getD 1 "") size))
  else pure none

def requiredField := plainField "required" .required

def repeatedField := arrayField "repeated" .repeated

def fixedRepeatedField := arrayField "fixed_repeated" .fixedRepeated

def optionalField := plainField "optional" .optional

/-- `OneofInnerField.get_field`. -/
def oneofInnerField (g : Globals) (line : List String) : Except Error OneofInnerField := do
  checkFormat line [("field_type", false), ("field_name", false), ("(", true),
    ("oneof_tag", false), (")", true), (";", true)]
  g.checkType (line.getD 0 "")
  checkName (line.getD 1 "")
  match getInteger g.defines (line.getD 3 "") with
  | none => .error (.unsupportedTag (line.getD 3 ""))
  | some tag => pure ⟨line.getD 1 "", line.getD 0 "", tag⟩

/-- `OneofField.is_field`. -/
def isOneofField (line : List String) : Except Error Bool :=
  if line.headD "" = "oneof" then do
    checkFormat line [("oneof", true), ("field_name", false), (openBrace, true)]
    checkName (line.getD 1 "")
    pure true
  else pure false

/-- A turn of the loop of `OneofField.get_field`. -/
def addInnerField (g : Globals) (innerFields : List OneofInnerField) (l : Line) :
    Except Error (List OneofInnerField) := do
  let innerField ← oneofInnerField g l.tokens
  if innerField.tag ∈ innerFields.map OneofInnerField.tag then
    .error (.duplicateTag innerField.tag)
  else pure (innerFields ++ [innerField])

/-- The lines between the first and the last of a block. -/
def innerLines (lines : List Line) : List Line := (lines.drop 1).dropLast

/-- `OneofField.get_field`, of a block that starts with a oneof line. -/
def oneofField (g : Globals) (block : Block) : Except Error Field := do
  let innerFields ← (innerLines block.lines).foldlM (addInnerField g) []
  pure (.oneof (((block.lines.head?.map Line.tokens).getD []).getD 1 "") innerFields)

/-- `Message.add_field`. -/
def addField (fields : List Field) (field : Field) : Except Error (List Field) :=
  match field.getName.find? (· ∈ fields.flatMap Field.getName) with
  | some name => .error (.duplicateField name)
  | none => pure (fields ++ [field])

/-! ## The statements -/

/-- `Define.get_define`. -/
def getDefine (g : Globals) (line : List String) : Except Error (String × Int) := do
  checkFormat line [("define_name", false), ("=", true), ("Integer", false), (";", true)]
  checkName (line.getD 0 "")
  let number ← toInteger (line.getD 2 "")
  if line.getD 0 "" ∈ g.defines.map Prod.fst then .error (.duplicateDefine (line.getD 0 ""))
  else pure (line.getD 0 "", number)

/-- The end of `Message.get_message` and `ExternMessage.get_extern_message`. -/
def Globals.addType (g : Globals) (name : String) : Except Error Globals :=
  if name ∈ g.supportedFieldTypes then .error (.duplicateMessage name)
  else pure { g with supportedFieldTypes := g.supportedFieldTypes ++ [name] }

/-- `Message.get_message`; the message has no fields yet. -/
def getMessage (g : Globals) (line : List String) : Except Error (String × Globals) := do
  checkFormat line [("message", true), ("message_name", false), (openBrace, true)]
  checkName (line.getD 1 "")
  let g ← g.addType (line.getD 1 "")
  pure (line.getD 1 "", g)

/-- `ExternMessage.get_extern_message`. -/
def getExternMessage (g : Globals) (line : List String) : Except Error Globals := do
  checkFormat line [("extern", true), ("extern_message_name", false), (";", true)]
  checkName (line.getD 1 "")
  g.addType (line.getD 1 "")

/-- `Import.get_import`, and the append to `Imports`. -/
def getImport (g : Globals) (line : List String) : Except Error Globals := do
  checkFormat line [("import", true), ("import name", false)]
  checkName (line.getD 1 "")
  if line.getD 1 "" ∈ g.imports then .error (.duplicateImport (line.getD 1 ""))
  else pure { g with imports := g.imports ++ [line.getD 1 ""] }

/-! ## Parser -/

variable {σ : Type}

theorem Block.removeLine_lines (b : Block) (n : Nat) :
    b.removeLine n = b ∨ (b.removeLine n).lines.length < b.lines.length := by
  unfold removeLine
  split
  · next h =>
    obtain ⟨l, hl, hn⟩ := List.any_eq_true.mp h
    right
    rw [List.length_eraseP_of_mem hl hn]
    exact Nat.sub_lt (List.length_pos_of_mem hl) Nat.one_pos
  · exact .inl rfl

/-- Lines are taken out, or nothing happens. -/
theorem Block.removeLines_lines (b : Block) (ns : List Nat) :
    b.removeLines ns = b ∨ (b.removeLines ns).lines.length < b.lines.length := by
  induction ns generalizing b with
  | nil => exact .inl rfl
  | cons n ns ih =>
    change (b.removeLine n).removeLines ns = b ∨ ((b.removeLine n).removeLines ns).lines.length < _
    rcases b.removeLine_lines n with h | h
    · rw [h]
      exact ih b
    · rcases ih (b.removeLine n) with h' | h'
      · rw [h']
        exact .inr h
      · exact .inr (Nat.lt_trans h' h)

theorem Block.getNext_eq_some {b b' : Block} {l : Line} (h : b.getNext = some (l, b')) :
    b.lines[b.iteratorIndex]? = some l ∧ b' = { b with iteratorIndex := b.iteratorIndex + 1 } := by
  unfold getNext at h
  obtain ⟨l', hl, he⟩ := Option.map_eq_some_iff.mp h
  cases he
  exact ⟨hl, rfl⟩

/-- `while(has_next()): [n, line] = get_next(); ..`, where the body gives the numbers of the lines
it takes out. -/
def iterate (body : σ → Block → Line → Except Error (σ × List Nat)) (s : σ) (b : Block) :
    Except Error (σ × Block) :=
  match h : b.getNext with
  | none => pure (s, b)
  | some (l, b') =>
    match body s b' l with
    | .error e => .error e
    | .ok (s', lineNumbers) => iterate body s' (b'.removeLines lineNumbers)
termination_by (b.lines.length, b.lines.length - b.iteratorIndex)
decreasing_by
  obtain ⟨hl, rfl⟩ := Block.getNext_eq_some h
  obtain ⟨hlt, -⟩ := List.getElem?_eq_some_iff.mp hl
  rcases Block.removeLines_lines { b with iteratorIndex := b.iteratorIndex + 1 } lineNumbers with
    hb | hb
  · rw [hb]
    apply Prod.Lex.right
    dsimp only
    omega
  · exact Prod.Lex.left _ _ hb

/-- The body of `parse_imports`. -/
def importsBody (g : Globals) (_ : Block) (l : Line) : Except Error (Globals × List Nat) :=
  if l.keyword = "import" then
    match getImport g l.tokens with
    | .ok g => pure (g, [l.number])
    | .error e => pure (g.print l.number e, [l.number])
  else pure (g, [])

/-- The body of `parse_extern_messages`. -/
def externMessagesBody (g : Globals) (_ : Block) (l : Line) : Except Error (Globals × List Nat) :=
  if l.keyword = "extern" then
    match getExternMessage g l.tokens with
    | .ok g => pure (g, [l.number])
    | .error e => pure (g.print l.number e, [l.number])
  else pure (g, [])

/-- A turn of the loop over the lines of a define block. -/
def addDefine (g : Globals) (l : Line) : Globals :=
  match getDefine g l.tokens with
  | .ok define => { g with defines := g.defines ++ [define] }
  | .error e => g.print l.number e

/-- The body of `parse_defines`. -/
def definesBody (g : Globals) (file : Block) (l : Line) : Except Error (Globals × List Nat) :=
  if l.keyword = "define" then
    match file.extractBlock l.number with
    | none => .error (.noBlock l.number)
    | some block =>
      pure ((innerLines block.lines).foldl addDefine g, block.lines.map Line.number)
  else pure (g, [])

/-- The body of the loop over a message block. -/
def fieldsBody (g : Globals) (fields : List Field) (block : Block) (l : Line) :
    Except Error (List Field × List Nat) := do
  if let some field ← requiredField g l.tokens then
    return (← addField fields field, [l.number])
  if let some field ← repeatedField g l.tokens then
    return (← addField fields field, [l.number])
  if let some field ← fixedRepeatedField g l.tokens then
    return (← addField fields field, [l.number])
  if let some field ← optionalField g l.tokens then
    return (← addField fields field, [l.number])
  if ← isOneofField l.tokens then
    match block.extractBlock l.number with
    | none => .error .noOneof
    | some oneofBlock =>
      let field ← oneofField g oneofBlock
      return (← addField fields field, oneofBlock.lines.map Line.number)
  return (fields, [])

/-- The body of `parse_messages`. -/
def messagesBody (g : Globals) (file : Block) (l : Line) : Except Error (Globals × List Nat) :=
  if l.keyword = "message" then do
    let (name, g) ← getMessage g l.tokens
    match file.extractBlock l.number with
    | none => .error (.noBlock l.number)
    | some block =>
      let (fields, _) ← iterate (fieldsBody g) [] block.setupIterator
      pure ({ g with messages := g.messages ++ [⟨name, fields⟩] }, block.lines.map Line.number)
  else pure (g, [])

/-- `Parser.__init__`. -/
def parser (lines : List Line) : Except Error Globals := do
  let (g, file) ← iterate importsBody .init ⟨lines, 0⟩
  let (g, file) ← iterate externMessagesBody g file.setupIterator
  let (g, file) ← iterate definesBody g file.setupIterator
  let (g, _) ← iterate messagesBody g file.setupIterator
  pure g

end OpenBadge.Tinybuf.Generator
