import Interchange.Yaml.Meaning

/-!
Values from documents. A decoder takes a node where it is expected to be; what does not fit is told with
the path to it and its place. What no record asks for is passed over.
-/

namespace Interchange.Yaml

/-- A step of the path to a value. -/
inductive Segment where
  | key (name : String)
  | item (index : Nat)
  | unnamed
  deriving DecidableEq, Repr

/-- The path to a value, last step first; the root has none. -/
def pathMessage : List Segment → Option String
  | [] => none
  | .key name :: rest => some (((pathMessage rest).map (· ++ ".")).getD "" ++ name)
  | .item index :: rest => some ((pathMessage rest).getD "." ++ "[" ++ toString index ++ "]")
  | .unnamed :: rest => some (((pathMessage rest).map (· ++ ".")).getD "" ++ "?")

/-- Why a value does not fit. -/
inductive DataFlaw where
  | invalidType (found expected : String)
  | invalidValue (found expected : String)
  | missingField (name : String)
  | duplicateField (name : String)
  | unknownVariant (name : String) (known : List String)
  deriving DecidableEq, Repr

/-- A list of choices in words. -/
def choiceMessage (known : List String) : String :=
  match known.map fun k => "`" ++ k ++ "`" with
  | [] => "there are no variants"
  | [a] => "expected " ++ a
  | [a, b] => "expected " ++ a ++ " or " ++ b
  | many => "expected one of " ++ String.intercalate ", " many

def DataFlaw.message : DataFlaw → String
  | .invalidType found expected => "invalid type: " ++ found ++ ", expected " ++ expected
  | .invalidValue found expected => "invalid value: " ++ found ++ ", expected " ++ expected
  | .missingField name => "missing field `" ++ name ++ "`"
  | .duplicateField name => "duplicate field `" ++ name ++ "`"
  | .unknownVariant name known => "unknown variant `" ++ name ++ "`, " ++ choiceMessage known

/-- A flaw, and where it was met once that is known. -/
structure DataError where
  flaw : DataFlaw
  site : Option (List Segment × Mark)
  deriving DecidableEq, Repr

def DataError.message (e : DataError) : String :=
  match e.site with
  | none => e.flaw.message
  | some (path, mark) =>
    ((pathMessage path).map (· ++ ": ")).getD "" ++ e.flaw.message ++ mark.suffix

/-- Why decoding stops: a value does not fit, or the reading of the text had ended before it. -/
inductive Stop where
  | data (e : DataError)
  | unread
  deriving DecidableEq, Repr

/-- Where a decoder works. -/
structure Scope where
  anchors : Anchors
  path : List Segment

def Scope.enter (s : Scope) (segment : Segment) : Scope := { s with path := segment :: s.path }

abbrev Decoder (α : Type) := Scope → Node → Except Stop α

/-- An error without a site gets this one. -/
def locate {α : Type} (s : Scope) (mark : Mark) : Except Stop α → Except Stop α
  | .error (.data e) => .error (.data { e with site := e.site.or (some (s.path, mark)) })
  | r => r

/-- An error whose site the collection around it supplies. -/
def raise {α : Type} (flaw : DataFlaw) : Except Stop α := .error (.data ⟨flaw, none⟩)

/-- A scalar of the wrong type, or one that its own tag rules out. -/
def scalarMismatch (expected : String) (tag : Option String) (style : ScalarStyle) (text : String) :
    DataFlaw :=
  match Meaning.ofScalar tag style text with
  | .ok m => .invalidType m.message expected
  | .error demanded => .invalidValue (Meaning.text text).message demanded

/-- A node of the wrong type. -/
def mismatch {α : Type} (s : Scope) (expected : String) : Node → Except Stop α
  | .scalar mark tag style text => locate s mark (raise (scalarMismatch expected tag style text))
  | .sequence mark _ _ => locate s mark (raise (.invalidType "sequence" expected))
  | .mapping mark _ _ => locate s mark (raise (.invalidType "map" expected))
  | .alias .. | .unread => .error .unread

namespace Decoder

/-- Decodes the node that an alias stands for. -/
def following {α : Type} (d : Decoder α) : Decoder α := fun s n =>
  match n with
  | .alias _ number => d s ((s.anchors.resolve number).getD .unread)
  | n => d s n

/-- A text: any scalar, as it is written. -/
def string (expected : String) : Decoder String := following fun s n =>
  match n with
  | .scalar _ _ _ text => .ok text
  | n => mismatch s expected n

/-- Whether the text of a scalar may be read as a value of the type that `tag` names. -/
def isLiteral (expected : String) (tag : Option String) : ScalarStyle → Bool
  | .plain => true
  | .literal => tag == some expected
  | _ => false

def boolean : Decoder Bool := following fun s n =>
  match n with
  | .scalar _ tag style text =>
    match (if isLiteral booleanTag tag style then readBoolean text else none) with
    | some b => .ok b
    | none => mismatch s "a boolean" n
  | n => mismatch s "a boolean" n

/-- A whole number of 32 bits with a sign. -/
def int32 : Decoder Int := following fun s n =>
  match n with
  | .scalar mark tag style text =>
    match (if isLiteral integerTag tag style then readInteger text else none) with
    | some i =>
      if Decimal.isInt32 i then .ok i
      else if Decimal.isInt64 i then
        locate s mark (raise (.invalidValue (Meaning.integer i).message "i32"))
      else mismatch s "i32" n
    | none => mismatch s "i32" n
  | n => mismatch s "i32" n

/-- A whole number of 64 bits without a sign; a minus sign is not even admitted in front of zero. -/
def size : Decoder Nat := following fun s n =>
  match n with
  | .scalar _ tag style text =>
    match (if isLiteral integerTag tag style then readInteger text else none) with
    | some i =>
      if 0 ≤ i && i < 0x10000000000000000 && text.toList.head? != some '-' then .ok i.toNat
      else mismatch s "usize" n
    | none => mismatch s "usize" n
  | n => mismatch s "usize" n

/-- A value that may be left out, or be given as nothing. -/
def optional {α : Type} (d : Decoder α) : Decoder (Option α) := following fun s n =>
  match n with
  | .scalar _ tag .plain text =>
    match tag with
    | none => if text.isEmpty || isNull text then .ok none else (d s n).map some
    | some tag =>
      if tag = nullTag then
        if isNull text then .ok none
        else raise (.invalidValue (Meaning.text text).message "null")
      else (d s n).map some
  | n => (d s n).map some

/-- A scalar that stands for an empty collection. -/
def isEmptyScalar : Node → Bool
  | .scalar _ _ .plain text => text.isEmpty
  | _ => false

/-- Decodes the items of a sequence, the first of which has the index given. -/
def items {α : Type} (d : Decoder α) (s : Scope) (index : Nat) : List Node → Except Stop (List α)
  | [] => .ok []
  | n :: rest => do
    let a ← d (s.enter (.item index)) n
    let as ← items d s (index + 1) rest
    return a :: as

def list {α : Type} (d : Decoder α) : Decoder (List α) := following fun s n =>
  match n with
  | .sequence mark _ nodes => locate s mark (items d s 0 nodes)
  | n => if isEmptyScalar n then .ok [] else mismatch s "a sequence" n

/-! ## Choices -/

/-- The choice that a tag of an application's own names. -/
def choiceTag (tag : Option String) : Option String :=
  tag.bind fun t => if isLocalTag t then some (String.ofList (t.toList.drop 1)) else none

def choose {α : Type} (known : List (String × α)) (name : String) : Except Stop α :=
  match known.lookup name with
  | some a => .ok a
  | none => raise (.unknownVariant name (known.map (·.1)))

/-- What follows the name of a choice: nothing. -/
def nothing : Decoder Unit := fun s n =>
  match n with
  | .scalar mark _ style text =>
    if style = .plain && (text.isEmpty || isNull text) then .ok ()
    else locate s mark (raise (.invalidValue (Meaning.text text).message "null"))
  | n => mismatch s "unit" n

/-- One of several names, which may be written as a tag. -/
def choice {α : Type} (known : List (String × α)) : Decoder α := following fun s n =>
  match n with
  | .scalar mark tag _ text =>
    match choiceTag tag with
    | none => locate s mark (choose known text)
    | some name => do
      let a ← choose known name
      nothing s n
      return a
  | .sequence mark tag _ | .mapping mark tag _ =>
    match choiceTag tag with
    | none =>
      let found := match n with | .sequence .. => "sequence" | _ => "map"
      locate s mark (raise (.invalidType found "a YAML tag starting with '!'"))
    | some name => do
      let a ← choose known name
      nothing s n
      return a
  | n => mismatch s "a YAML tag starting with '!'" n

end Decoder

/-! ## Records -/

/-- A field of a record: its name, the other names that it goes by, whether it must be there, and how
its value becomes part of the record. -/
structure Member (R : Type) where
  name : String
  aliases : List String
  required : Bool
  read : Scope → Node → R → Except Stop R

namespace Member

/-- A field that sets a part of the record. -/
def of {R α : Type} (name : String) (aliases : List String) (required : Bool) (d : Decoder α)
    (set : R → α → R) : Member R :=
  ⟨name, aliases, required, fun s n r => (d s n).map (set r)⟩

def answersTo {R : Type} (f : Member R) (key : String) : Bool :=
  f.name == key || f.aliases.contains key

end Member

namespace Decoder

/-- The key of an entry, and the step of the path that it makes. -/
def readKey (s : Scope) (key : Node) : Except Stop (String × Segment) :=
  match key with
  | .scalar _ _ _ text => .ok (text, .key text)
  | key => (string "field identifier" s key).map fun text => (text, .unnamed)

/-- Decodes entries into the record; `seen` holds the names of the fields that came before. -/
def entries {R : Type} (fields : List (Member R)) (s : Scope) :
    List String → R → List (Node × Node) → Except Stop (List String × R)
  | seen, r, [] => .ok (seen, r)
  | seen, r, (key, value) :: rest => do
    let (key, segment) ← readKey s key
    match fields.find? (·.answersTo key) with
    | none => if value.isComplete then entries fields s seen r rest else throw .unread
    | some f =>
      if seen.contains f.name then raise (.duplicateField f.name)
      else
        let r ← f.read (s.enter segment) value r
        entries fields s (f.name :: seen) r rest

/-- Decodes all entries of a record and asks for the fields that must be there. -/
def wholeRecord {R : Type} (fields : List (Member R)) (initial : R) (s : Scope)
    (nodes : List (Node × Node)) : Except Stop R := do
  let (seen, r) ← entries fields s [] initial nodes
  match fields.find? fun f => f.required && !seen.contains f.name with
  | some f => raise (.missingField f.name)
  | none => return r

/-- A record, which starts out as `initial`. -/
def record {R : Type} (name : String) (fields : List (Member R)) (initial : R) : Decoder R :=
  following fun s n =>
    match n with
    | .mapping mark _ nodes => locate s mark (wholeRecord fields initial s nodes)
    | .scalar mark _ .plain "" =>
      locate s mark (wholeRecord fields initial s [])
    | n => mismatch s ("struct " ++ name) n

end Decoder

/-! ## Texts -/

/-- Why a text gives no value. -/
inductive ReadError where
  | syntaxFault (f : Fault)
  | severalDocuments
  | data (e : DataError)
  deriving DecidableEq, Repr

namespace ReadError

def message : ReadError → String
  | .syntaxFault f => f.message
  | .severalDocuments =>
    "deserializing from YAML containing more than one document is not supported"
  | .data e => e.message

def mark : ReadError → Option Mark
  | .syntaxFault f => some f.mark
  | .severalDocuments => none
  | .data e => e.site.map (·.2)

end ReadError

/-- Decodes the document of a text. A value that does not fit is told before a fault behind it. -/
def decode {α : Type} (d : Decoder α) (text : String) : Except ReadError α :=
  let doc := Document.ofText text
  let fault := doc.fault.getD ⟨.nodeContent, .start, none⟩
  match d ⟨doc.anchors, []⟩ doc.root with
  | .error (.data e) => .error (.data e)
  | .error .unread => .error (.syntaxFault fault)
  | .ok a =>
    match doc.fault with
    | some f => .error (.syntaxFault f)
    | none => if doc.isFollowed then .error .severalDocuments else .ok a

end Interchange.Yaml
