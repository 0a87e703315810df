/-
  BucketStore/Document.lean
  =========================
  **Documents: the trees that requests, scripts and reports are written as.**

  A document is a scalar, a list, or a list of named fields.  `ToDocument` says
  how a type is reported and `OfDocument` how it is read; a reading that fails
  says in words what was expected.  The modules below `Document` give the forms
  of the library's own types.
-/
import BucketStore.Text.Hex

namespace BucketStore

/-- A tree of scalars, lists and named fields. -/
inductive Document where
  | null
  | truth (b : Bool)
  | number (n : Int)
  | text (s : String)
  | list (items : List Document)
  | fields (items : List (String × Document))
deriving Repr, Inhabited

/-- The outcome of reading a document. -/
abbrev Reading := Except String

class ToDocument (α : Type) where
  toDocument : α → Document

class OfDocument (α : Type) where
  ofDocument : Document → Reading α

export ToDocument (toDocument)
export OfDocument (ofDocument)

namespace Document

instance {α : Type} [ToDocument α] (a : α) : CoeT α a Document := ⟨toDocument a⟩

/-! ### Looking into documents -/

def items : Document → Reading (List Document)
  | .list items => .ok items
  | _ => .error "a list was expected"

def field? (d : Document) (name : String) : Option Document :=
  match d with
  | .fields items => (items.find? fun f => f.1 == name).map (·.2)
  | _ => none

/-- Is there a field of that name that is not null? -/
def has (d : Document) (name : String) : Bool :=
  match d.field? name with
  | none | some .null => false
  | some _ => true

def get {α : Type} [OfDocument α] (d : Document) (name : String) : Reading α :=
  match d.field? name with
  | some f => ofDocument f
  | none => .error s!"no field {name}"

/-- Reads a field, or takes a default if there is none. -/
def getD {α : Type} [OfDocument α] (d : Document) (name : String) (default : α) : Reading α :=
  match d.field? name with
  | some f => ofDocument f
  | none => .ok default

def get? {α : Type} [OfDocument α] (d : Document) (name : String) : Reading (Option α) :=
  match d.field? name with
  | some f => return some (← ofDocument f)
  | none => .ok none

/-- The name and the content of a document of one field. -/
def tagged : Document → Reading (String × Document)
  | .fields [field] => .ok field
  | _ => .error "one field was expected"

/-- The name and the arguments of a call that is written as a list. -/
def invocation : Document → Reading (String × List Document)
  | .list (.text name :: args) => .ok (name, args)
  | _ => .error "a name with arguments was expected"

def extend (d : Document) (more : List (String × Document)) : Document :=
  match d with
  | .fields items => .fields (items ++ more)
  | _ => .fields more

/-- A whole number as the text of its decimal digits. -/
def decimal (n : Int) : Document := .text (toString n)

def hex (b : Bytes) : Document := .text (Text.Hex.encode b)

def hexDigits : List Char → Reading Bytes
  | [] => .ok []
  | a :: b :: rest =>
    match Text.Hex.nibble? a, Text.Hex.nibble? b with
    | some x, some y => return UInt8.ofNat (x * 16 + y) :: (← hexDigits rest)
    | _, _ => .error "hexadecimal digits were expected"
  | [_] => .error "an even number of digits was expected"

/-- Reads an integer, written as a number or as decimal text. -/
def integer : Document → Reading Int
  | .number n => .ok n
  | .text s =>
    match s.toInt? with
    | some n => .ok n
    | none => .error "an integer was expected"
  | _ => .error "an integer was expected"

end Document

/-! ### Scalars, lists and pairs -/

instance : ToDocument Document := ⟨id⟩
instance : ToDocument Unit := ⟨fun _ => .null⟩
instance : ToDocument Bool := ⟨.truth⟩
instance : ToDocument Nat := ⟨fun n => .number n⟩
instance : ToDocument String := ⟨.text⟩

instance : OfDocument Document := ⟨.ok⟩
instance : OfDocument Int := ⟨Document.integer⟩
instance : OfDocument Nat := ⟨fun d => return (← d.integer).toNat⟩
instance : OfDocument UInt64 := ⟨fun d => return UInt64.ofNat (← d.integer).toNat⟩
instance : OfDocument Int64 := ⟨fun d => return Int64.ofInt (← d.integer)⟩

instance : OfDocument Bool where
  ofDocument
    | .truth b => .ok b
    | _ => .error "a truth value was expected"

instance : OfDocument String where
  ofDocument
    | .text s => .ok s
    | _ => .error "a text was expected"

/-- A byte string is reported as text where it is one, and in hexadecimal digits otherwise. -/
instance : ToDocument Bytes where
  toDocument b :=
    match Bytes.text? b with
    | some s => .text s
    | none => .fields [("hex", .hex b)]

instance : OfDocument Bytes where
  ofDocument d :=
    match d with
    | .text s => .ok (Bytes.ofString s)
    | _ => do Document.hexDigits (← d.get "hex" : String).toList

section Compound

variable {α β : Type}

instance [ToDocument α] : ToDocument (List α) := ⟨fun l => .list (l.map toDocument)⟩

instance [ToDocument α] : ToDocument (Option α) where
  toDocument
    | some a => toDocument a
    | none => .null

instance [ToDocument α] [ToDocument β] : ToDocument (α × β) :=
  ⟨fun p => .list [toDocument p.1, toDocument p.2]⟩

instance [OfDocument α] : OfDocument (List α) := ⟨fun d => do (← d.items).mapM ofDocument⟩

instance [OfDocument α] : OfDocument (Option α) where
  ofDocument
    | .null => .ok none
    | d => return some (← ofDocument d)

instance [OfDocument α] [OfDocument β] : OfDocument (α × β) where
  ofDocument
    | .list [a, b] => return (← ofDocument a, ← ofDocument b)
    | _ => .error "a pair was expected"

end Compound

end BucketStore
