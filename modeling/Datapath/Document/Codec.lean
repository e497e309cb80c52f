/-
Writing values into documents, and reading them back.

* `Codec`: how the values of a type are written and read.
* `boolean`, `natural`, `float`, `delay`, `string`, `listOf`, `optional`: the
  codecs of simple values. Whole numbers are read as floating-point ones where
  these are asked for, and never the other way round.
* `Fields`: some fields of a record; they are put together as an applicative
  functor, in the order in which they are written.
* `record`, `namedRecord`, `tuple`: the codecs of records. A record is read
  from a table, in which further fields are ignored, or from the list of its
  fields.
* `Alternative`, `choice`, `words`: the codecs of alternatives. One without
  parameters is its name; any other one is a table of one field.
-/
import Datapath.Delay
import Datapath.Document.Value

namespace Datapath.Document

/-- How the values of a type are written and read. -/
structure Codec (α : Type) where
  write : α → Value
  read? : Format → Value → Option α
  /-- The value of a field that is left out. -/
  absent? : Option α := none

/-- The codec of a type with other values of the same content. -/
def Codec.imap {α β : Type} (c : Codec α) (forth : α → β) (back : β → α) : Codec β where
  write b := c.write (back b)
  read? format v := (c.read? format v).map forth
  absent? := c.absent?.map forth

/-! ### Simple values -/

/-- Truth values. -/
def boolean : Codec Bool where
  write := .bool
  read?
    | _, .bool b => some b
    | _, _ => none

/-- Numbers of so many bits. -/
def natural (bits : Nat) : Codec Nat where
  write n := .int n
  read?
    | _, .int (.ofNat n) => if n < 1 <<< bits then some n else none
    | _, _ => none

/-- Words of 64 bits. -/
def seed : Codec UInt64 := (natural 64).imap UInt64.ofNat UInt64.toNat

/-- Floating-point numbers. -/
def float : Codec Float where
  write := .float
  read?
    | _, .float x => some x
    | _, .int n => some (.ofInt n)
    | _, _ => none

/-- Delays, as numbers of seconds. -/
def delay : Codec Delay := float.imap Delay.ofSeconds Delay.seconds

/-- Texts. -/
def string : Codec String where
  write := .text
  read?
    | _, .text s => some s
    | _, _ => none

/-- Lists of values of one type. -/
def listOf {α : Type} (c : Codec α) : Codec (List α) where
  write as := .list (as.map c.write)
  read?
    | format, .list vs => vs.mapM (c.read? format)
    | _, _ => none

/-- Arrays, which are written like lists. -/
def arrayOf {α : Type} (c : Codec α) : Codec (Array α) :=
  (listOf c).imap List.toArray Array.toList

/-- Values that may be missing. -/
def optional {α : Type} (c : Codec α) : Codec (Option α) where
  write a := (a.map c.write).getD .null
  read?
    | _, .null => some none
    | format, v => (c.read? format v).map some
  absent? := some none

/-! ### Records -/

/-- Where the fields of a record are found. -/
inductive Source where
  | named (fields : List (String × Value))
  /-- In the order of the record. -/
  | ordered (items : List Value)

/-- Nothing is left to read. -/
def Source.isDone : Source → Bool
  | named _ => true
  | ordered items => items.isEmpty

/-- Some fields of the record `ρ`, which `α` is made of. -/
structure Fields (ρ α : Type) where
  write : ρ → List (String × Value)
  read? : Format → Source → Option (α × Source)

instance {ρ : Type} : Applicative (Fields ρ) where
  pure a := { write _ := [], read? _ source := some (a, source) }
  seq f x :=
    { write r := f.write r ++ (x ()).write r
      read? format source := do
        let (g, source) ← f.read? format source
        let (a, source) ← (x ()).read? format source
        return (g a, source) }

/-- The field `name` of a record, with its value if it is left out. In a list
of fields only those can be left out that have a value of their own then. -/
def fieldOr {ρ α : Type} (default : Option α) (name : String) (c : Codec α) (get : ρ → α) :
    Fields ρ α where
  write r := [(name, c.write (get r))]
  read? format source :=
    match source with
    | .named fields => do
      let a ← match fields.lookup name with
        | some v => c.read? format v
        | none => default.or c.absent?
      return (a, source)
    | .ordered [] => default.map (·, source)
    | .ordered (v :: vs) => (c.read? format v).map (·, .ordered vs)

/-- The field `name` of a record. -/
def field {ρ α : Type} (name : String) (c : Codec α) (get : ρ → α) : Fields ρ α :=
  fieldOr none name c get

/-- The fields from a list, all of it unless the format allows for more. -/
def Fields.readList? {ρ α : Type} (fs : Fields ρ α) (format : Format) (vs : List Value) :
    Option α := do
  let (a, rest) ← fs.read? format (.ordered vs)
  if format.surplus || rest.isDone then some a else none

/-- The fields from a table. -/
def Fields.readTable? {ρ α : Type} (fs : Fields ρ α) (format : Format) (v : Value) : Option α := do
  let (a, _) ← fs.read? format (.named (← v.fields?))
  return a

/-- Records, read from tables alone. -/
def namedRecord {ρ : Type} (fs : Fields ρ ρ) : Codec ρ where
  write r := .table (fs.write r)
  read? := fs.readTable?

/-- Records, read from tables or lists. -/
def record {ρ : Type} (fs : Fields ρ ρ) : Codec ρ where
  write r := .table (fs.write r)
  read?
    | format, .list vs => fs.readList? format vs
    | format, v => fs.readTable? format v

/-- Records without names for their fields, which are lists. -/
def tuple {ρ : Type} (fs : Fields ρ ρ) : Codec ρ where
  write r := .list ((fs.write r).map (·.2))
  read?
    | format, .list vs => fs.readList? format vs
    | _, _ => none

/-! ### Alternatives -/

/-- One of several alternatives. -/
structure Alternative (σ : Type) where
  name : String
  /-- The written form of a value of this alternative. -/
  write? : σ → Option Value
  /-- The value that the name alone stands for. -/
  alone? : Option σ
  /-- The value with the given parameters. -/
  read? : Format → Value → Option σ

/-- An alternative without parameters. -/
def Alternative.word {σ : Type} [DecidableEq σ] (name : String) (value : σ) : Alternative σ where
  name
  write? s := if s = value then some (.text name) else none
  alone? := some value
  read? format v := if format.isBlank v then some value else none

/-- An alternative with parameters. -/
def Alternative.holding {σ α : Type} (name : String) (c : Codec α) (make : α → σ)
    (get? : σ → Option α) : Alternative σ where
  name
  write? s := (get? s).map fun a => .table [(name, c.write a)]
  alone? := none
  read? format v := (c.read? format v).map make

/-- Values of several alternatives. -/
def choice {σ : Type} (alternatives : List (Alternative σ)) : Codec σ where
  write s := (alternatives.findSome? (·.write? s)).getD .null
  read?
    | _, .text name => (find? name).bind (·.alone?)
    | format, .table [(name, v)] => (find? name).bind (·.read? format v)
    | _, _ => none
where
  find? (name : String) : Option (Alternative σ) := alternatives.find? (·.name == name)

/-- Alternatives without parameters, by their names. -/
def words {σ : Type} [DecidableEq σ] (names : List (String × σ)) : Codec σ :=
  choice (names.map fun (name, value) => .word name value)

end Datapath.Document
