/-
Tables of TOML documents.

* `Node`, `Entries`: the tables of a document while it is read. `Origin` says
  what may still be added to a table.
* `within`: an operation on the table under a path, which makes the tables on
  its way.
* `setKey`: a key with its value. No key is set twice.
* `openTable`, `openItem`: the headers of a table and of the next table of a
  list.
* `Node.toValue`: the finished table.
-/
import Datapath.Document.Value

namespace Datapath.Toml

open Document (Value)

/-- How a table came about. -/
inductive Origin where
  /-- By the header of a table inside it. -/
  | implied
  /-- By a dotted key. -/
  | dotted
  /-- By its own header, or as the document. -/
  | header
  deriving DecidableEq, Repr

/-- A part of a document. -/
inductive Node where
  | value (v : Value)
  | table (origin : Origin) (entries : List (String × Node))
  /-- A list of tables, each of which has its own header. -/
  | tables (items : List (List (String × Node)))

/-- The contents of a table, in the order of the document. -/
abbrev Entries := List (String × Node)

/-- The contents with another node under a name that is there. -/
def Entries.replace (es : Entries) (name : String) (node : Node) : Entries :=
  es.map fun e => if e.1 = name then (name, node) else e

/-- The contents without a name. -/
def Entries.erase (es : Entries) (name : String) : Entries := es.filter (·.1 ≠ name)

/-- Runs an operation on the table under a path, in the last table of a list.
Tables with headers of their own are closed to dotted keys. -/
def within (dotted : Bool) (path : List String)
    (operate : Origin → Entries → Option Entries) (origin : Origin) (es : Entries) :
    Option Entries :=
  match path with
  | [] => operate origin es
  | name :: path =>
    match List.lookup name es with
    | none => do
      let origin := if dotted then .dotted else .implied
      let child ← within dotted path operate origin []
      return es ++ [(name, .table origin child)]
    | some (.table origin child) =>
      if dotted ∧ origin = .header then none
      else do
        let child ← within dotted path operate origin child
        return es.replace name (.table origin child)
    | some (.tables items) => do
      let last ← within dotted path operate .header (← items.getLast?)
      return es.replace name (.tables (items.dropLast ++ [last]))
    | some (.value _) => none

/-- A value under a dotted key of a table. All names but the last one are of
tables that dotted keys made. -/
def setKey (path : List String) (v : Value) (es : Entries) : Option Entries := do
  let name ← path.getLast?
  let set (origin : Origin) (es : Entries) : Option Entries :=
    if (origin = .dotted ↔ path.length = 1) ∨ (List.lookup name es).isSome then none
    else some (es ++ [(name, .value v)])
  within true path.dropLast set .header es

/-- The document after the header of a table. -/
def openTable (path : List String) (root : Entries) : Option Entries := do
  let name ← path.getLast?
  let start (_ : Origin) (es : Entries) : Option Entries :=
    match List.lookup name es with
    | none => some (es ++ [(name, .table .header [])])
    | some (.table .implied child) => some (es.erase name ++ [(name, .table .header child)])
    | some _ => none
  within false path.dropLast start .header root

/-- The document after the header of the next table of a list. -/
def openItem (path : List String) (root : Entries) : Option Entries := do
  let name ← path.getLast?
  let start (_ : Origin) (es : Entries) : Option Entries :=
    match List.lookup name es with
    | none => some (es ++ [(name, .tables [[]])])
    | some (.tables items) => some (es.replace name (.tables (items ++ [[]])))
    | some _ => none
  within false path.dropLast start .header root

/-! ### Finished tables -/

mutual

/-- The value of a node. -/
def Node.toValue : Node → Value
  | .value v => v
  | .table _ es => .table (entryValues es)
  | .tables items => .list (itemValues items)

/-- The values of the contents of a table. -/
def entryValues : List (String × Node) → List (String × Value)
  | [] => []
  | (name, node) :: es => (name, node.toValue) :: entryValues es

/-- The values of a list of tables. -/
def itemValues : List (List (String × Node)) → List Value
  | [] => []
  | es :: items => .table (entryValues es) :: itemValues items

end

end Datapath.Toml
