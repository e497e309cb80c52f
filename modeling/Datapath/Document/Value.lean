/-
Documents as trees.

* `Value`: what a document can hold, whatever format it is written in.
* `Value.fields?`: the fields of a table.
* `Format`: what the formats of documents decide differently.
-/

namespace Datapath.Document

/-- What a document can hold. -/
inductive Value where
  | null
  | bool (b : Bool)
  | int (n : Int)
  | float (x : Float)
  | text (s : String)
  | list (items : List Value)
  | table (fields : List (String × Value))
  deriving Inhabited

/-- The fields of a table, in the order of the document. -/
def Value.fields? : Value → Option (List (String × Value))
  | table fields => some fields
  | _ => none

/-- What the formats of documents decide differently. -/
structure Format where
  /-- The value stands for the parameters of an alternative that has none. -/
  isBlank : Value → Bool
  /-- A record written as a list may go on after its last field. -/
  surplus : Bool

namespace Format

/-- Alternatives without parameters are followed by nothing, and lists have to
end where their records do. -/
def json : Format where
  isBlank v := v matches .null
  surplus := false

/-- Alternatives without parameters are followed by an empty table or list,
and surplus items are ignored. -/
def toml : Format where
  isBlank v := v matches .list [] | .table []
  surplus := true

end Format

end Datapath.Document
