/-
Module: Imprint.Value
Purpose: The values that can be imprinted on a tree, the literals they are written as, and the values
  that literals denote.
Main exports: Value, Value.ofJson, Value.literal?, Value.ofLiteral?
-/
import Imprint.Json
import Imprint.Node.Build
import Imprint.Text.IdentifierName

namespace Imprint

/-- A value to be written as a literal. Objects keep their entries in order; a date counts
milliseconds; a function is its source text; a tree is written as it stands; an unsupported value is
known only by the name of its type. -/
inductive Value where
  | undefined
  | null
  | bool (value : Bool)
  | number (value : Binary64)
  | text (content : String)
  | array (items : List Value)
  | object (entries : List (String × Value))
  | regExp (pattern flags : String)
  | date (millis : Int64)
  | function (source : String)
  | tree (root : Node)
  | unsupported (typeName : String)
deriving Repr

namespace Value

/-- An integer as a number value. -/
def ofInt (i : Int) : Value := .number (Binary64.ofInt i)

/-! ### Values from JSON -/

mutual

/-- The value of a JSON value. A repeated key keeps its first place and its last value. -/
def ofJson : Json → Value
  | .null => .null
  | .bool value => .bool value
  | .number value => .number value.toBinary64
  | .text content => .text content
  | .array items => .array (listOfJson items)
  | .object members => .object (Json.lastWins (entriesOfJson members))

/-- The values of all items. -/
def listOfJson : List Json → List Value
  | [] => []
  | item :: rest => ofJson item :: listOfJson rest

/-- The values of all members. -/
def entriesOfJson : List (String × Json) → List (String × Value)
  | [] => []
  | (key, item) :: rest => (key, ofJson item) :: entriesOfJson rest

end

/-! ### Literals -/

/-- A key stands bare where it can and in quotes where it must. -/
def keyLiteral (key : String) : Node :=
  if Text.isIdentifierName key then Node.identifier key else Node.string key

mutual

/-- The literal of a value. What has none is left out: undefined itself, and undefined items and
entries of arrays and objects. -/
def literal? : Value → Option Node
  | .undefined => none
  | .null => some Node.null
  | .bool value => some (Node.boolean value)
  | .number value => some (Node.number value)
  | .text content => some (Node.string content)
  | .array items => some (Node.array (itemLiterals items))
  | .object entries => some (Node.object (entryLiterals entries))
  | .regExp pattern flags => some (Node.regExp pattern flags)
  | .date millis =>
      some (Node.construct (Node.identifier "Date") [Node.number (Binary64.ofInt millis.toInt)])
  | .function source => some (Node.raw source)
  | .tree root => some root
  | .unsupported _ => some (Node.identifier "undefined")

/-- The literals of the items that have one; none of the places is a hole. -/
def itemLiterals : List Value → List (Option Node)
  | [] => []
  | item :: rest =>
      match literal? item with
      | some node => some node :: itemLiterals rest
      | none => itemLiterals rest

/-- The properties of the entries whose values have a literal. -/
def entryLiterals : List (String × Value) → List Node
  | [] => []
  | (key, value) :: rest =>
      match literal? value with
      | some node => Node.property (keyLiteral key) node :: entryLiterals rest
      | none => entryLiterals rest

end

/-! ### Values of literals -/

/-- The milliseconds of a number: cut towards zero and held within 64 bits; a number that is none
counts as zero. -/
def millisOf (x : Binary64) : Int64 :=
  match x.toInt? with
  | some whole => Int64.ofInt (max Int64.minValue.toInt (min Int64.maxValue.toInt whole))
  | none =>
      if x.isNaN then 0
      else if x.negative then Int64.minValue
      else Int64.maxValue

/-- The key of a property that is written out. -/
def keyOf? (key : Node) : Option String :=
  match key.kind with
  | .identifier name => some name
  | .leaf (.text value) => some value
  | _ => none

/-- The value of a leaf. -/
def ofLeaf? : Leaf → Option Value
  | .this => none
  | .text value => some (.text value)
  | .number value => some (.number value)
  | .boolean value => some (.bool value)
  | .null => some .null
  | .regExp pattern flags => some (.regExp pattern flags)
  | .raw source => some (.function source)

/-- The date that a construction makes: of `Date`, from one number literal. -/
def ofConstruction? (callee : Node) : List Node → Option Value
  | [⟨_, .leaf (.number value)⟩] =>
      if callee.identifier? = some "Date" then some (.date (millisOf value)) else none
  | _ => none

mutual

/-- The value that a literal denotes; nodes that are no literals have none. -/
def ofLiteral? : Node → Option Value
  | ⟨_, .identifier name⟩ => if name = "undefined" then some .undefined else none
  | ⟨_, .leaf leaf⟩ => ofLeaf? leaf
  | ⟨_, .construct callee arguments⟩ => ofConstruction? callee arguments
  | ⟨_, .array elements⟩ => (ofSlots? elements).map .array
  | ⟨_, .object properties⟩ => (ofProperties? properties).map .object
  | _ => none

/-- The values of all places of an array; a hole is undefined. -/
def ofSlots? : List (Option Node) → Option (List Value)
  | [] => some []
  | none :: rest => (ofSlots? rest).map (.undefined :: ·)
  | some node :: rest =>
      match ofLiteral? node, ofSlots? rest with
      | some value, some values => some (value :: values)
      | _, _ => none

/-- The entries of all properties, each with a key that is written out. -/
def ofProperties? : List Node → Option (List (String × Value))
  | [] => some []
  | ⟨_, .property key node false⟩ :: rest =>
      match keyOf? key, ofLiteral? node, ofProperties? rest with
      | some key, some value, some entries => some ((key, value) :: entries)
      | _, _, _ => none
  | _ :: _ => none

end

end Value

end Imprint
