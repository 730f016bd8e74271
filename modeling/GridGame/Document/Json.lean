import GridGame.Document
import GridGame.Json

/-!
# The JSON form of documents

A node is an object with the members `kind`, `value`, `span`, `children` and `properties`, of
which only the kind is required, or an array of these in that order. Members of other names are
passed over, whatever they contain. Arrays and objects that are not passed over may nest at most
127 deep.

Written documents give kind, value and span, and children and properties where there are some.
-/

namespace GridGame.Document

/-- How deep arrays and objects may nest. -/
def maxNesting : Nat := 127

/-! ### Reading -/

/-- The names and values of an object's members, if every name is a text. -/
def namedMembers? (members : List (Option String × Json)) : Option (List (String × Json)) :=
  members.mapM fun (name, v) => name.map (·, v)

/-- The member with a given name: at most one may be there. -/
def member? (name : String) (members : List (String × Json)) : Option (Option Json) :=
  match members.filter fun m => m.1 == name with
  | [] => some none
  | [(_, v)] => some (some v)
  | _ => none

/-- The member with a given name, which has to be there exactly once. -/
def requiredMember? (name : String) (members : List (String × Json)) : Option Json := do
  (← member? name members)

def readUInt32? : Json → Option UInt32
  | .number (some v) =>
    if 0 ≤ v ∧ v < 4294967296 then some (UInt32.ofNat v.toNat) else none
  | _ => none

def readInt64? : Json → Option Int64
  | .number (some v) =>
    if -9223372036854775808 ≤ v ∧ v < 9223372036854775808 then some (Int64.ofInt v) else none
  | _ => none

/-- Two 32-bit numbers, as an object with two named members or an array of two. -/
def readPair? (levels : Nat) (first second : String) : Json → Option (UInt32 × UInt32)
  | .object members => do
    guard (0 < levels)
    let members ← namedMembers? members
    let a ← readUInt32? (← requiredMember? first members)
    let b ← readUInt32? (← requiredMember? second members)
    return (a, b)
  | .array [a, b] => do
    guard (0 < levels)
    return (← readUInt32? a, ← readUInt32? b)
  | _ => none

/-- A choice among alternatives: its name, and its content when it is written with one, as an
object with a single member. -/
def readChoice? (levels : Nat) : Json → Option (String × Option Json)
  | .string (some name) => some (name, none)
  | .object [(some name, content)] => if 0 < levels then some (name, some content) else none
  | _ => none

/-- Whether a choice that has no content of its own is written without any. -/
def isBare : Option Json → Bool
  | none | some .null => true
  | _ => false

def readKind? (levels : Nat) (v : Json) : Option Kind := do
  let (name, content) ← readChoice? levels v
  guard (isBare content)
  Kind.ofTag? name

def readLiteral? (levels : Nat) (v : Json) : Option Literal := do
  match ← readChoice? levels v with
  | ("none", content) => if isBare content then some .none else none
  | ("integer", some content) => (readInt64? content).map .integer
  | ("boolean", some (.bool b)) => some (.boolean b)
  | ("text", some (.string (some s))) => some (.text s)
  | ("dimensions", some content) =>
    (readPair? (levels - 1) "width" "height" content).map fun (w, h) => .dimensions w h
  | _ => none

def readSpan? (levels : Nat) (v : Json) : Option Span :=
  (readPair? levels "start" "end" v).map fun (a, b) => ⟨a, b⟩

structure Parts where
  kind : Json
  literal : Option Json
  span : Option Json
  children : Option Json
  properties : Option Json

def parts? : Json → Option Parts
  | .object members => do
    let members ← namedMembers? members
    return {
      kind := ← requiredMember? "kind" members
      literal := ← member? "value" members
      span := ← member? "span" members
      children := ← member? "children" members
      properties := ← member? "properties" members }
  | .array (kind :: rest) =>
    if rest.length ≤ 4 then some ⟨kind, rest[0]?, rest[1]?, rest[2]?, rest[3]?⟩ else none
  | _ => none

/-- A part that may be left out. -/
def optional? {α : Type} (default : α) (read : Json → Option α) : Option Json → Option α
  | none => some default
  | some v => read v

mutual

/-- A document whose arrays and objects nest at most `levels` deep. -/
def read? : Nat → Json → Option Document
  | 0, _ => none
  | levels + 1, v => do
    let parts ← parts? v
    let kind ← readKind? levels parts.kind
    let literal ← optional? .none (readLiteral? levels) parts.literal
    let span ← optional? .detached (readSpan? levels) parts.span
    let children ← optional? [] (readChildren? levels) parts.children
    let properties ← optional? [] (readProperties? levels) parts.properties
    return .node kind literal span children properties

def readChildren? : Nat → Json → Option (List Document)
  | levels + 1, .array items => items.mapM (read? levels)
  | _, _ => none

def readProperties? : Nat → Json → Option (List (Document × Document))
  | levels + 1, .array items => items.mapM (readProperty? levels)
  | _, _ => none

/-- A property: an array of its name and its value. -/
def readProperty? : Nat → Json → Option (Document × Document)
  | levels + 1, .array [name, value] => do
    return (← read? levels name, ← read? levels value)
  | _, _ => none

end

def parse? (text : String) : Option Document := (Json.parse? text).bind (read? maxNesting)

/-! ### Writing -/

def textJson (s : String) : Json := .string (some s)

def numberJson (v : Int) : Json := .number (some v)

def memberJson (name : String) (v : Json) : Option String × Json := (some name, v)

def kindJson (kind : Kind) : Json := textJson kind.tag

def literalJson : Literal → Json
  | .none => textJson "none"
  | .integer v => .object [memberJson "integer" (numberJson v.toInt)]
  | .boolean b => .object [memberJson "boolean" (.bool b)]
  | .text s => .object [memberJson "text" (textJson s)]
  | .dimensions w h =>
    .object [memberJson "dimensions" (.object
      [memberJson "width" (numberJson w.toNat), memberJson "height" (numberJson h.toNat)])]

def spanJson (s : Span) : Json :=
  .object
    [memberJson "start" (numberJson s.start.toNat), memberJson "end" (numberJson s.stop.toNat)]

/-- A member that is an array, left out when it is empty. -/
def arrayMember (name : String) : List Json → List (Option String × Json)
  | [] => []
  | items => [memberJson name (.array items)]

mutual

def toJson : Document → Json
  | .node kind literal span children properties =>
    .object ([memberJson "kind" (kindJson kind), memberJson "value" (literalJson literal),
      memberJson "span" (spanJson span)] ++
        arrayMember "children" (childrenJson children) ++
        arrayMember "properties" (propertiesJson properties))

def childrenJson : List Document → List Json
  | [] => []
  | child :: children => toJson child :: childrenJson children

def propertiesJson : List (Document × Document) → List Json
  | [] => []
  | (name, value) :: properties => .array [toJson name, toJson value] :: propertiesJson properties

end

def render (d : Document) : String := d.toJson.render

end GridGame.Document
