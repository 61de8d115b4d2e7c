import StakeLedger.Json.Parse
import StakeLedger.Identifier.Parse

/-!
# JSON forms of values

A `JsonForm` writes the values of a type as JSON and reads them back. A record is an object
with a member for each field; reading ignores members of other names, refuses a field that
is given twice, and also accepts the array of the fields in order.

* `Json.read?` reads a value from the bytes of a JSON text.
-/

namespace StakeLedger

/-- A JSON form of the values of a type. -/
class JsonForm (α : Type) where
  /-- The form of a value. -/
  toJson : α → Json
  /-- The value of a form. -/
  ofJson? : Json → Option α

export JsonForm (toJson ofJson?)

instance : JsonForm String := ⟨Json.ofString, Json.text?⟩

instance : JsonForm Bool where
  toJson := .bool
  ofJson?
    | .bool b => some b
    | _ => none

/-- A number of at most 64 bits is written in decimal. -/
instance : JsonForm UInt64 where
  toJson n := .ofNat n.toNat
  ofJson? j := j.nat?.bind fun n => if n < UInt64.size then some (UInt64.ofNat n) else none

instance : JsonForm UInt8 where
  toJson b := .ofNat b.toNat
  ofJson? j := j.nat?.bind fun n => if n < UInt8.size then some (UInt8.ofNat n) else none

/-- An identifier is a string, its text. -/
instance : JsonForm Identifier where
  toJson x := .ofString x.text
  ofJson? j := j.text?.bind fun s => (Identifier.parse s).toOption

/-- The missing value is `null`. -/
instance {α : Type} [JsonForm α] : JsonForm (Option α) where
  toJson
    | none => .null
    | some a => toJson a
  ofJson?
    | .null => some none
    | j => (ofJson? j).map some

instance {α : Type} [JsonForm α] : JsonForm (List α) where
  toJson as := .array (as.map toJson)
  ofJson?
    | .array items => items.mapM ofJson?
    | _ => none

namespace Json

/-- The value that a JSON text denotes. -/
def read? {α : Type} [JsonForm α] (input : Bytes) : Option α :=
  (parse input).bind ofJson?

/-! ## Records -/

/-- The names and values of an object's members, if all the names can be read. -/
def named? : List (Bytes × Json) → Option (List (String × Json))
  | [] => some []
  | (name, value) :: rest =>
    match bodyText? name, named? rest with
    | some name, some rest => some ((name, value) :: rest)
    | _, _ => none

/-- The value of a member, nothing if it is absent. A member given twice is refused. -/
def member? (members : List (String × Json)) (name : String) : Option (Option Json) :=
  match members.filter fun m => m.1 == name with
  | [] => some none
  | [m] => some (some m.2)
  | _ => none

/-- The values of a record's fields in order, nothing for an absent one. An array has to
give all the fields, or, if `short` allows it, the first ones. -/
def fields? (short : Bool) (names : List String) : Json → Option (List (Option Json))
  | .object members =>
    match named? members with
    | none => none
    | some members => names.mapM (member? members)
  | .array items =>
    if items.length = names.length ∨ (short ∧ items.length < names.length) then
      some (items.map some ++ List.replicate (names.length - items.length) none)
    else none
  | _ => none

/-- The value of a field that has to be present. -/
def required? {α : Type} [JsonForm α] (field : Option Json) : Option α :=
  field.bind ofJson?

/-- The value of a field that is `null` when it is absent. -/
def optional? {α : Type} [JsonForm α] : Option Json → Option (Option α)
  | none => some none
  | some j => ofJson? j

/-- The value of a field that has a default. -/
def orDefault? {α : Type} [JsonForm α] (default : α) : Option Json → Option α
  | none => some default
  | some j => ofJson? j

/-- Which of the given names a form is: the name as a string, or an object whose only member
has that name and is `null`. -/
def alternative? (names : List String) : Json → Option Nat
  | .string body => (bodyText? body).bind fun name => names.idxOf? name
  | .object [(name, .null)] => (bodyText? name).bind fun name => names.idxOf? name
  | _ => none

end Json

end StakeLedger
