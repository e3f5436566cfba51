import BcmServer.Util.Thrown

/-!
# BcmServer.Util.Json — JSON values and the conversions that throw

The values of `nlohmann::json` and the conversions the server makes of them.
`at` throws if there is no such key, `get` if the value has another type. What
is thrown is an `Except` error here; all of it is a `std::exception` there.
-/

namespace BcmServer.Util

/-- `nlohmann::json`; a floating-point number is given by its integer part, the
value that a conversion to an integer yields. -/
inductive Json where
  | null
  | boolean (b : Bool)
  | number (n : ℤ)
  | float (trunc : ℤ)
  | string (s : Bytes)
  | array (elems : List Json)
  | object (fields : List (String × Json))

/-- `nlohmann::json::exception` -/
inductive JsonError where
  | parseError
  | typeError
  | outOfRange (key : String)
deriving DecidableEq, Repr

namespace Json

/-- `find` -/
def find (j : Json) (key : String) : Option Json :=
  match j with
  | object fields => fields.lookup key
  | _ => none

/-- `at` -/
def at_ (j : Json) (key : String) : Except JsonError Json :=
  match j with
  | object fields =>
      match fields.lookup key with
      | some v => .ok v
      | none => .error (.outOfRange key)
  | _ => .error .typeError

/-- The numbers `get` of an arithmetic type accepts. -/
def integer : Json → Except JsonError ℤ
  | number n => .ok n
  | float n => .ok n
  | _ => .error .typeError

/-- `get<uint64_t>` -/
def getUInt64 (j : Json) : Except JsonError UInt64 := UInt64.ofInt <$> j.integer

/-- `get<int>`; a boolean is a number here. -/
def getInt (j : Json) : Except JsonError Int32 :=
  match j with
  | boolean b => .ok (if b then 1 else 0)
  | _ => Int32.ofInt <$> j.integer

/-- `get<std::string>` -/
def getString : Json → Except JsonError Bytes
  | string s => .ok s
  | _ => .error .typeError

/-- `get_to` a vector of strings -/
def getStrings : Json → Except JsonError (List Bytes)
  | array elems => elems.mapM getString
  | _ => .error .typeError

/-- What the iterators go over: the values of an object, and any other value
itself. -/
def elements : Json → List Json
  | null => []
  | array elems => elems
  | object fields => fields.map Prod.snd
  | j => [j]

/-- `get<uint32_t>`; a boolean is a number here. -/
def getUInt32 (j : Json) : Except JsonError UInt32 :=
  match j with
  | boolean b => .ok (if b then 1 else 0)
  | _ => UInt32.ofInt <$> j.integer

/-- `get_to` a vector, with the conversion of its elements -/
def getList {α : Type} (get : Json → Except JsonError α) : Json → Except JsonError (List α)
  | array elems => elems.mapM get
  | _ => .error .typeError

/-- `jsonable::toString` -/
def toString (j : Json) (key : String) : Except JsonError Bytes := do (← j.at_ key).getString

/-- `jsonable::toNumber`: a text is converted by `lexical_cast`. -/
def toNumber {α : Type} (get : Json → Except JsonError α) (cast : Bytes → Option α) (j : Json)
    (key : String) : Except JsonError α := do
  match ← j.at_ key with
  | string s => (cast s).elim (.error .typeError) .ok
  | value => get value

/-- `jsonable::toNumber` of an optional key, with the value it has where it is
missing -/
def toNumberOptional {α : Type} (get : Json → Except JsonError α) (cast : Bytes → Option α)
    (j : Json) (key : String) (dflt : α) : Except JsonError α :=
  match j.find key with
  | none | some null => .ok dflt
  | some _ => j.toNumber get cast key

/-- `jsonable::toGeneric` -/
def toGeneric {α : Type} (get : Json → Except JsonError α) (j : Json) (key : String) :
    Except JsonError α := do get (← j.at_ key)

/-- `jsonable::toString` of an optional key, empty where it is missing -/
def toStringOptional (j : Json) (key : String) : Except JsonError Bytes :=
  match j.find key with
  | none | some null => .ok []
  | some v => v.getString

end Json

end BcmServer.Util
