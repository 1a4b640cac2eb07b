import Kcore.Text

/-!
# JSON values

`serde_json::Value`. A column that holds JSON text is kept as the value the text parses to. Numbers that are not
64-bit integers are opaque: every reader below rejects them.
-/

namespace Kcore

/-- `serde_json::Number`: an integer of the signed or unsigned 64-bit range, or a float by its text. -/
inductive Number where
  | int (n : Int)
  | float (text : String)

inductive Value where
  | null
  | bool (b : Bool)
  | number (n : Number)
  | string (s : String)
  | array (items : List Value)
  | object (fields : List (String × Value))

namespace Value

def get (v : Value) (key : String) : Option Value :=
  match v with
  | object fields => (fields.find? (fun f => f.1 = key)).map Prod.snd
  | _ => none

def isObject : Value → Bool
  | object _ => true
  | _ => false

def isNull : Value → Bool
  | null => true
  | _ => false

def asStr : Value → Option String
  | string s => some s
  | _ => none

def asBool : Value → Option Bool
  | bool b => some b
  | _ => none

def asI64 : Value → Option Int
  | number (.int n) => if fitsI64 n then some n else none
  | _ => none

def asArray : Value → Option (List Value)
  | array items => some items
  | _ => none

def str (v : Value) (key : String) : Option String := (v.get key).bind asStr

def i64 (v : Value) (key : String) : Option Int := (v.get key).bind asI64

def boolean (v : Value) (key : String) : Option Bool := (v.get key).bind asBool

def list (v : Value) (key : String) : Option (List Value) := (v.get key).bind asArray

/-- The texts of an array field, other items dropped; empty when the field is no array. -/
def strings (v : Value) (key : String) : List String := ((v.list key).getD []).filterMap asStr

end Value

def hexDigit (n : Nat) : Char := Char.ofNat (if n < 10 then 48 + n else 87 + n)

def escapeChar (c : Char) : String :=
  let n := c.toNat
  if n = 0x22 then "\\\""
  else if n = 0x5C then "\\\\"
  else if n = 0x08 then "\\b"
  else if n = 0x0C then "\\f"
  else if n = 0x0A then "\\n"
  else if n = 0x0D then "\\r"
  else if n = 0x09 then "\\t"
  else if n < 0x20 then String.ofList ['\\', 'u', '0', '0', hexDigit (n / 16), hexDigit (n % 16)]
  else String.ofList [c]

def quoteText (s : String) : String := "\"" ++ String.join (s.toList.map escapeChar) ++ "\""

mutual

/-- `serde_json::to_string`: the value without white space. -/
def Value.compact : Value → String
  | .null => "null"
  | .bool b => if b then "true" else "false"
  | .number (.int n) => toString n
  | .number (.float text) => text
  | .string s => quoteText s
  | .array items => "[" ++ ",".intercalate (compactItems items) ++ "]"
  | .object fields => "\x7b" ++ ",".intercalate (compactFields fields) ++ "\x7d"

def compactItems : List Value → List String
  | [] => []
  | v :: rest => v.compact :: compactItems rest

def compactFields : List (String × Value) → List String
  | [] => []
  | (key, v) :: rest => (quoteText key ++ ":" ++ v.compact) :: compactFields rest

end

/-- `json_as_compact_string`: a text as it is, anything else printed. -/
def jsonAsCompactString (v : Value) : String := v.asStr.getD v.compact

example : jsonAsCompactString (.array [.number (.int 80), .string "a\"b"]) = "[80,\"a\\\"b\"]" := by decide

end Kcore
