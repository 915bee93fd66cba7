import LnurlCash.Lib.Text

namespace LnurlCash

inductive Number where
  | posInt (value : UInt64)
  | negInt (value : Int64)
  | float (bits : UInt64)
  deriving DecidableEq, Repr

/-- A parsed JSON body. An object's keys are distinct. -/
inductive Value where
  | null
  | bool (value : Bool)
  | number (value : Number)
  | string (text : Str)
  | array (items : List Value)
  | object (fields : List (Str × Value))

namespace Value

def get? : Value → Str → Option Value
  | object fields, key => fields.lookup key
  | _, _ => none

def asStr? : Value → Option Str
  | string text => some text
  | _ => none

def asBool? : Value → Option Bool
  | bool value => some value
  | _ => none

def asU64? : Value → Option UInt64
  | number (.posInt value) => some value
  | _ => none

end Value

def asStr (body : Value) (key : Str) : Option Str := (body.get? key).bind Value.asStr?

def asU64 (body : Value) (key : Str) : Option UInt64 := (body.get? key).bind Value.asU64?

end LnurlCash
