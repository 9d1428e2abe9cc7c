/-!
# Built-in names

The TypeScript names of the types and generics that every interface definition may use. Any other
name is a reference to a definition and stays as it is.
-/

namespace IdlTypings.Conversion

def bufferNames : List String :=
  ["ArrayBuffer", "SharedArrayBuffer", "ArrayBufferView", "BufferSource", "DataView", "Int8Array",
    "Int16Array", "Int32Array", "Uint8Array", "Uint16Array", "Uint32Array", "Uint8ClampedArray",
    "BigInt64Array", "BigUint64Array", "Float32Array", "Float64Array"]

def numericNames : List String :=
  ["byte", "octet", "short", "unsigned short", "long", "unsigned long", "long long",
    "unsigned long long", "float", "unrestricted float", "double", "unrestricted double"]

def textualNames : List String := ["ByteString", "DOMString", "USVString"]

def voidNames : List String := ["void", "undefined"]

def sharedNames : List String :=
  ["any", "boolean", "Date", "Function", "Promise", "object", "symbol", "bigint"]

/-- The names of generics that change. -/
def genericNames : List (String × String) :=
  [("sequence", "Array"), ("ObservableArray", "Array"), ("record", "Record"),
    ("FrozenArray", "ReadonlyArray")]

def builtinNames : List (String × String) :=
  (bufferNames ++ sharedNames).map (fun name => (name, name)) ++
    numericNames.map (·, "number") ++ textualNames.map (·, "string") ++
    voidNames.map (·, "void") ++ genericNames

def builtinName? (name : String) : Option String :=
  builtinNames.lookup name

def resolve (name : String) : String :=
  (builtinName? name).getD name

/-- What a resolved name stands for. -/
inductive NameClass where
  | numeric
  | textual
  | void
  | reference
  deriving DecidableEq, Repr

def NameClass.of (resolved : String) : NameClass :=
  if resolved = "number" then .numeric
  else if resolved = "string" then .textual
  else if resolved = "void" then .void
  else .reference

end IdlTypings.Conversion
