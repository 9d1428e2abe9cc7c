/-!
# TOML values

Tables keep their keys in the order in which they were first written.
-/

namespace IdlTypings.Toml

inductive Value where
  | string (value : String)
  | integer (value : Int)
  | float (value : Float)
  | boolean (value : Bool)
  | datetime (text : String)
  | array (items : List Value)
  | table (entries : List (String × Value))
  deriving Inhabited

end IdlTypings.Toml
