import IdlTypings.Ts.Declaration

/-!
# Compiled modules

The classes of a compiled module live in a namespace of its name, next to helpers for its memory. A
function of the same name makes the module.
-/

namespace IdlTypings.Binder

open Ts (Declaration)

def defaultModuleName : String := "Module"

/-- The views of the memory, with the array types that they are. -/
def heapViews : List (String × String) :=
  [("HEAP8", "Int8Array"), ("HEAP16", "Int16Array"), ("HEAP32", "Int32Array"),
    ("HEAPU8", "Uint8Array"), ("HEAPU16", "Uint16Array"), ("HEAPU32", "Uint32Array"),
    ("HEAPF32", "Float32Array"), ("HEAPF64", "Float64Array")]

def helpers : List Declaration :=
  [.functionDecl "destroy" [.required "obj" .any] .void,
    .functionDecl "getPointer" [.required "obj" .any] .number,
    .functionDecl "compare" [.required "a" .any, .required "b" .any] (.name "boolean"),
    .functionDecl "_malloc" [.required "size" .number] .number,
    .functionDecl "_free" [.required "ptr" .number] .void] ++
  heapViews.map fun (name, array) => .variableDecl name (.name array) true

/-- The declarations, wrapped in the module `name`. -/
def wrapModule (name : String) (declarations : List Declaration) : List Declaration :=
  [.namespaceDecl name (declarations ++ helpers),
    .functionDecl name [] (.reference "Promise" [.typeQuery name])]

end IdlTypings.Binder
