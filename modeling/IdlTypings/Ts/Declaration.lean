import IdlTypings.Ts.TypeExpr

/-!
# TypeScript declarations

The members of interfaces and classes, and what is declared at the top level or in a namespace.
-/

namespace IdlTypings.Ts

/-- `name` or `[expression]` -/
inductive MemberName where
  | identifier (name : String)
  | computed (expression : String)
  deriving DecidableEq, Repr

/-- `static readonly name?: type;` -/
structure Property where
  name : MemberName
  type : TypeExpr
  optional : Bool
  readonly : Bool
  static : Bool

/-- `static name(params): returns;` -/
structure Method where
  name : MemberName
  params : List Param
  returns : TypeExpr
  static : Bool

/-- `readonly [key: keyType]: valueType;` -/
structure IndexSignature where
  key : String
  keyType : TypeExpr
  valueType : TypeExpr
  readonly : Bool

/-- An interface says `new (params): returns;` where a class says `constructor(params);`. -/
inductive Member where
  | property (property : Property)
  | method (method : Method)
  | constructSignature (params : List Param) (returns : TypeExpr)
  | classConstructor (params : List Param)
  | index (signature : IndexSignature)

/-- The first base of a class is the one it extends, the others are implemented. -/
inductive Declaration where
  | interfaceDecl (name : String) (bases : List TypeExpr) (members : List Member)
  | classDecl (name : String) (bases : List TypeExpr) (members : List Member)
  | aliasDecl (name : String) (type : TypeExpr)
  | variableDecl (name : String) (type : TypeExpr) (const : Bool)
  | functionDecl (name : String) (params : List Param) (returns : TypeExpr)
  | namespaceDecl (name : String) (body : List Declaration)
  deriving Inhabited

inductive DeclarationKind where
  | interfaceKind
  | classKind
  | aliasKind
  | variableKind
  | functionKind
  | namespaceKind
  deriving DecidableEq, Repr

def DeclarationKind.label : DeclarationKind → String
  | .interfaceKind => "interface"
  | .classKind => "class"
  | .aliasKind => "type alias"
  | .variableKind => "variable"
  | .functionKind => "function"
  | .namespaceKind => "namespace"

/-- Every kind, in ascending order of the labels. -/
def DeclarationKind.all : List DeclarationKind :=
  [.classKind, .functionKind, .interfaceKind, .namespaceKind, .aliasKind, .variableKind]

def Declaration.kind : Declaration → DeclarationKind
  | .interfaceDecl .. => .interfaceKind
  | .classDecl .. => .classKind
  | .aliasDecl .. => .aliasKind
  | .variableDecl .. => .variableKind
  | .functionDecl .. => .functionKind
  | .namespaceDecl .. => .namespaceKind

def Declaration.name : Declaration → String
  | .interfaceDecl name _ _ => name
  | .classDecl name _ _ => name
  | .aliasDecl name _ => name
  | .variableDecl name _ _ => name
  | .functionDecl name _ _ => name
  | .namespaceDecl name _ => name

end IdlTypings.Ts
