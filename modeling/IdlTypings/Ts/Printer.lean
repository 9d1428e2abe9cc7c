import IdlTypings.Ts.Declaration
import IdlTypings.Ts.Line
import IdlTypings.Ts.TypeText

/-!
# Declaration files

The lines of declarations. Declarations are separated by blank lines, and what has a body closes it
on a line of its own. Inside a namespace the word `declare` is left out.
-/

namespace IdlTypings.Ts

def MemberName.text : MemberName → String
  | .identifier name => name
  | .computed expression => "[" ++ expression ++ "]"

def wordIf (present : Bool) (word : String) : String :=
  if present then word else ""

def Property.text (p : Property) : String :=
  wordIf p.static "static " ++ wordIf p.readonly "readonly " ++ p.name.text ++
    wordIf p.optional "?" ++ ": " ++ p.type.text

def Method.text (m : Method) : String :=
  wordIf m.static "static " ++ m.name.text ++ "(" ++ paramsText m.params ++ "): " ++
    m.returns.text

def IndexSignature.text (s : IndexSignature) : String :=
  wordIf s.readonly "readonly " ++ "[" ++ s.key ++ ": " ++ s.keyType.text ++ "]: " ++
    s.valueType.text

def Member.text : Member → String
  | .property p => p.text ++ ";"
  | .method m => m.text ++ ";"
  | .constructSignature params returns =>
      "new (" ++ paramsText params ++ "): " ++ returns.text ++ ";"
  | .classConstructor params => "constructor(" ++ paramsText params ++ ");"
  | .index signature => signature.text ++ ";"

/-- A head line with the lines of its body, which are one level deeper. -/
def bodyLines (depth : Nat) (head : String) (body : List Line) : List Line :=
  if body.isEmpty then [.content depth (head ++ " \x7b\x7d")]
  else .content depth (head ++ " \x7b") :: body ++ [.content depth "\x7d"]

def memberLines (depth : Nat) (members : List Member) : List Line :=
  members.map fun member => .content (depth + 1) member.text

def interfaceHead (name : String) (bases : List TypeExpr) : String :=
  "interface " ++ name ++ if bases.isEmpty then "" else " extends " ++ typesText bases

def classHead (name : String) : List TypeExpr → String
  | [] => "class " ++ name
  | [base] => "class " ++ name ++ " extends " ++ base.text
  | base :: others =>
      "class " ++ name ++ " extends " ++ base.text ++ " implements " ++ typesText others

def declareWord (nested : Bool) : String :=
  wordIf (!nested) "declare "

mutual

def Declaration.lines (nested : Bool) (depth : Nat) : Declaration → List Line
  | .interfaceDecl name bases members =>
      bodyLines depth (interfaceHead name bases) (memberLines depth members)
  | .classDecl name bases members =>
      bodyLines depth (declareWord nested ++ classHead name bases) (memberLines depth members)
  | .aliasDecl name type => [.content depth ("type " ++ name ++ " = " ++ type.text ++ ";")]
  | .variableDecl name type const =>
      [.content depth (declareWord nested ++ (if const then "const " else "var ") ++ name ++ ": " ++
        type.text ++ ";")]
  | .functionDecl name params returns =>
      [.content depth (declareWord nested ++ "function " ++ name ++ "(" ++ paramsText params ++
        "): " ++ returns.text ++ ";")]
  | .namespaceDecl name body =>
      bodyLines depth (declareWord nested ++ "namespace " ++ name)
        (Declaration.listLines true (depth + 1) body)
termination_by structural declaration => declaration

def Declaration.listLines (nested : Bool) (depth : Nat) : List Declaration → List Line
  | [] => []
  | declaration :: rest =>
      declaration.lines nested depth ++ Declaration.linesAfter nested depth rest
termination_by structural declarations => declarations

/-- The lines of declarations that follow another one. -/
def Declaration.linesAfter (nested : Bool) (depth : Nat) : List Declaration → List Line
  | [] => []
  | declaration :: rest =>
      .blank :: declaration.lines nested depth ++ Declaration.linesAfter nested depth rest
termination_by structural declarations => declarations

end

def headerText : String := "// Auto-generated from WebIDL"

def headerLines (declarations : List Declaration) : List Line :=
  .content 0 headerText :: if declarations.isEmpty then [] else [.blank]

/-- The text of a declaration file. -/
def print (options : PrintOptions) (declarations : List Declaration) : String :=
  renderLines options.indent
    ((if options.header then headerLines declarations else []) ++
      Declaration.listLines false 0 declarations)

end IdlTypings.Ts
