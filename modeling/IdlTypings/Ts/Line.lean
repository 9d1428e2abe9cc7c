/-!
# Lines of a declaration file

A file is a list of lines, each blank or a content at some depth. Only the depth is written
according to the chosen indentation.
-/

namespace IdlTypings.Ts

structure PrintOptions where
  indentSize : Nat := 4
  useTabs : Bool := false
  header : Bool := true
  deriving DecidableEq, Repr, Inhabited

/-- The indentation of one level. -/
def PrintOptions.indent (options : PrintOptions) : String :=
  if options.useTabs then "\t" else String.ofList (List.replicate options.indentSize ' ')

inductive Line where
  | blank
  | content (depth : Nat) (text : String)
  deriving DecidableEq, Repr, Inhabited

def Line.render (indent : String) : Line → String
  | .blank => "\n"
  | .content depth text => String.join (List.replicate depth indent) ++ text ++ "\n"

def renderLines (indent : String) (lines : List Line) : String :=
  String.join (lines.map (Line.render indent))

end IdlTypings.Ts
