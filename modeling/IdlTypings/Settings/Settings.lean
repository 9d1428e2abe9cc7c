import IdlTypings.Binder.ModuleScope
import IdlTypings.Command.Arguments
import IdlTypings.Conversion.Block
import IdlTypings.Settings.Config
import IdlTypings.Ts.Line

/-!
# Settings

What the command line and the configuration file say together. A flag that is set in either place is
set, and a module name on the command line comes before one in the file.
-/

namespace IdlTypings

open Command (Arguments)
open Settings (Config)

structure Settings where
  mode : Conversion.Mode
  moduleName : String
  print : Ts.PrintOptions
  report : Bool

def Settings.resolve (arguments : Arguments) (config : Config) : Settings where
  mode := if arguments.emscripten || config.emscripten then .runtime else .ambient
  moduleName :=
    (arguments.moduleName.or config.output.moduleName).getD Binder.defaultModuleName
  print :=
    { indentSize := config.output.indentSize.getD 4
      useTabs := config.output.useTabs.getD false
      header := !arguments.noHeader && config.output.header.getD true }
  report := arguments.report || config.output.report.getD false

end IdlTypings
