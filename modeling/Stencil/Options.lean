import Stencil.Formatter.Standard
import Stencil.Provider.Basic
import Stencil.Settings

/-!
Options: the settings of a template and what its host contributes, and the part
of both that decides what a render does.
-/

namespace Stencil

/-- Settings and what the host contributes. -/
structure Options where
  settings : Settings
  resolver : Option Resolver
  formatters : Registry
  /-- Partials that are not declared in the template. -/
  partials : String → Option Document
  providers : List Provider
  /-- Paths that find nothing are recorded. -/
  observes : Bool

/-- What the steps of a render depend on besides the items and the data. The
encoding, the size limit, the time limit and what is recorded are not in it. -/
structure Environment where
  resolver : Option Resolver
  formatters : Registry
  partials : String → Option Document
  providers : List Provider
  /-- What is written for null and for data that is absent. -/
  nullText : String
  partialDepth : Nat
  overflow : OverflowPolicy

namespace Options

def default : Options :=
  ⟨.default, none, .standard, fun _ => none, [], false⟩

/-- The environment of a render with these options. -/
def environment (options : Options) : Environment where
  resolver := options.resolver
  formatters := options.formatters
  partials := options.partials
  providers := options.providers
  nullText := options.settings.nullText
  partialDepth := options.settings.partialDepth
  overflow := options.settings.overflow

end Options

def Environment.provider? (env : Environment) (name : String) : Option Provider :=
  env.providers.find? (·.name == name)

end Stencil
