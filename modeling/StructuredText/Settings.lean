import StructuredText.PlcOpen.Options

set_option autoImplicit false

namespace StructuredText

/-- What a configuration says. Only what it leaves out has a default. -/
structure ConfigFile where
  exported : PlcOpen.Options := {}
  failOnErrors : Option Bool := none
  deriving DecidableEq

structure Settings where
  options : PlcOpen.Options := {}
  failOnErrors : Bool := true
  deriving DecidableEq

namespace Settings

-- A configuration that cannot be read gives the defaults for all of it.
def ofFile : Option ConfigFile → Settings
  | none => {}
  | some file => { options := file.exported, failOnErrors := file.failOnErrors.getD true }

end Settings

end StructuredText
