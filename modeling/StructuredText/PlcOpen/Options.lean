
set_option autoImplicit false

namespace StructuredText.PlcOpen

structure Options where
  companyName : String := ""
  productName : String := "PLC Code-First Editor"
  productVersion : String := "1.0"
  projectName : Option String := none
  nameSpace : String := "http://www.plcopen.org/xml/tc6_0201"
  -- Written once for each nesting level.
  indent : String := "  "
  deriving DecidableEq

end StructuredText.PlcOpen
