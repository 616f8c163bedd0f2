set_option autoImplicit false

namespace StructuredText.Command

structure ExportRequest where
  output : Option String
  indent : Option Nat
  productName : Option String
  force : Bool
  deriving DecidableEq

inductive Action where
  | check
  | outline (json : Bool)
  | parse (json : Bool)
  | toXml (request : ExportRequest)
  deriving DecidableEq

structure Request where
  action : Action
  file : String
  config : Option String
  deriving DecidableEq

end StructuredText.Command
