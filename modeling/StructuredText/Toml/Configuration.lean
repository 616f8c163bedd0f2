import StructuredText.Settings
import StructuredText.Toml.Reader

set_option autoImplicit false

namespace StructuredText

namespace ConfigFile

open Toml

def tableAt? (table : Table) (key : String) : Option Table :=
  match table.lookup key with
  | none => some []
  | some (.table _ entries) => some entries
  | some _ => none

def stringAt? (table : Table) (key : String) : Option (Option String) :=
  match table.lookup key with
  | none => some none
  | some (.string text) => some (some text)
  | some _ => none

def booleanAt? (table : Table) (key : String) : Option (Option Bool) :=
  match table.lookup key with
  | none => some none
  | some (.boolean value) => some (some value)
  | some _ => none

-- Unknown keys are ignored. A known key of another type makes the whole table invalid.
def ofTable? (table : Table) : Option ConfigFile := do
  let defaults : PlcOpen.Options := {}
  let exported ← tableAt? table "export"
  let check ← tableAt? table "check"
  let companyName ← stringAt? exported "company_name"
  let productName ← stringAt? exported "product_name"
  let productVersion ← stringAt? exported "product_version"
  let projectName ← stringAt? exported "project_name"
  let nameSpace ← stringAt? exported "namespace"
  let indent ← stringAt? exported "indent"
  let failOnErrors ← booleanAt? check "fail_on_errors"
  return {
    exported := {
      companyName := companyName.getD defaults.companyName
      productName := productName.getD defaults.productName
      productVersion := productVersion.getD defaults.productVersion
      projectName
      nameSpace := nameSpace.getD defaults.nameSpace
      indent := indent.getD defaults.indent }
    failOnErrors }

def ofText? (text : String) : Option ConfigFile :=
  (Toml.parse? text.toList).bind ofTable?

end ConfigFile

def Settings.ofText (text : String) : Settings :=
  .ofFile (ConfigFile.ofText? text)

end StructuredText
