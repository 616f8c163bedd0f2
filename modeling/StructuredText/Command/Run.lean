import StructuredText.Command.Action
import StructuredText.Command.Arguments
import StructuredText.Toml.Configuration

set_option autoImplicit false

namespace StructuredText.Command

def usage : String :=
  unlines
    ["Usage: codefirst [OPTIONS] <COMMAND>",
      "",
      "Commands:",
      "  check FILE",
      "  outline FILE [--json]",
      "  parse FILE [--json]",
      "  export FILE [-o PATH] [--indent N] [--product-name NAME] [--force]"]

def Outcome.ofHalt : Halt → Outcome
  | .rejected => { exit := 2, stderr := usage }
  | .version => { stdout := "codefirst 0.4.0\n" }
  | .help => { stdout := usage }

-- The readers that the command runs with. What is proved of it holds for any other libraries too.
def installed : Libraries where
  request args := (Request.ofArgs args).mapError Outcome.ofHalt
  configuration? := ConfigFile.ofText?

def FileTree.run (tree : FileTree) (args : List String) : Outcome × FileTree :=
  (installed.run FileTree.fileSystem args).run tree

end StructuredText.Command
