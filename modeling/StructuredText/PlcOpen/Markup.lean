
set_option autoImplicit false

namespace StructuredText.PlcOpen

def replaceChar (old : Char) (new : String) (s : List Char) : List Char :=
  s.flatMap fun c => if c = old then new.toList else [c]

-- One replacement after the other. Ampersands come first, since all entities begin with one.
def replaceAll (replacements : List (Char × String)) (s : List Char) : List Char :=
  replacements.foldl (fun s (old, new) => replaceChar old new s) s

def textReplacements : List (Char × String) :=
  [('&', "&amp;"), ('<', "&lt;"), ('>', "&gt;")]

def attributeReplacements : List (Char × String) :=
  [('&', "&amp;"), ('\x22', "&quot;"), ('<', "&lt;"), ('>', "&gt;"), ('\x27', "&apos;")]

def escapeText (s : String) : String :=
  String.ofList (replaceAll textReplacements s.toList)

def escapeAttribute (s : String) : String :=
  String.ofList (replaceAll attributeReplacements s.toList)

-- A section cannot hold its own end mark, so the mark is spread over two sections.
def splitCdata : List Char → List Char
  | [] => []
  | ']' :: ']' :: '>' :: rest => "]]]]><![CDATA[>".toList ++ splitCdata rest
  | c :: rest => c :: splitCdata rest

def cdata (s : String) : String :=
  "<![CDATA[" ++ String.ofList (splitCdata s.toList) ++ "]]>"

def attr (name value : String) : String :=
  " " ++ name ++ "=\x22" ++ escapeAttribute value ++ "\x22"

def textElement (name text : String) : String :=
  "<" ++ name ++ ">" ++ escapeText text ++ "</" ++ name ++ ">"

end StructuredText.PlcOpen
