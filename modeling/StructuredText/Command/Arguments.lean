import StructuredText.Command.Request
import StructuredText.Text.CharClass

set_option autoImplicit false

namespace StructuredText.Command

inductive Switch where
  | verbose
  | config
  | version
  | help
  | json
  | output
  | indent
  | productName
  | force
  deriving DecidableEq

-- An unsigned number of 64 bits. A plus sign may stand in front of it.
def unsigned? (text : String) : Option Nat :=
  let digits :=
    match text.toList with
    | '+' :: rest => rest
    | s => s
  if digits.isEmpty || !digits.all Char.isDigit then none
  else
    let n := digits.foldl (fun n c => 10 * n + (c.toNat - 48)) 0
    if n ≤ 0xFFFFFFFFFFFFFFFF then some n else none

namespace Switch

def long : Switch → String
  | verbose => "verbose"
  | config => "config"
  | version => "version"
  | help => "help"
  | json => "json"
  | output => "output"
  | indent => "indent"
  | productName => "product-name"
  | force => "force"

def short? : Switch → Option Char
  | verbose => some 'v'
  | version => some 'V'
  | help => some 'h'
  | output => some 'o'
  | config | json | indent | productName | force => none

def takesValue : Switch → Bool
  | config | output | indent | productName => true
  | verbose | version | help | json | force => false

def accepts (value : String) : Switch → Bool
  | config | output => value != ""
  | indent => (unsigned? value).isSome
  | _ => true

end Switch

inductive Halt where
  | rejected
  | version
  | help
  deriving DecidableEq

structure Given where
  values : List (Switch × String) := []
  operands : List String := []

namespace Given

def has (given : Given) (switch : Switch) : Bool :=
  (given.values.lookup switch).isSome

def add (given : Given) (switch : Switch) (value : String) : Except Halt Given :=
  match switch with
  | .version => .error .version
  | .help => .error .help
  | _ =>
    if given.has switch || !switch.accepts value then .error .rejected
    else .ok { given with values := given.values ++ [(switch, value)] }

end Given

def isSwitch (arg : List Char) : Bool :=
  arg.head? == some '-' && arg != ['-']

-- Switches written together behind one dash. One that takes a value takes the rest, without an
-- equals sign in front of it; the result names it where nothing is left.
def readCluster (allowed : List Switch) : List Char → Given → Except Halt (Given × Option Switch)
  | [], given => .ok (given, none)
  | c :: rest, given =>
    match allowed.find? fun switch => switch.short? == some c with
    | none => .error .rejected
    | some switch =>
      if switch.takesValue then
        match rest with
        | [] => .ok (given, some switch)
        | '=' :: value => (given.add switch (String.ofList value)).map fun given => (given, none)
        | value => (given.add switch (String.ofList value)).map fun given => (given, none)
      else (given.add switch "").bind (readCluster allowed rest)

def readLong (allowed : List Switch) (text : List Char) (given : Given) :
    Except Halt (Given × Option Switch) :=
  let name := String.ofList (text.takeWhile (· != '='))
  match allowed.find? (fun switch => switch.long == name), text.dropWhile (· != '=') with
  | none, _ => .error .rejected
  | some switch, [] =>
    if switch.takesValue then .ok (given, some switch)
    else (given.add switch "").map fun given => (given, none)
  | some switch, _ :: value =>
    if switch.takesValue then
      (given.add switch (String.ofList value)).map fun given => (given, none)
    else .error .rejected

-- Reads the arguments of one level. The leading level ends at its first operand, which names the
-- command. A value in an argument of its own must not look like a switch.
def readLevel (allowed : List Switch) (leading : Bool) :
    List String → Given → Except Halt (Given × List String)
  | [], given => .ok (given, [])
  | arg :: rest, given =>
    if arg = "--" then
      if leading then .error .rejected
      else .ok ({ given with operands := given.operands ++ rest }, [])
    else if isSwitch arg.toList then
      let read :=
        match arg.toList with
        | '-' :: '-' :: text => readLong allowed text given
        | text => readCluster allowed (text.drop 1) given
      match read, rest with
      | .error halt, _ => .error halt
      | .ok (given, none), rest => readLevel allowed leading rest given
      | .ok (_, some _), [] => .error .rejected
      | .ok (given, some switch), value :: rest =>
        if isSwitch value.toList then .error .rejected
        else
          match given.add switch value with
          | .ok given => readLevel allowed leading rest given
          | .error halt => .error halt
    else if leading then .ok (given, arg :: rest)
    else readLevel allowed leading rest { given with operands := given.operands ++ [arg] }

inductive Verb where
  | check
  | outline
  | parse
  | toXml
  | help
  deriving DecidableEq

namespace Verb

def all : List Verb :=
  [check, outline, parse, toXml, help]

def name : Verb → String
  | check => "check"
  | outline => "outline"
  | parse => "parse"
  | toXml => "export"
  | help => "help"

def ofText? (text : String) : Option Verb :=
  match all.filter fun verb => text.toList.isPrefixOf verb.name.toList with
  | [verb] => some verb
  | _ => none

def allowed : Verb → List Switch
  | check => [.verbose, .config, .help]
  | outline | parse => [.verbose, .config, .help, .json]
  | toXml => [.verbose, .config, .help, .output, .indent, .productName, .force]
  | help => []

end Verb

def action? (given : Given) : Verb → Option Action
  | .check => some .check
  | .outline => some (.outline (given.has .json))
  | .parse => some (.parse (given.has .json))
  | .toXml => some <| .toXml {
      output := given.values.lookup .output
      indent := (given.values.lookup .indent).bind unsigned?
      productName := given.values.lookup .productName
      force := given.has .force }
  | .help => none

-- Reads a command line. Of two configurations the one behind the command counts.
def Request.ofArgs (args : List String) : Except Halt Request := do
  let (outer, rest) ← readLevel [.verbose, .config, .version, .help] true args {}
  let name :: rest := rest | throw .rejected
  let some verb := Verb.ofText? name | throw .rejected
  let (inner, _) ← readLevel verb.allowed false rest {}
  let some action := action? inner verb | throw .help
  let [file] := inner.operands | throw .rejected
  if file = "" then throw .rejected
  return {
    action, file
    config := (inner.values.lookup .config).or (outer.values.lookup .config) }

end StructuredText.Command
