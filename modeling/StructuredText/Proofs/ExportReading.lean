import StructuredText.PlcOpen.Export
import StructuredText.Proofs.MarkupReading

set_option autoImplicit false

namespace StructuredText.PlcOpen

open Reader

structure ExportedVariable where
  name : String
  type : String
  initialValue : Option String
  documentation : Option String
  deriving DecidableEq

structure ExportedPou where
  name : String
  type : String
  returnType : Option String
  -- The variables of each scope that has any.
  groups : List (Scope × List ExportedVariable)
  body : String
  deriving DecidableEq

structure Contents where
  nameSpace : String
  companyName : String
  productName : String
  productVersion : String
  projectName : String
  pous : List ExportedPou
  deriving DecidableEq

section Reading

def Node.element? : Node → Option Element
  | .char _ => none
  | .element e => some e

def Node.char? : Node → Option Char
  | .char c => some c
  | .element _ => none

def elements (nodes : List Node) : List Element :=
  nodes.filterMap Node.element?

namespace Element

def text (e : Element) : String :=
  String.ofList (e.children.filterMap Node.char?)

def attribute? (e : Element) (name : String) : Option String :=
  e.attributes.lookup name

def optionalText? (e : Element) (name : String) : Option (Option String) :=
  match (elements e.children).filter (·.name == name) with
  | [] => some none
  | [child] => some (some child.text)
  | _ => none

end Element

def only? (nodes : List Node) (name : String) : Option Element :=
  match (elements nodes).filter (·.name == name) with
  | [e] => some e
  | _ => none

def ExportedVariable.read? (e : Element) : Option ExportedVariable := do
  let name ← e.attribute? "name"
  let type ← only? e.children "type"
  let initialValue ← e.optionalText? "initialValue"
  let documentation ← e.optionalText? "documentation"
  if e.name = "variable" then some { name, type := type.text, initialValue, documentation }
  else none

def readGroup? (e : Element) : Option (Scope × List ExportedVariable) := do
  let scope ← Scope.all.find? (groupTag · == e.name)
  let vars ← (elements e.children).mapM ExportedVariable.read?
  some (scope, vars)

def ExportedPou.read? (e : Element) : Option ExportedPou := do
  let name ← e.attribute? "name"
  let type ← e.attribute? "pouType"
  let interface ← only? e.children "interface"
  let returnType ← interface.optionalText? "returnType"
  let groups ← ((elements interface.children).filter (·.name != "returnType")).mapM readGroup?
  let body ← only? e.children "body"
  let language ← only? body.children "ST"
  let text ← only? language.children "xhtml"
  if e.name = "pou" then some { name, type, returnType, groups, body := text.text } else none

def Contents.read? (nodes : List Node) : Option Contents := do
  let project ← only? nodes "project"
  let nameSpace ← project.attribute? "xmlns"
  let file ← only? project.children "fileHeader"
  let companyName ← file.attribute? "companyName"
  let productName ← file.attribute? "productName"
  let productVersion ← file.attribute? "productVersion"
  let content ← only? project.children "contentHeader"
  let projectName ← content.attribute? "name"
  let types ← only? project.children "types"
  let pous ← only? types.children "pous"
  let pous ← (elements pous.children).mapM ExportedPou.read?
  some { nameSpace, companyName, productName, productVersion, projectName, pous }

end Reading

section Expected

def ExportedVariable.of (v : Variable) : ExportedVariable where
  name := v.name
  type := v.type
  initialValue := v.initialValue
  documentation := v.comment

def groupOf (vars : List Variable) (scope : Scope) : Option (Scope × List ExportedVariable) :=
  match vars.filter fun v => v.scope = scope with
  | [] => none
  | members => some (scope, members.map .of)

def groupsOf (vars : List Variable) : List (Scope × List ExportedVariable) :=
  Scope.all.filterMap (groupOf vars)

def Contents.of (document : Document) (options : Options) : Contents where
  nameSpace := options.nameSpace
  companyName := options.companyName
  productName := options.productName
  productVersion := options.productVersion
  projectName := options.projectName.getD "project"
  pous :=
    (document.functionBlocks.map fun block =>
      { name := block.name, type := "functionBlock", returnType := none,
        groups := groupsOf block.vars, body := unlines (block.lines options.indent) }) ++
    (document.programs.map fun program =>
      { name := program.name, type := "program", returnType := none,
        groups := groupsOf program.vars
        body := renderStatements program.body.statements 0 options.indent }) ++
    document.functions.map fun function =>
      { name := function.name, type := "function", returnType := function.returnType,
        groups := groupsOf (function.parameters ++ function.locals)
        body := renderStatements function.body.statements 0 options.indent }

end Expected

section Tree

def chars (s : String) : List Node :=
  s.toList.map .char

def leaf (name text : String) : Element :=
  ⟨name, [], chars text⟩

def row (depth : Nat) (e : Element) : List Node :=
  chars (padding depth "  ") ++ .element e :: chars "\n"

def container (depth : Nat) (name : String) (attributes : List (String × String))
    (rows : List Node) : Element :=
  ⟨name, attributes, chars "\n" ++ rows ++ chars (padding depth "  ")⟩

def variableElement (v : Variable) : Element :=
  container 6 "variable" [("name", v.name)]
    (row 7 (leaf "type" v.type) ++
      (v.initialValue.map fun value => row 7 (leaf "initialValue" value)).getD [] ++
      (v.comment.map fun comment => row 7 (leaf "documentation" comment)).getD [])

def groupRows (vars : List Variable) (scope : Scope) : List Node :=
  match vars.filter fun v => v.scope = scope with
  | [] => []
  | members => row 5 (container 5 (groupTag scope) [] (members.flatMap fun v =>
      row 6 (variableElement v)))

def interfaceElement (entry : Entry) : Element :=
  if entry.returnType.isNone && entry.vars.isEmpty then ⟨"interface", [], []⟩
  else
    container 4 "interface" []
      ((entry.returnType.map fun type => row 5 (leaf "returnType" type)).getD [] ++
        Scope.all.flatMap (groupRows entry.vars))

def bodyElement (text : String) : Element :=
  container 4 "body" [] (row 5 (container 5 "ST" [] (row 6
    ⟨"xhtml", [("xmlns", "http://www.w3.org/1999/xhtml")], chars text⟩)))

def entryElement (entry : Entry) : Element :=
  container 3 "pou" [("name", entry.name), ("pouType", entry.type)]
    (row 4 (interfaceElement entry) ++ row 4 (bodyElement entry.body))

def scalingRow (language : String) : List Node :=
  row 3 ⟨language, [], [.element ⟨"scaling", [("x", "1"), ("y", "1")], []⟩]⟩

def contentHeaderElement (name : String) : Element :=
  container 1 "contentHeader" [("name", name)]
    (row 2 (container 2 "coordinateInfo" []
      (scalingRow "fbd" ++ scalingRow "ld" ++ scalingRow "sfc")))

def typesElement (entries : List Entry) : Element :=
  container 1 "types" []
    (row 2 ⟨"dataTypes", [], []⟩ ++
      row 2 (container 2 "pous" [] (entries.flatMap fun entry => row 3 (entryElement entry))))

def fileHeaderElement (options : Options) : Element :=
  ⟨"fileHeader", [("companyName", options.companyName), ("productName", options.productName),
    ("productVersion", options.productVersion)], []⟩

def projectElement (document : Document) (options : Options) : Element :=
  container 0 "project" [("xmlns", options.nameSpace)]
    (row 1 (fileHeaderElement options) ++
      row 1 (contentHeaderElement (options.projectName.getD "project")) ++
      row 1 (typesElement (entries document options.indent)) ++
      row 1 (container 1 "instances" [] (row 2 ⟨"configurations", [], []⟩)))

def exportTree (document : Document) (options : Options) : List Node :=
  chars "\n" ++ row 0 (projectElement document options)

end Tree

section Written

@[simp] theorem nodeTokens_append (before after : List Node) :
    nodeTokens (before ++ after) = nodeTokens before ++ nodeTokens after := by
  induction before with
  | nil => rfl
  | cons node before ih => simp [nodeTokens, ih]

@[simp] theorem nodeTokens_chars (s : String) : nodeTokens (chars s) = s.toList.map .char := by
  rw [chars]
  induction s.toList with
  | nil => rfl
  | cons c s ih => simp [nodeTokens, Node.tokens, ih]

def Shows (lines : List String) (nodes : List Node) : Prop :=
  StandsFor (unlines lines).toList (nodeTokens nodes)

theorem standsFor_padding (depth : Nat) :
    StandsFor (padding depth "  ").toList ((padding depth "  ").toList.map .char) := by
  refine standsFor_plain fun c member => ?_
  simp only [padding, String.toList_join, List.mem_flatMap, List.mem_replicate] at member
  obtain ⟨_, ⟨-, rfl⟩, member⟩ := member
  obtain rfl : c = ' ' := by simpa using member
  decide

theorem standsFor_newline : StandsFor "\n".toList ("\n".toList.map .char) :=
  standsFor_plain (by simp)

theorem standsFor_element {name : String} {attributes : List (String × String)} {s : List Char}
    {children : List Node} (isName : IsTagName name)
    (areNames : ∀ pair ∈ attributes, IsTagName pair.1)
    (inside : StandsFor s (nodeTokens children)) :
    StandsFor ((tagStart name attributes ++ ">").toList ++ s ++ ("</" ++ name ++ ">").toList)
      (Element.tokens ⟨name, attributes, children⟩) := by
  have whole := ((standsFor_opening isName areNames).append inside).append
    (standsFor_closing isName)
  simpa [Element.tokens] using whole

theorem standsFor_leaf {name : String} (isName : IsTagName name) (text : String) :
    StandsFor (textElement name text).toList (leaf name text).tokens := by
  have inside := standsFor_escapeText text
  rw [← nodeTokens_chars] at inside
  have shape : (textElement name text).toList =
      (tagStart name [] ++ ">").toList ++ (escapeText text).toList ++
        ("</" ++ name ++ ">").toList := by
    simp [textElement, tagStart, attributeTexts]
  rw [shape]
  exact standsFor_element isName (by simp) inside

theorem standsFor_childless (name : String) (attributes : List (String × String))
    (isName : IsTagName name) (areNames : ∀ pair ∈ attributes, IsTagName pair.1) :
    StandsFor (tagStart name attributes ++ "/>").toList
      (Element.tokens ⟨name, attributes, []⟩) :=
  standsFor_empty isName areNames

namespace Shows

theorem nil : Shows [] [] := StandsFor.nil

theorem append {one other : List String} {before after : List Node} (first : Shows one before)
    (second : Shows other after) : Shows (one ++ other) (before ++ after) := by
  have whole := StandsFor.append first second
  simpa [Shows, unlines, String.toList_join] using whole

theorem flatMap {α : Type} {lines : α → List String} {nodes : α → List Node}
    (each : ∀ a, Shows (lines a) (nodes a)) (items : List α) :
    Shows (items.flatMap lines) (items.flatMap nodes) := by
  induction items with
  | nil => exact nil
  | cons a items ih => exact (each a).append ih

theorem row {depth : Nat} {line text : String} {e : Element}
    (shape : line = padding depth "  " ++ text) (stands : StandsFor text.toList e.tokens) :
    Shows [line] (row depth e) := by
  have whole := ((standsFor_padding depth).append stands).append standsFor_newline
  simpa [Shows, unlines, PlcOpen.row, nodeTokens, Node.tokens, shape, String.toList_join]
    using whole

theorem container {depth : Nat} {name opening closing : String}
    {attributes : List (String × String)} {lines : List String} {rows : List Node}
    (isName : IsTagName name) (areNames : ∀ pair ∈ attributes, IsTagName pair.1)
    (opens : opening = padding depth "  " ++ (tagStart name attributes ++ ">"))
    (closes : closing = padding depth "  " ++ ("</" ++ name ++ ">")) (inside : Shows lines rows) :
    Shows (opening :: lines ++ [closing])
      (PlcOpen.row depth (container depth name attributes rows)) := by
  have before := ((standsFor_padding depth).append (standsFor_opening isName areNames)).append
    standsFor_newline
  have after := ((standsFor_padding depth).append (standsFor_closing isName)).append
    standsFor_newline
  have whole := (before.append inside).append after
  simpa [Shows, unlines, PlcOpen.row, PlcOpen.container, nodeTokens, Node.tokens, Element.tokens,
    opens, closes, String.toList_join] using whole

theorem bareContainer {lines : List String} {rows : List Node} (inside : Shows lines rows)
    (depth : Nat) (name opening closing : String) (isName : IsTagName name)
    (opens : opening = padding depth "  " ++ (tagStart name [] ++ ">"))
    (closes : closing = padding depth "  " ++ ("</" ++ name ++ ">")) :
    Shows (opening :: lines ++ [closing])
      (PlcOpen.row depth (PlcOpen.container depth name [] rows)) :=
  inside.container isName (by simp) opens closes

end Shows

theorem groupTag_isTagName (scope : Scope) : IsTagName (groupTag scope) := by
  cases scope <;> decide

theorem shows_leaf {depth : Nat} {name spaces : String} (isName : IsTagName name) (text : String)
    (shape : spaces = padding depth "  ") :
    Shows [spaces ++ textElement name text] (row depth (leaf name text)) :=
  .row (by rw [shape]) (standsFor_leaf isName text)

theorem shows_optional (depth : Nat) (name spaces : String) (isName : IsTagName name)
    (value : Option String) (shape : spaces = padding depth "  ") :
    Shows (value.map fun text => spaces ++ textElement name text).toList
      ((value.map fun text => row depth (leaf name text)).getD []) := by
  cases value with
  | none => exact .nil
  | some text => exact shows_leaf isName text shape

theorem shows_variable (v : Variable) :
    Shows (variableLines v) (row 6 (variableElement v)) := by
  have opens : "            <variable" ++ attr "name" v.name ++ ">" =
      padding 6 "  " ++ (tagStart "variable" [("name", v.name)] ++ ">") := by
    apply String.toList_inj.mp
    simp [padding, tagStart, attributeTexts]
  have type : Shows ["              " ++ textElement "type" v.type] (row 7 (leaf "type" v.type)) :=
    shows_leaf (by decide) v.type (by decide)
  have values := shows_optional 7 "initialValue" "              " (by decide) v.initialValue
    (by decide)
  have comments := shows_optional 7 "documentation" "              " (by decide) v.comment
    (by decide)
  exact ((type.append values).append comments).container (by decide) (by simp; decide) opens
    (by decide)

theorem shows_group (vars : List Variable) (scope : Scope) :
    Shows (groupLines vars scope) (groupRows vars scope) := by
  simp only [groupLines, groupRows]
  cases vars.filter fun v => v.scope = scope with
  | nil => exact .nil
  | cons v members =>
    refine (Shows.flatMap shows_variable (v :: members)).container (groupTag_isTagName scope)
      (by simp) ?_ ?_
    · apply String.toList_inj.mp
      simp [padding, tagStart, attributeTexts]
    · apply String.toList_inj.mp
      simp [padding]

theorem shows_interface (entry : Entry) :
    Shows (interfaceLines entry) (row 4 (interfaceElement entry)) := by
  simp only [interfaceLines, interfaceElement]
  split
  · exact .row (by decide) (standsFor_childless "interface" [] (by decide) (by simp))
  · have returnType := shows_optional 5 "returnType" "          " (by decide) entry.returnType
      (by decide)
    exact (returnType.append (Shows.flatMap (shows_group entry.vars) Scope.all)).container
      (by decide) (by simp) (by decide) (by decide)

theorem shows_body (text : String) :
    Shows
      ["        <body>",
        "          <ST>",
        "            <xhtml" ++ attr "xmlns" "http://www.w3.org/1999/xhtml" ++ ">" ++ cdata text ++
          "</xhtml>",
        "          </ST>",
        "        </body>"]
      (row 4 (bodyElement text)) := by
  have inside := standsFor_cdata text
  rw [← nodeTokens_chars] at inside
  have shape : "            <xhtml" ++ attr "xmlns" "http://www.w3.org/1999/xhtml" ++ ">" ++
        cdata text ++ "</xhtml>" =
      padding 6 "  " ++ String.ofList
        ((tagStart "xhtml" [("xmlns", "http://www.w3.org/1999/xhtml")] ++ ">").toList ++
          (cdata text).toList ++ ("</" ++ "xhtml" ++ ">").toList) := by
    apply String.toList_inj.mp
    simp [padding, tagStart, attributeTexts]
  have xhtml := Shows.row shape (by
    rw [String.toList_ofList]
    exact standsFor_element (by decide) (by decide) inside)
  have language := xhtml.bareContainer 5 "ST" "          <ST>" "          </ST>" (by decide)
    (by decide) (by decide)
  have whole := language.bareContainer 4 "body" "        <body>" "        </body>" (by decide)
    (by decide) (by decide)
  simpa only [bodyElement, List.cons_append, List.nil_append] using whole

theorem shows_entry (entry : Entry) : Shows (entryLines entry) (row 3 (entryElement entry)) := by
  have opens : "      <pou" ++ attr "name" entry.name ++ attr "pouType" entry.type ++ ">" =
      padding 3 "  " ++
        (tagStart "pou" [("name", entry.name), ("pouType", entry.type)] ++ ">") := by
    apply String.toList_inj.mp
    simp [padding, tagStart, attributeTexts]
  have closes : "      </pou>" = padding 3 "  " ++ ("</" ++ "pou" ++ ">") := by decide
  have whole := ((shows_interface entry).append (shows_body entry.body)).container (by decide)
    (by simp; decide) opens closes
  simpa [entryLines, entryElement] using whole

theorem shows_scaling (language : String) (isName : IsTagName language) :
    Shows ["      <" ++ language ++ "><scaling x=\x221\x22 y=\x221\x22/></" ++ language ++ ">"]
      (scalingRow language) := by
  have scaling := standsFor_childless "scaling" [("x", "1"), ("y", "1")] (by decide) (by decide)
  have shape : "      <" ++ language ++ "><scaling x=\x221\x22 y=\x221\x22/></" ++ language ++ ">" =
      padding 3 "  " ++ String.ofList ((tagStart language [] ++ ">").toList ++
        (tagStart "scaling" [("x", "1"), ("y", "1")] ++ "/>").toList ++
          ("</" ++ language ++ ">").toList) := by
    apply String.toList_inj.mp
    simp [padding, tagStart, attributeTexts, attr, toList_escapeAttribute, escapeAttributeChar,
      escapeTextChar]
  refine .row shape ?_
  rw [String.toList_ofList]
  refine standsFor_element isName (by simp) ?_
  simpa [nodeTokens, Node.tokens] using scaling

theorem shows_contentHeader (name : String) :
    Shows
      (["  <contentHeader" ++ attr "name" name ++ ">", "    <coordinateInfo>"] ++
        (["fbd", "ld", "sfc"].map fun language =>
          "      <" ++ language ++ "><scaling x=\x221\x22 y=\x221\x22/></" ++ language ++ ">") ++
        ["    </coordinateInfo>", "  </contentHeader>"])
      (row 1 (contentHeaderElement name)) := by
  have opens : "  <contentHeader" ++ attr "name" name ++ ">" =
      padding 1 "  " ++ (tagStart "contentHeader" [("name", name)] ++ ">") := by
    apply String.toList_inj.mp
    simp [padding, tagStart, attributeTexts]
  have closes : "  </contentHeader>" = padding 1 "  " ++ ("</" ++ "contentHeader" ++ ">") := by
    decide
  have scalings := ((shows_scaling "fbd" (by decide)).append
    (shows_scaling "ld" (by decide))).append (shows_scaling "sfc" (by decide))
  have coordinates := scalings.bareContainer 2 "coordinateInfo" "    <coordinateInfo>"
    "    </coordinateInfo>" (by decide) (by decide) (by decide)
  have whole := coordinates.container (by decide) (by simp; decide) opens closes
  simpa only [contentHeaderElement, List.map_cons, List.map_nil, List.cons_append,
    List.nil_append] using whole

theorem shows_types (list : List Entry) :
    Shows
      (["  <types>", "    <dataTypes/>", "    <pous>"] ++ list.flatMap entryLines ++
        ["    </pous>", "  </types>"])
      (row 1 (typesElement list)) := by
  have dataTypes : Shows ["    <dataTypes/>"] (row 2 ⟨"dataTypes", [], []⟩) :=
    .row (by decide) (standsFor_childless _ _ (by decide) (by simp))
  have pous := (Shows.flatMap shows_entry list).bareContainer 2 "pous" "    <pous>" "    </pous>"
    (by decide) (by decide) (by decide)
  have whole := (dataTypes.append pous).bareContainer 1 "types" "  <types>" "  </types>" (by decide)
    (by decide) (by decide)
  simpa [typesElement] using whole

def projectLines (document : Document) (options : Options) : List String :=
  (headerLines options).tail ++ (entries document options.indent).flatMap entryLines ++ footerLines

theorem shows_project (document : Document) (options : Options) :
    Shows (projectLines document options) (row 0 (projectElement document options)) := by
  have opens : "<project" ++ attr "xmlns" options.nameSpace ++ ">" =
      padding 0 "  " ++ (tagStart "project" [("xmlns", options.nameSpace)] ++ ">") := by
    apply String.toList_inj.mp
    simp [padding, tagStart, attributeTexts]
  have closes : "</project>" = padding 0 "  " ++ ("</" ++ "project" ++ ">") := by decide
  have file : Shows
      ["  <fileHeader" ++ attr "companyName" options.companyName ++
        attr "productName" options.productName ++
        attr "productVersion" options.productVersion ++ "/>"]
      (row 1 (fileHeaderElement options)) := by
    refine .row ?_ (standsFor_childless _ _ (by decide) (by simp; decide))
    apply String.toList_inj.mp
    simp [padding, tagStart, attributeTexts]
  have configurations : Shows ["    <configurations/>"] (row 2 ⟨"configurations", [], []⟩) :=
    .row (by decide) (standsFor_childless _ _ (by decide) (by simp))
  have instances := configurations.bareContainer 1 "instances" "  <instances>" "  </instances>"
    (by decide) (by decide) (by decide)
  have whole := (((file.append (shows_contentHeader (options.projectName.getD "project"))).append
    (shows_types (entries document options.indent))).append instances).container (by decide)
    (by simp; decide) opens closes
  simpa [projectLines, headerLines, footerLines, projectElement] using whole

theorem withoutDeclaration?_append (rest : List Char) :
    withoutDeclaration? ("<?xml version=\x221.0\x22 encoding=\x22utf-8\x22?>".toList ++ rest) =
      some rest := by
  have shape : "<?xml version=\x221.0\x22 encoding=\x22utf-8\x22?>".toList ++ rest =
      "<?xml".toList ++ (" version=\x221.0\x22 encoding=\x22utf-8\x22".toList.flatMap ([·]) ++
        ("?>".toList ++ rest)) := by
    simp
  have reads : readUntil (literal "?>") anyChar?
      (" version=\x221.0\x22 encoding=\x22utf-8\x22".toList.flatMap ([·]) ++
        ("?>".toList ++ rest)) =
        some (" version=\x221.0\x22 encoding=\x22utf-8\x22".toList, rest) :=
    readUntil_flatMap (literal_append "?>" rest) (by simp [literal]) (fun _ _ _ => rfl) (by simp)
  rw [shape, withoutDeclaration?]
  simp only [Option.bind_eq_bind, literal_append, Option.bind_some, reads]

theorem readMarkup?_toXml (document : Document) (options : Options) :
    readMarkup? (toXml document options).toList = some (exportTree document options) := by
  have shape : (toXml document options).toList =
      "<?xml version=\x221.0\x22 encoding=\x22utf-8\x22?>".toList ++
        ("\n".toList ++ (unlines (projectLines document options)).toList) := by
    simp [toXml, projectLines, headerLines, unlines, String.toList_join]
  rw [shape]
  refine readMarkup?_eq_some (withoutDeclaration?_append _) ?_
  have whole := standsFor_newline.append (shows_project document options)
  simpa [exportTree] using whole

end Written

section Found

@[simp] theorem elements_nil : elements [] = [] := rfl

@[simp] theorem elements_append (before after : List Node) :
    elements (before ++ after) = elements before ++ elements after :=
  List.filterMap_append

@[simp] theorem elements_chars (s : String) : elements (chars s) = [] := by
  simp [elements, chars, Node.element?]

@[simp] theorem elements_cons (e : Element) (rest : List Node) :
    elements (.element e :: rest) = e :: elements rest := rfl

@[simp] theorem elements_row (depth : Nat) (e : Element) : elements (row depth e) = [e] := by
  simp [row]

@[simp] theorem container_name (depth : Nat) (name : String) (attributes : List (String × String))
    (rows : List Node) : (container depth name attributes rows).name = name := rfl

@[simp] theorem container_attributes (depth : Nat) (name : String)
    (attributes : List (String × String)) (rows : List Node) :
    (container depth name attributes rows).attributes = attributes := rfl

@[simp] theorem elements_container (depth : Nat) (name : String)
    (attributes : List (String × String)) (rows : List Node) :
    elements (container depth name attributes rows).children = elements rows := by
  simp [container]

@[simp] theorem elements_flatMap {α : Type} (rows : α → List Node) (items : List α) :
    elements (items.flatMap rows) = items.flatMap fun a => elements (rows a) := by
  induction items with
  | nil => rfl
  | cons a items ih => simp [ih]

@[simp] theorem text_chars (name : String) (attributes : List (String × String)) (s : String) :
    Element.text ⟨name, attributes, chars s⟩ = s := by
  simp [Element.text, chars, List.filterMap_map, Function.comp_def, Node.char?]

theorem mapM_map {α β γ : Type} {read : β → Option γ} {write : α → β} {found : α → γ}
    (each : ∀ a, read (write a) = some (found a)) (items : List α) :
    (items.map write).mapM read = some (items.map found) := by
  induction items with
  | nil => rfl
  | cons a items ih => simp [each, ih]

theorem read?_variableElement (v : Variable) :
    ExportedVariable.read? (variableElement v) = some (.of v) := by
  obtain ⟨name, type, scope, initialValue, comment, line⟩ := v
  cases initialValue <;> cases comment <;>
    simp [ExportedVariable.read?, variableElement, Element.attribute?, only?,
      Element.optionalText?, ExportedVariable.of, leaf]

theorem find?_groupTag (scope : Scope) :
    Scope.all.find? (groupTag · == groupTag scope) = some scope := by
  cases scope <;> decide

theorem mapM_groupRows (vars : List Variable) (scope : Scope) :
    (elements (groupRows vars scope)).mapM readGroup? = some (groupOf vars scope).toList := by
  simp only [groupRows, groupOf]
  cases vars.filter fun v => v.scope = scope with
  | nil => rfl
  | cons v others =>
    have reads := mapM_map read?_variableElement (v :: others)
    rw [List.map_eq_flatMap] at reads
    simp only [elements_row, List.mapM_cons, List.mapM_nil, readGroup?, container_name,
      find?_groupTag, elements_container, elements_flatMap, reads]
    rfl

theorem mapM_groups (vars : List Variable) (scopes : List Scope) :
    (elements (scopes.flatMap (groupRows vars))).mapM readGroup? =
      some (scopes.filterMap (groupOf vars)) := by
  induction scopes with
  | nil => rfl
  | cons scope scopes ih =>
    rw [List.flatMap_cons, elements_append, List.mapM_append, ih, mapM_groupRows]
    cases isGroup : groupOf vars scope <;> simp [isGroup]

theorem name_ne_returnType {vars : List Variable} {scopes : List Scope} {e : Element}
    (member : e ∈ elements (scopes.flatMap (groupRows vars))) : e.name ≠ "returnType" := by
  rw [elements_flatMap] at member
  obtain ⟨scope, -, isGroup⟩ := List.mem_flatMap.mp member
  simp only [groupRows] at isGroup
  split at isGroup
  · cases isGroup
  · obtain rfl : e = _ := by simpa using isGroup
    rw [container_name]
    cases scope <;> decide

theorem interfaceElement_name (entry : Entry) : (interfaceElement entry).name = "interface" := by
  unfold interfaceElement
  split <;> rfl

theorem interfaceElement_children (entry : Entry) :
    elements (interfaceElement entry).children =
      (entry.returnType.map (leaf "returnType")).toList ++
        elements (Scope.all.flatMap (groupRows entry.vars)) := by
  unfold interfaceElement
  split
  · rename_i nothing
    simp only [Bool.and_eq_true, Option.isNone_iff_eq_none, List.isEmpty_iff] at nothing
    rw [nothing.1, nothing.2]
    rfl
  · rw [elements_container, elements_append]
    cases entry.returnType <;> simp

theorem optionalText?_interface (entry : Entry) :
    (interfaceElement entry).optionalText? "returnType" = some entry.returnType := by
  have others : (elements (Scope.all.flatMap (groupRows entry.vars))).filter
      (·.name == "returnType") = [] := by
    rw [List.filter_eq_nil_iff]
    intro e member
    simpa using name_ne_returnType member
  rw [Element.optionalText?, interfaceElement_children, List.filter_append, others]
  cases entry.returnType <;> simp [leaf]

theorem mapM_interface (entry : Entry) :
    ((elements (interfaceElement entry).children).filter (·.name != "returnType")).mapM readGroup? =
      some (groupsOf entry.vars) := by
  have others : (elements (Scope.all.flatMap (groupRows entry.vars))).filter
      (·.name != "returnType") = elements (Scope.all.flatMap (groupRows entry.vars)) := by
    rw [List.filter_eq_self]
    intro e member
    simpa using name_ne_returnType member
  have dropped : (entry.returnType.map (leaf "returnType")).toList.filter
      (·.name != "returnType") = [] := by
    cases entry.returnType <;> simp [leaf]
  rw [interfaceElement_children, List.filter_append, others, dropped, List.nil_append, mapM_groups]
  rfl

def Entry.exported (entry : Entry) : ExportedPou :=
  ⟨entry.name, entry.type, entry.returnType, groupsOf entry.vars, entry.body⟩

theorem read?_entryElement (entry : Entry) :
    ExportedPou.read? (entryElement entry) = some entry.exported := by
  have groups := mapM_interface entry
  have returnType := optionalText?_interface entry
  have name := interfaceElement_name entry
  simp [ExportedPou.read?, entryElement, bodyElement, Element.attribute?, List.lookup_cons, only?,
    name, returnType, groups, Entry.exported]

theorem pous_of (document : Document) (options : Options) :
    (Contents.of document options).pous =
      (entries document options.indent).map Entry.exported := by
  simp [Contents.of, entries, Entry.exported, Function.comp_def, Entry.ofFunctionBlock,
    Entry.ofProgram, Entry.ofFunction]

theorem elements_projectElement (document : Document) (options : Options) :
    elements (projectElement document options).children =
      [fileHeaderElement options, contentHeaderElement (options.projectName.getD "project"),
        typesElement (entries document options.indent),
        container 1 "instances" [] (row 2 ⟨"configurations", [], []⟩)] := by
  simp [projectElement]

theorem read?_exportTree (document : Document) (options : Options) :
    Contents.read? (exportTree document options) = some (.of document options) := by
  have pous := mapM_map read?_entryElement (entries document options.indent)
  rw [List.map_eq_flatMap, ← pous_of] at pous
  have project : only? (exportTree document options) "project" =
      some (projectElement document options) := by
    simp [only?, exportTree, projectElement]
  -- The elements of the project are found by their names.
  have file : only? (projectElement document options).children "fileHeader" =
      some (fileHeaderElement options) := by
    rw [only?, elements_projectElement]
    rfl
  have content : only? (projectElement document options).children "contentHeader" =
      some (contentHeaderElement (options.projectName.getD "project")) := by
    rw [only?, elements_projectElement]
    rfl
  have types : only? (projectElement document options).children "types" =
      some (typesElement (entries document options.indent)) := by
    rw [only?, elements_projectElement]
    rfl
  have listed : only? (typesElement (entries document options.indent)).children "pous" =
      some (container 2 "pous" []
        ((entries document options.indent).flatMap fun entry => row 3 (entryElement entry))) := by
    simp [only?, typesElement]
  have entryElements : elements (container 2 "pous" [] ((entries document options.indent).flatMap
      fun entry => row 3 (entryElement entry))).children =
        (entries document options.indent).flatMap fun entry => [entryElement entry] := by
    simp
  rw [Contents.read?, project]
  simp only [Option.bind_eq_bind, Option.bind_some, file, content, types, listed, entryElements,
    pous]
  rfl

end Found

theorem read_toXml (document : Document) (options : Options) :
    readMarkup? (toXml document options).toList = some (exportTree document options) ∧
      (readMarkup? (toXml document options).toList).bind Contents.read? =
        some (.of document options) := by
  have tree := readMarkup?_toXml document options
  exact ⟨tree, by rw [tree, Option.bind_some, read?_exportTree]⟩

end StructuredText.PlcOpen
