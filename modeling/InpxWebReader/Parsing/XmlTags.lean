import InpxWebReader.Foundation.Exception
import InpxWebReader.Parsing.Fb2Text

/-!
# Tags of an XML text

`findNextTagRange` finds a tag, past comments, character data sections, processing instructions
and declarations. Before a description is parsed, `analyzeCatalogXml` counts the nodes and
attributes of the parts that will be, with a scanner of its own: `addXmlFragmentShape` knows tags
and quotes and nothing else.
-/

namespace InpxWebReader.Parsing

open Foundation

/-! ### Finding tags -/

def matchesLocalName (qualifiedName localName : Bytes) : Bool :=
  match find (ascii ":") qualifiedName with
  | none => qualifiedName = localName
  | some separatorIndex => qualifiedName.drop (separatorIndex + 1) = localName

/-- `IsXmlNameChar`, with `std::isalnum` in the C locale. -/
def isXmlNameChar (value : UInt8) : Bool :=
  (asciiByte '0' ≤ value && value ≤ asciiByte '9') ||
    (asciiByte 'A' ≤ value && value ≤ asciiByte 'Z') ||
    (asciiByte 'a' ≤ value && value ≤ asciiByte 'z') ||
    value = asciiByte '_' || value = asciiByte '-' || value = asciiByte '.' ||
    value = asciiByte ':'

/-- `FindXmlDeclarationEnd`, counted from its start. -/
def findXmlDeclarationEnd (inSingleQuotedValue inDoubleQuotedValue : Bool) (bracketDepth : Nat) :
    Bytes → Option Nat
  | [] => none
  | value :: text =>
    if value = asciiByte '\'' ∧ inDoubleQuotedValue = false then
      (findXmlDeclarationEnd (!inSingleQuotedValue) inDoubleQuotedValue bracketDepth text).map
        (· + 1)
    else if value = asciiByte '"' ∧ inSingleQuotedValue = false then
      (findXmlDeclarationEnd inSingleQuotedValue (!inDoubleQuotedValue) bracketDepth text).map
        (· + 1)
    else if inSingleQuotedValue ∨ inDoubleQuotedValue then
      (findXmlDeclarationEnd inSingleQuotedValue inDoubleQuotedValue bracketDepth text).map (· + 1)
    else if value = asciiByte '[' then
      (findXmlDeclarationEnd inSingleQuotedValue inDoubleQuotedValue (bracketDepth + 1) text).map
        (· + 1)
    else if value = asciiByte ']' ∧ 0 < bracketDepth then
      (findXmlDeclarationEnd inSingleQuotedValue inDoubleQuotedValue (bracketDepth - 1) text).map
        (· + 1)
    else if value = asciiByte '>' ∧ bracketDepth = 0 then some 1
    else
      (findXmlDeclarationEnd inSingleQuotedValue inDoubleQuotedValue bracketDepth text).map (· + 1)

/-- `FindXmlTagEnd`, counted from its start. -/
def findXmlTagEnd (inSingleQuotedValue inDoubleQuotedValue : Bool) : Bytes → Option Nat
  | [] => none
  | value :: text =>
    if value = asciiByte '\'' ∧ inDoubleQuotedValue = false then
      (findXmlTagEnd (!inSingleQuotedValue) inDoubleQuotedValue text).map (· + 1)
    else if value = asciiByte '"' ∧ inSingleQuotedValue = false then
      (findXmlTagEnd inSingleQuotedValue (!inDoubleQuotedValue) text).map (· + 1)
    else if value = asciiByte '>' ∧ inSingleQuotedValue = false ∧ inDoubleQuotedValue = false then
      some 0
    else (findXmlTagEnd inSingleQuotedValue inDoubleQuotedValue text).map (· + 1)

structure XmlTagRange where
  start : Nat
  nameStart : Nat
  nameEnd : Nat
  stop : Nat
  deriving DecidableEq

/-- The range, counted from an earlier place. -/
def XmlTagRange.shift (offset : Nat) (range : XmlTagRange) : XmlTagRange where
  start := offset + range.start
  nameStart := offset + range.nameStart
  nameEnd := offset + range.nameEnd
  stop := offset + range.stop

/-- The loop of `FindNextTagRange` over the text that is left, which is all it looks at. Each turn
moves on, so the length of the text is fuel enough. -/
def findTagFrom (closingTag : Bool) (localName : Option Bytes) : Nat → Bytes → Option XmlTagRange
  | 0, _ => none
  | fuel + 1, text =>
    let goOn (current : Nat) : Option XmlTagRange :=
      (findTagFrom closingTag localName fuel (text.drop current)).map (XmlTagRange.shift current)
    match find (ascii "<") text with
    | none => none
    | some tagStart =>
      let rest := text.drop tagStart
      match rest[1]? with
      | none => none
      | some marker =>
        if (ascii "<!--").isPrefixOf rest then
          match find (ascii "-->") (rest.drop 4) with
          | none => none
          | some commentEnd => goOn (tagStart + 4 + commentEnd + 3)
        else if (ascii "<![CDATA[").isPrefixOf rest then
          match find (ascii "]]>") (rest.drop 9) with
          | none => none
          | some cdataEnd => goOn (tagStart + 9 + cdataEnd + 3)
        else if (ascii "<?").isPrefixOf rest then
          match find (ascii "?>") (rest.drop 2) with
          | none => none
          | some processingInstructionEnd => goOn (tagStart + 2 + processingInstructionEnd + 2)
        else if (ascii "<!").isPrefixOf rest then
          match findXmlDeclarationEnd false false 0 (rest.drop 2) with
          | none => none
          | some declarationEnd => goOn (tagStart + 2 + declarationEnd)
        else if (closingTag = false ∧ (marker = asciiByte '/' ∨ marker = asciiByte '?' ∨
            marker = asciiByte '!')) ∨ (closingTag = true ∧ marker ≠ asciiByte '/') then
          goOn (tagStart + 1)
        else
          let nameStart := tagStart + if closingTag then 2 else 1
          let qualifiedName := (text.drop nameStart).takeWhile isXmlNameChar
          let nameEnd := nameStart + qualifiedName.length
          if qualifiedName = [] then goOn (tagStart + 1)
          else if localName.any fun name => ¬matchesLocalName qualifiedName name then
            goOn (tagStart + 1)
          else
            match findXmlTagEnd false false (text.drop nameEnd) with
            | none => none
            | some tagEnd => some ⟨tagStart, nameStart, nameEnd, nameEnd + tagEnd⟩

def findNextTagRange (text : Bytes) (startOffset : Nat) (closingTag : Bool)
    (localName : Option Bytes) : Option XmlTagRange :=
  (findTagFrom closingTag localName (text.drop startOffset).length (text.drop startOffset)).map
    (XmlTagRange.shift startOffset)

structure DescriptionRange where
  rootOpenTag : XmlTagRange
  descriptionOpenTag : XmlTagRange
  descriptionCloseTag : XmlTagRange

def findDescriptionRange (text : Bytes) : Option DescriptionRange := do
  let rootOpenTag ← findNextTagRange text 0 false (ascii "FictionBook")
  let descOpenTag ← findNextTagRange text (rootOpenTag.stop + 1) false (ascii "description")
  let descCloseTag ← findNextTagRange text (descOpenTag.stop + 1) true (ascii "description")
  return ⟨rootOpenTag, descOpenTag, descCloseTag⟩

/-! ### The guard -/

structure MetadataXmlShape where
  bytes : Nat := 0
  nodes : Nat := 0
  attributes : Nat := 0
  deriving DecidableEq

/-- The variables of the loop of `AddXmlFragmentShape`. -/
structure ShapeScan where
  insideTag : Bool := false
  quote : Option UInt8 := none
  nodes : Nat
  attributes : Nat
  deriving DecidableEq

def ShapeScan.step (s : ShapeScan) (value : UInt8) : ShapeScan :=
  if s.insideTag = false then
    if value = asciiByte '<' then { s with insideTag := true, nodes := s.nodes + 1 } else s
  else
    match s.quote with
    | some quote => if value = quote then { s with quote := none } else s
    | none =>
      if value = asciiByte '\'' ∨ value = asciiByte '"' then { s with quote := some value }
      else if value = asciiByte '=' then { s with attributes := s.attributes + 1 }
      else if value = asciiByte '>' then { s with insideTag := false }
      else s

def addXmlFragmentShape (shape : MetadataXmlShape) (fragment : Bytes) : MetadataXmlShape :=
  let s := fragment.foldl ShapeScan.step
    { nodes := shape.nodes, attributes := shape.attributes }
  ⟨shape.bytes + fragment.length, s.nodes, s.attributes⟩

def slice (text : Bytes) (start stop : Nat) : Bytes := (text.drop start).take (stop + 1 - start)

/-- The parts of a text that are parsed: the opening tag of its root and its description, or all of
it. -/
def catalogFragments (text : Bytes) : List Bytes :=
  match findDescriptionRange text with
  | none => [text]
  | some range =>
    [slice text range.rootOpenTag.start range.rootOpenTag.stop,
      slice text range.descriptionOpenTag.start range.descriptionCloseTag.stop]

def analyzeCatalogXml (text : Bytes) : MetadataXmlShape :=
  let shape := (catalogFragments text).foldl addXmlFragmentShape {}
  match findDescriptionRange text with
  | none => shape
  | some range =>
    let rootNameBytes := range.rootOpenTag.nameEnd - range.rootOpenTag.nameStart
    { shape with bytes := shape.bytes + (rootNameBytes + 3), nodes := shape.nodes + 1 }

def maxFb2MetadataXmlBytes : Nat := 8 * 1024 * 1024
def maxFb2MetadataXmlNodes : Nat := 100000
def maxFb2MetadataXmlAttributes : Nat := 200000

def validateMetadataXmlShape (shape : MetadataXmlShape) (sourceLabel : Bytes) :
    Except Failure Unit :=
  let label := if sourceLabel = [] then ascii "<memory>" else sourceLabel
  if maxFb2MetadataXmlBytes < shape.bytes then
    .error (.standard (ascii "FB2 metadata XML from " ++ label ++ ascii " requires " ++
      decimal shape.bytes ++ ascii " bytes, exceeding the " ++ decimal maxFb2MetadataXmlBytes ++
      ascii " byte metadata limit."))
  else if maxFb2MetadataXmlNodes < shape.nodes then
    .error (.standard (ascii "FB2 metadata XML from " ++ label ++ ascii " has " ++
      decimal shape.nodes ++ ascii " structural nodes, exceeding the " ++
      decimal maxFb2MetadataXmlNodes ++ ascii " node limit."))
  else if maxFb2MetadataXmlAttributes < shape.attributes then
    .error (.standard (ascii "FB2 metadata XML from " ++ label ++ ascii " has " ++
      decimal shape.attributes ++ ascii " attributes, exceeding the " ++
      decimal maxFb2MetadataXmlAttributes ++ ascii " attribute limit."))
  else .ok ()

def buildDescriptionXml (text : Bytes) (range : DescriptionRange) : Bytes :=
  let rootQualifiedName := (text.drop range.rootOpenTag.nameStart).take
    (range.rootOpenTag.nameEnd - range.rootOpenTag.nameStart)
  let rootOpenTag := slice text range.rootOpenTag.start range.rootOpenTag.stop
  let description := slice text range.descriptionOpenTag.start range.descriptionCloseTag.stop
  rootOpenTag ++ description ++ ascii "</" ++ rootQualifiedName ++ ascii ">"

def parsedXml (text : Bytes) : Bytes :=
  match findDescriptionRange text with
  | none => text
  | some range => buildDescriptionXml text range

structure CatalogXmlDocument (Dom : Type) where
  document : Dom
  binarySearchOffset : Nat

/-- `ParseCatalogXml`. `loadBuffer` builds the document, or reports why it is none. -/
def parseCatalogXml {Dom : Type} (loadBuffer : Bytes → Except Failure Dom)
    (text sourceLabel : Bytes) : Except Failure (CatalogXmlDocument Dom) := do
  validateMetadataXmlShape (analyzeCatalogXml text) sourceLabel
  let document ← loadBuffer (parsedXml text)
  return ⟨document, (findDescriptionRange text).elim 0 (·.descriptionCloseTag.stop + 1)⟩

example : (findNextTagRange (ascii "<!-- <a> --></b><c d='>'/>") 0 false none).map
    (fun range => (range.start, range.stop)) = some (16, 25) := by decide +kernel

end InpxWebReader.Parsing
