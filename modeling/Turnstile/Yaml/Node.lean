import Turnstile.Yaml.Tag
import Turnstile.Yaml.TokenStream

/-! Each document of a stream is a tree of nodes. An alias stands for the node that last took
its anchor, in the same document or in an earlier one. Comments are skipped and not kept with
the nodes. -/
namespace Turnstile

namespace Yaml

/-- A node starts on a line, counted from 1, and has a tag in its short form. -/
inductive Node where
  | scalar (line : Nat) (tag : Text) (value : Text)
  | sequence (line : Nat) (tag : Text) (items : List Node)
  | mapping (line : Nat) (tag : Text) (entries : List (Node × Node))
  | aliased (line : Nat) (name : Text) (target : Node)
  /-- What an alias inside of a collection stands for if it names the collection. -/
  | enclosing (line : Nat) (tag : Text) (isMapping : Bool)
  deriving Repr

namespace Node

def line : Node → Nat
  | scalar line .. | sequence line .. | mapping line .. | aliased line .. | enclosing line .. => line

def empty (line : Nat) : Node :=
  scalar (line + 1) Tag.null.label []

end Node

structure Reader where
  scanner : Scanner
  /-- What the anchors stand for, the last one first. -/
  anchors : List (Text × Node) := []
  handles : List (Text × Text) := []
  /-- A bound on the steps of reading, which exceeds twice the number of tokens. -/
  bound : Nat
  deriving Repr

abbrev Read := StateT Reader (Except Problem)

namespace Reader

def peek : Read Token := do
  let r ← get
  let (token, scanner) ← r.scanner.peek
  set { r with scanner := scanner }
  return token

def lexeme : Read Lexeme := do
  return (← peek).lexeme

def skip : Read Unit :=
  modify fun r => { r with scanner := r.scanner.skip }

def fail (what : Text) : Read α := do
  throw ⟨some (← peek).line, what⟩

def bind (anchor : Option Text) (node : Node) : Read Unit :=
  match anchor with
  | some name => modify fun r => { r with anchors := (name, node) :: r.anchors }
  | none => return

/-- Lets an anchor stand for a collection that is complete now, unless it was taken since. -/
def complete (anchor : Option Text) (node : Node) : Read Unit := do
  match anchor with
  | none => return
  | some name =>
    match (← get).anchors.lookup name with
    | some (.enclosing ..) => bind anchor node
    | _ => return

structure Properties where
  line : Nat
  anchor : Option Text := none
  tag : Option (Text × Text) := none

def properties : Read Properties := do
  let token ← peek
  match token.lexeme with
  | .anchor name =>
    skip
    match ← lexeme with
    | .tag handle suffix =>
      skip
      return ⟨token.line, some name, some (handle, suffix)⟩
    | _ => return ⟨token.line, some name, none⟩
  | .tag handle suffix =>
    skip
    match ← lexeme with
    | .anchor name =>
      skip
      return ⟨token.line, some name, some (handle, suffix)⟩
    | _ => return ⟨token.line, none, some (handle, suffix)⟩
  | _ => return { line := token.line }

def tagText : Option (Text × Text) → Read Text
  | none => return []
  | some ([], suffix) => return suffix
  | some (handle, suffix) => do
    match (← get).handles.lookup handle with
    | some root => return root ++ suffix
    | none => fail "found undefined tag handle"

def tagOr (written default : Text) : Text :=
  if written.isEmpty ∨ written = "!" then default else shortTag written

def defaultTag (style : Style) (value : Text) : Text :=
  if style ≠ .plain then Tag.str.label
  else if value = "<<" then Tag.merge.label
  else (Tag.ofText value).label

def startsEntry (lexeme : Lexeme) : Bool :=
  lexeme = .key || lexeme = .value || lexeme = .blockEnd

/-- Reads the items of a sequence. Its anchor stands for it while they are read. -/
def sequence (given : Properties) (written : Text) (items : Read (List Node)) : Read Node := do
  let line := given.line + 1
  let tag := tagOr written "!!seq"
  bind given.anchor (.enclosing line tag false)
  let result := Node.sequence line tag (← items).reverse
  complete given.anchor result
  return result

/-- Reads the entries of a mapping. Its anchor stands for it while they are read. -/
def mapping (given : Properties) (written : Text) (entries : Read (List (Node × Node))) :
    Read Node := do
  let line := given.line + 1
  let tag := tagOr written "!!map"
  bind given.anchor (.enclosing line tag true)
  let result := Node.mapping line tag (← entries).reverse
  complete given.anchor result
  return result

mutual

/-- Reads a node. `block` allows block collections, `indentless` a sequence whose entries
stand at the column of the mapping around it. -/
def node (block indentless : Bool) : Nat → Read Node
  | 0 => fail "did not find expected node content"
  | fuel + 1 => do
    let token ← peek
    match token.lexeme with
    | .aliased name =>
      match (← get).anchors.lookup name with
      | some target =>
        skip
        return .aliased (token.line + 1) name target
      | none => throw ⟨none, "unknown anchor '" ++ name ++ "' referenced"⟩
    | _ =>
      let given ← properties
      let written ← tagText given.tag
      match ← lexeme with
      | .scalar style value =>
        skip
        let result := Node.scalar (given.line + 1) (tagOr written (defaultTag style value)) value
        bind given.anchor result
        return result
      | .flowSequenceStart =>
        skip
        sequence given written (flowSequence true fuel [])
      | .flowMappingStart =>
        skip
        mapping given written (flowMapping true fuel [])
      | lexeme =>
        if indentless && lexeme = .blockEntry then
          sequence given written (indentlessSequence fuel [])
        else if block && lexeme = .blockSequenceStart then
          skip
          sequence given written (blockSequence fuel [])
        else if block && lexeme = .blockMappingStart then
          skip
          mapping given written (blockMapping fuel [])
        else if given.anchor.isSome || !written.isEmpty then
          let result := Node.scalar (given.line + 1) (tagOr written Tag.null.label) []
          bind given.anchor result
          return result
        else fail "did not find expected node content"

/-- Reads the items of a block sequence after those in `items`, the last first. -/
def blockSequence : Nat → List Node → Read (List Node)
  | 0, _ => fail "did not find expected '-' indicator"
  | fuel + 1, items => do
    let token ← peek
    match token.lexeme with
    | .blockEntry =>
      skip
      let next ← lexeme
      let item ←
        if next = .blockEntry ∨ next = .blockEnd then pure (Node.empty token.line)
        else node true false fuel
      blockSequence fuel (item :: items)
    | .blockEnd =>
      skip
      return items
    | _ => fail "did not find expected '-' indicator"

def indentlessSequence : Nat → List Node → Read (List Node)
  | 0, _ => fail "did not find expected '-' indicator"
  | fuel + 1, items => do
    let token ← peek
    match token.lexeme with
    | .blockEntry =>
      skip
      let next ← lexeme
      let item ←
        if next = .blockEntry ∨ startsEntry next then pure (Node.empty token.line)
        else node true false fuel
      indentlessSequence fuel (item :: items)
    | _ => return items

/-- Reads the value of an entry, of which nothing may be written. -/
def entryValue (block : Bool) (ends : Lexeme → Bool) : Nat → Read Node
  | 0 => fail "did not find expected value"
  | fuel + 1 => do
    let token ← peek
    if token.lexeme ≠ .value then return Node.empty token.line
    skip
    let next ← peek
    if ends next.lexeme then return Node.empty (if block then token.line else next.line)
    else node block block fuel

def blockMapping : Nat → List (Node × Node) → Read (List (Node × Node))
  | 0, _ => fail "did not find expected key"
  | fuel + 1, entries => do
    let token ← peek
    match token.lexeme with
    | .key =>
      skip
      let key ←
        if startsEntry (← lexeme) then pure (Node.empty token.line) else node true true fuel
      let value ← entryValue true startsEntry fuel
      blockMapping fuel ((key, value) :: entries)
    | .blockEnd =>
      skip
      return entries
    | _ => fail "did not find expected key"

def flowSequence (first : Bool) : Nat → List Node → Read (List Node)
  | 0, _ => fail "did not find expected ',' or ']'"
  | fuel + 1, items => do
    let start ← lexeme
    if start ≠ .flowSequenceEnd ∧ !first then
      if start ≠ .flowEntry then fail "did not find expected ',' or ']'"
      skip
    let token ← peek
    match token.lexeme with
    | .flowSequenceEnd =>
      skip
      return items
    | .key =>
      skip
      let ends (lexeme : Lexeme) : Bool := lexeme = .flowEntry || lexeme = .flowSequenceEnd
      let next ← peek
      let key ←
        if next.lexeme = .value ∨ ends next.lexeme then do
          skip
          pure (Node.empty next.line)
        else node false false fuel
      let value ← entryValue false ends fuel
      flowSequence false fuel (.mapping (token.line + 1) "!!map" [(key, value)] :: items)
    | _ =>
      let item ← node false false fuel
      flowSequence false fuel (item :: items)

def flowMapping (first : Bool) : Nat → List (Node × Node) → Read (List (Node × Node))
  | 0, _ => fail "did not find expected ',' or '\x7d'"
  | fuel + 1, entries => do
    let start ← lexeme
    if start ≠ .flowMappingEnd ∧ !first then
      if start ≠ .flowEntry then fail "did not find expected ',' or '\x7d'"
      skip
    match ← lexeme with
    | .flowMappingEnd =>
      skip
      return entries
    | .key =>
      skip
      let ends (lexeme : Lexeme) : Bool := lexeme = .flowEntry || lexeme = .flowMappingEnd
      let next ← peek
      let key ←
        if next.lexeme = .value ∨ ends next.lexeme then pure (Node.empty next.line)
        else node false false fuel
      let value ← entryValue false ends fuel
      flowMapping false fuel ((key, value) :: entries)
    | _ =>
      let key ← node false false fuel
      flowMapping false fuel ((key, Node.empty (← peek).line) :: entries)

end

def directives (version : Bool) : Nat → Read Unit
  | 0 => return
  | fuel + 1 => do
    match ← lexeme with
    | .version major minor =>
      if version then fail "found duplicate %YAML directive"
      else if major ≠ 1 ∨ minor ≠ 1 then fail "found incompatible YAML document"
      else
        skip
        directives true fuel
    | .handle handle root =>
      if ((← get).handles.lookup handle).isSome then fail "found duplicate %TAG directive"
      else
        modify fun r => { r with handles := r.handles ++ [(handle, root)] }
        skip
        directives version fuel
    | _ => return

def standardHandles : List (Text × Text) :=
  [("!", "!"), ("!!", "tag:yaml.org,2002:")]

/-- Reads what ends a document, and forgets its handles. -/
def documentEnd : Read Unit := do
  if (← lexeme) = .documentEnd then skip
  modify fun r => { r with handles := [] }

def content : Read Node := do
  modify fun r => { r with handles := r.handles ++ standardHandles }
  let node ← node true false (← get).bound
  documentEnd
  return node

def explicitDocument : Read Node := do
  directives false (← get).bound
  if (← lexeme) ≠ .documentStart then fail "did not find expected <document start>"
  else
    skip
    let token ← peek
    match token.lexeme with
    | .version .. | .handle .. | .documentStart | .documentEnd | .streamEnd =>
      documentEnd
      return Node.empty token.line
    | _ => content

def skipEnds : Nat → Read Unit
  | 0 => return
  | fuel + 1 => do
    if (← lexeme) = .documentEnd then
      skip
      skipEnds fuel

/-- Reads the next document, if there is one. Only the first may start without a sign. -/
def next (first : Bool) : Read (Option Node) := do
  if !first then skipEnds (← get).bound
  match ← lexeme with
  | .streamEnd => return none
  | .version .. | .handle .. | .documentStart => return some (← explicitDocument)
  | _ => if first then return some (← content) else return some (← explicitDocument)

end Reader

/-- A stream before its first document. Every byte brings at most one token and three more that
show the indentation. -/
def Reader.ofText (s : Text) : Reader :=
  { scanner := .ofText s, bound := 8 * s.length + 16 }

end Yaml

end Turnstile
