import Turnstile.Argument.Basic
import Turnstile.Yaml.Node

/-! Documents as arguments: mappings with the keys `name`, `premises` and `conclusion`, where
other keys are ignored and null is left out. Merges look up the keys of a mapping by the values
they stand for, and a document that is almost entirely behind its aliases is refused. Targets of
other shapes are not modelled. -/
namespace Turnstile

namespace Text

def sextet? (b : UInt8) : Option Nat :=
  let n := b.toNat
  if 0x41 ≤ n && n ≤ 0x5A then some (n - 0x41)
  else if 0x61 ≤ n && n ≤ 0x7A then some (n - 0x61 + 26)
  else if 0x30 ≤ n && n ≤ 0x39 then some (n - 0x30 + 52)
  else if n = 0x2B then some 62
  else if n = 0x2F then some 63
  else none

def ofSextets : Text → Option Text
  | [] => some []
  | [a, b, 0x3D, 0x3D] => do
    let n := (← sextet? a) * 64 + (← sextet? b)
    return [(n / 16).toUInt8]
  | [a, b, c, 0x3D] => do
    let n := ((← sextet? a) * 64 + (← sextet? b)) * 64 + (← sextet? c)
    return [(n / 1024).toUInt8, (n / 4).toUInt8]
  | a :: b :: c :: d :: s => do
    let n := (((← sextet? a) * 64 + (← sextet? b)) * 64 + (← sextet? c)) * 64 + (← sextet? d)
    return (n / 65536).toUInt8 :: (n / 256).toUInt8 :: n.toUInt8 :: (← ofSextets s)
  | _ => none

/-- Reads base 64, which may be broken into lines. -/
def ofBase64 (s : Text) : Option Text :=
  ofSextets (s.filter fun b => b ≠ 0x0A && b ≠ 0x0D)

end Text

namespace Argument

inductive Shape where
  | text
  | texts
  | argument
  deriving DecidableEq, Repr

def Shape.label : Shape → Text
  | text => "string"
  | texts => "[]string"
  | argument => "argument.Argument"

inductive Mismatch where
  | wrongShape (line : Nat) (tag value : Text) (expected : Shape)
  | duplicateKey (line : Nat) (key : Text) (firstLine : Nat)
  /-- A key that is an alias sets a field again. -/
  | repeatedField (line : Nat) (name : Text)
  deriving DecidableEq, Repr

/-- A scalar as a message shows it, cut after seven bytes if it is long. -/
def excerpt (value : Text) : Text :=
  if 10 < value.length then " `" ++ value.take 7 ++ "...`" else " `" ++ value ++ "`"

/-- Values are shown in quotes, but not with the tag of a collection. -/
def Mismatch.message : Mismatch → Text
  | wrongShape line tag value expected =>
    "line " ++ Text.ofNat line ++ ": cannot unmarshal " ++ tag ++
      (if tag = "!!seq" ∨ tag = "!!map" then value else excerpt value) ++ " into " ++ expected.label
  | duplicateKey line key firstLine =>
    "line " ++ Text.ofNat line ++ ": mapping key " ++ key.quote ++ " already defined at line " ++
      Text.ofNat firstLine
  | repeatedField line name =>
    "line " ++ Text.ofNat line ++ ": field " ++ name ++ " already set in type argument.Argument"

/-- The kinds of collections. Mappings whose keys are all texts are a kind of their own. -/
inductive Collection where
  | list
  | textMap
  | anyMap
  deriving DecidableEq, Repr

def Collection.label : Collection → Text
  | list => "[]interface \x7b\x7d"
  | textMap => "map[string]interface \x7b\x7d"
  | anyMap => "map[interface \x7b\x7d]interface \x7b\x7d"

inductive DecodeError where
  | malformed (problem : Yaml.Problem)
  | mismatched (mismatches : List Mismatch)
  /-- A collection is a key of a mapping in which keys are looked up. -/
  | collectionKey (kind : Collection)
  deriving DecidableEq, Repr

def DecodeError.message : DecodeError → Text
  | malformed problem => problem.message
  | mismatched mismatches =>
    "yaml: unmarshal errors:\n  " ++ Text.join "\n  " (mismatches.map Mismatch.message)
  | collectionKey kind => "runtime error: hash of unhashable type " ++ kind.label

open Yaml (Node Problem Tag)

structure Progress where
  nodes : Nat := 0
  aliased : Nat := 0
  /-- What is wrong so far, the last first. -/
  mismatches : List Mismatch := []
  /-- The texts among the keys that a merge does not replace. -/
  met : List Text := []
  deriving DecidableEq, Repr

/-- Whether too many of the nodes stand behind aliases: more than 99 of 100 up to 400000
nodes, and more than 10 of 100 from 4000000 nodes on. -/
def Progress.excessive (p : Progress) : Bool :=
  let few := 400000
  let many := 4000000
  100 < p.aliased && 1000 < p.nodes &&
    if p.nodes ≤ few then 99 * p.nodes < 100 * p.aliased
    else if many ≤ p.nodes then p.nodes < 10 * p.aliased
    else
      p.nodes * (99 * (many - few) - 89 * (p.nodes - few)) < 100 * (many - few) * p.aliased

abbrev Decode := StateT Progress (Except DecodeError)

def malformed (what : Text) : Decode α :=
  throw (.malformed ⟨none, what⟩)

def report (mismatches : List Mismatch) : Decode Unit :=
  modify fun p => { p with mismatches := mismatches.reverse ++ p.mismatches }

def count (inAlias : Bool) : Decode Unit := do
  let p ← get
  let p := { p with
    nodes := p.nodes + 1, aliased := if inAlias then p.aliased + 1 else p.aliased }
  if p.excessive then malformed "document contains excessive aliasing" else set p

/-- Lets the keys in `keys` be those that have been met. -/
def meet (keys : List Text) : Decode Unit :=
  modify fun p => { p with met := keys }

/-- What tells the keys of a mapping apart: their kind and their text. -/
inductive KeyText where
  | scalar (value : Text)
  | sequence
  | mapping
  | aliased (name : Text)
  deriving DecidableEq, Repr

def keyText : Node → KeyText
  | .scalar _ _ value => .scalar value
  | .sequence .. | .enclosing _ _ false => .sequence
  | .mapping .. | .enclosing _ _ true => .mapping
  | .aliased _ name _ => .aliased name

def KeyText.text : KeyText → Text
  | scalar value => value
  | aliased name => name
  | sequence | mapping => []

def duplicates : List (Node × Node) → List Mismatch
  | [] => []
  | (key, _) :: entries =>
    (entries.filterMap fun (later, _) =>
      if keyText key = keyText later then
        some (.duplicateKey later.line (keyText later).text key.line)
      else none) ++ duplicates entries

inductive Meaning where
  | null
  | text (value : Text)
  | other
  deriving DecidableEq, Repr

/-- Whether a tag has to fit the text of a scalar. -/
def restrictsText (tag : Text) : Bool :=
  [Tag.null, .bool, .int, .float, .timestamp].any fun known => tag = known.label

/-- What a scalar with a tag stands for. A tag of no known kind makes it a text. -/
def meaning (tag value : Text) : Decode Meaning :=
  if tag = "!!binary" then
    match Text.ofBase64 value with
    | some bytes => return .text bytes
    | none => malformed "!!binary value contains invalid base64 data"
  else if !restrictsText tag then return .text value
  else
    let suggested := Tag.ofText value
    let whole := suggested = .int && (Yaml.integer? value).any fun n => n < Int.ofNat (1 <<< 63)
    if tag = suggested.label ∨ (tag = Tag.float.label ∧ whole) then
      return if suggested = .null then .null else .other
    else malformed ("cannot decode " ++ suggested.label ++ " `" ++ value ++ "` as a " ++ tag)

def reportCollection (expected : Shape) : Node → Decode Unit
  | .mapping line tag entries =>
    report (match duplicates entries with
      | [] => [.wrongShape line tag [] expected]
      | faults => faults)
  | .sequence line tag _ | .enclosing line tag _ => report [.wrongShape line tag [] expected]
  | .scalar .. | .aliased .. => return

/-- Goes from an alias to what it stands for, and counts both. -/
def follow (inAlias : Bool) (node : Node) : Decode (Bool × Node) := do
  count inAlias
  match node with
  | .aliased _ _ target =>
    count true
    return (true, target)
  | node => return (inAlias, node)

/-- Reads a text, none if the node is null or no scalar. -/
def decodeText (inAlias : Bool) (node : Node) : Decode (Option Text) := do
  match ← follow inAlias node with
  | (_, .scalar _ tag value) =>
    match ← meaning tag value with
    | .null => return none
    | .text s => return some s
    | .other => return some value
  | (_, node) =>
    reportCollection .text node
    return none

/-- Reads a list of texts. Null entries are left out. -/
def decodeTexts (inAlias : Bool) (node : Node) : Decode (List Text) := do
  match ← follow inAlias node with
  | (_, .scalar line tag value) =>
    if (← meaning tag value) ≠ .null then report [.wrongShape line tag value .texts]
    return []
  | (inAlias, .sequence _ _ items) => return (← items.mapM (decodeText inAlias)).filterMap id
  | (_, node) =>
    reportCollection .texts node
    return []

/-- Whether a key asks for the entries of other mappings. -/
def isMerge : Node → Bool
  | .scalar _ tag value => value = "<<" && tag = Tag.merge.label
  | _ => false

def selfContained (name : Text) : Decode α :=
  malformed ("anchor '" ++ name ++ "' value contains itself")

def wantMapping : Decode α :=
  malformed "map merge requires map or sequence of maps as the value"

inductive Key where
  | text (value : Text)
  | other
  | collection (kind : Collection)
  deriving DecidableEq, Repr

def isTextKey : Node → Bool
  | .scalar _ tag _ | .sequence _ tag _ | .mapping _ tag _ | .enclosing _ tag _ => isText tag
  | .aliased _ _ (.scalar _ tag _) | .aliased _ _ (.sequence _ tag _)
  | .aliased _ _ (.mapping _ tag _) | .aliased _ _ (.enclosing _ tag _) => isText tag
  | .aliased .. => false
where
  isText (tag : Text) : Bool := tag = Tag.str.label || tag = Tag.merge.label

mutual

/-- Reads a node with the value that it stands for, none if it has a key twice. `merging`
says that the keys of mappings are looked up among those met. -/
def decodeAny (merging inAlias : Bool) : Node → Decode (Option Key)
  | .scalar _ tag value => do
    count inAlias
    match ← meaning tag value with
    | .text s => return some (.text s)
    | _ => return some .other
  | .sequence _ _ items => do
    count inAlias
    decodeItems merging inAlias items
    return some (.collection .list)
  | .mapping _ _ entries => do
    count inAlias
    let faults := duplicates entries
    if !faults.isEmpty then
      report faults
      return none
    let textKeys := entries.all fun (key, _) => isTextKey key
    decodeEntries merging textKeys inAlias entries
    if entries.any fun (key, _) => isMerge key then
      let met := (← get).met
      if !merging then
        meet []
        lookUp inAlias entries
      mergeAnyValue textKeys inAlias entries
      if !merging then meet met
    return some (.collection (if textKeys then .textMap else .anyMap))
  | .aliased _ name (.enclosing ..) => selfContained name
  | .aliased _ _ target => do
    count inAlias
    decodeAny merging true target
  | .enclosing .. => selfContained []

def decodeItems (merging inAlias : Bool) : List Node → Decode Unit
  | [] => return
  | item :: items => do
    let _ ← decodeAny merging inAlias item
    decodeItems merging inAlias items

def decodeEntries (merging textKeys inAlias : Bool) : List (Node × Node) → Decode Unit
  | [] => return
  | (key, value) :: entries => do
    if !isMerge key then
      let known ←
        if textKeys then do pure ((← decodeText inAlias key).map Key.text)
        else decodeAny false inAlias key
      match known with
      | some (.collection kind) =>
        if merging then throw (.collectionKey kind) else malformed "invalid map key"
      | some (.text s) =>
        let met := (← get).met
        if !merging || !met.contains s then
          if merging then meet (s :: met)
          let _ ← decodeAny false inAlias value
      | some .other => let _ ← decodeAny false inAlias value
      | none => pure ()
    decodeEntries merging textKeys inAlias entries

def lookUp (inAlias : Bool) : List (Node × Node) → Decode Unit
  | [] => return
  | (key, _) :: entries => do
    match ← decodeAny true inAlias key with
    | some (.text s) => modify fun p => { p with met := s :: p.met }
    | some (.collection kind) => throw (.collectionKey kind)
    | _ => pure ()
    lookUp inAlias entries

def mergeAnyValue (textKeys inAlias : Bool) : List (Node × Node) → Decode Unit
  | [] => return
  | (key, value) :: entries =>
    if isMerge key then
      match value with
      | .sequence _ _ items => mergeAnyItems textKeys inAlias items
      | value => mergeAny textKeys inAlias value
    else mergeAnyValue textKeys inAlias entries

def mergeAnyItems (textKeys inAlias : Bool) : List Node → Decode Unit
  | [] => return
  | item :: items => do
    mergeAny textKeys inAlias item
    mergeAnyItems textKeys inAlias items

def mergeAny (textKeys inAlias : Bool) : Node → Decode Unit
  | .mapping _ _ entries => do
    count inAlias
    let faults := duplicates entries
    if !faults.isEmpty then report faults
    else
      decodeEntries true textKeys inAlias entries
      mergeAnyValue textKeys inAlias entries
  | .aliased _ name (.enclosing ..) => selfContained name
  | .aliased _ _ target => do
    count inAlias
    mergeAny textKeys true target
  | _ => wantMapping

end

structure Fields where
  argument : Argument := {}
  keys : List Text := []

def decodeField (inAlias : Bool) (a : Argument) (name : Text) (value : Node) :
    Decode Argument := do
  if name = "premises" then return { a with premises := ← decodeTexts inAlias value }
  else if name = "name" then return { a with name := (← decodeText inAlias value).getD [] }
  else if name = "conclusion" then
    return { a with conclusion := (← decodeText inAlias value).getD [] }
  else return a

/-- Reads an entry. A merged entry does not replace one that has been met. -/
def decodeEntry (merging inAlias : Bool) (fields : Fields) (entry : Node × Node) :
    Decode Fields := do
  let (key, value) := entry
  if isMerge key then return fields
  match ← decodeText inAlias key with
  | none => return fields
  | some name =>
    if !fields.keys.contains name then
      return ⟨← decodeField inAlias fields.argument name value, name :: fields.keys⟩
    else
      if !merging && (name = "premises" || name = "name" || name = "conclusion") then
        report [.repeatedField key.line name]
      return fields

mutual

def mergeFields (inAlias : Bool) (fields : Fields) : Node → Decode Fields
  | .mapping _ _ entries => do
    count inAlias
    let faults := duplicates entries
    if !faults.isEmpty then
      report faults
      return fields
    mergeValue inAlias (← entries.foldlM (decodeEntry true inAlias) fields) entries
  | .aliased _ name (.enclosing ..) => selfContained name
  | .aliased _ _ target => do
    count inAlias
    mergeFields true fields target
  | _ => wantMapping

def mergeValue (inAlias : Bool) (fields : Fields) : List (Node × Node) → Decode Fields
  | [] => return fields
  | (key, value) :: entries =>
    if isMerge key then
      match value with
      | .sequence _ _ items => mergeItems inAlias fields items
      | value => mergeFields inAlias fields value
    else mergeValue inAlias fields entries

def mergeItems (inAlias : Bool) (fields : Fields) : List Node → Decode Fields
  | [] => return fields
  | item :: items => do mergeItems inAlias (← mergeFields inAlias fields item) items

end

def decodeArgument (node : Node) : Decode Argument := do
  count false
  match ← follow false node with
  | (_, .scalar line tag value) =>
    if (← meaning tag value) ≠ .null then report [.wrongShape line tag value .argument]
    return {}
  | (inAlias, .mapping _ _ entries) =>
    let faults := duplicates entries
    if !faults.isEmpty then
      report faults
      return {}
    let own ← entries.foldlM (decodeEntry false inAlias) {}
    if entries.any fun (key, _) => isMerge key then
      meet []
      lookUp inAlias entries
      return (← mergeValue inAlias { own with keys := (← get).met } entries).argument
    else return own.argument
  | (_, node) =>
    reportCollection .argument node
    return {}

def ofNode (node : Node) : Except DecodeError Argument :=
  match (decodeArgument node).run {} with
  | .error e => .error e
  | .ok (a, p) => if p.mismatches.isEmpty then .ok a else .error (.mismatched p.mismatches.reverse)

end Argument

end Turnstile
