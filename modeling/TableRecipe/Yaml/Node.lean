import TableRecipe.Yaml.Token

/-!
# Nodes of YAML documents

The structure that tokens spell out.

* `Yaml.Node` — a node: a scalar, a list, a mapping, or the use of an earlier node;
* `Yaml.Document` — a node with the nodes that have names;
* `Yaml.document?` — the one document that tokens spell out.
-/

namespace TableRecipe.Yaml

/-- a node -/
inductive Node where
  /-- a text, plain or not -/
  | scalar (tag : Option String) (text : String) (plain : Bool)
  /-- nodes in order -/
  | list (tag : Option String) (items : List Node)
  /-- pairs of nodes in order -/
  | mapping (tag : Option String) (entries : List (Node × Node))
  /-- the named node with a number -/
  | alias (number : Nat)
  deriving Repr, Inhabited

namespace Node

/-- what is left out -/
def missing : Node := scalar none "" true

end Node

/-- a node with a name, found under a number -/
structure Named where
  /-- the number -/
  number : Nat
  /-- how many named nodes began before it -/
  order : Nat
  /-- the node -/
  node : Node
  deriving Repr, Inhabited

/-- what was read of a document so far -/
structure Progress where
  /-- the tokens that are left -/
  tokens : List Token
  /-- the handles of tags with what they stand for -/
  handles : List (String × String) := []
  /-- the numbers of names: a name given again gets a new number -/
  names : List (String × Nat) := []
  /-- how many names were given -/
  given : Nat := 0
  /-- the nodes that have names -/
  named : List Named := []
  /-- how many starts and ends of nodes were read -/
  events : Nat := 0

/-- a part of reading a document, which may refuse it -/
abbrev Parse := StateT Progress Option

namespace Parse

/-- refuses the document -/
def refuse : Parse α := fun _ => none

/-- the next token -/
def peek : Parse Token := return (← get).tokens.head?.getD .streamEnd

/-- drops a token -/
def drop : Parse Unit := modify fun progress => { progress with tokens := progress.tokens.drop 1 }

/-- counts starts and ends of nodes -/
def count (events : Nat) : Parse Unit := modify fun progress =>
  { progress with events := progress.events + events }

/-- what is left out -/
def missing : Parse Node := do
  count 1
  return .missing

/-! ## Names and tags -/

/-- gives a name to the node that begins here and answers its number and order -/
def giveName (name : String) : Parse (Nat × Nat) := do
  let progress ← get
  -- as many numbers are in use as there are different names
  let number := progress.names.length
  set { progress with
    names := (name, number) :: progress.names.filter (·.1 ≠ name)
    given := progress.given + 1 }
  return (number, progress.given)

/-- notes the node of a name -/
def noteNode (place : Option (Nat × Nat)) (node : Node) : Parse Unit :=
  match place with
  | some (number, order) => modify fun progress =>
    { progress with named := { number, order, node } :: progress.named }
  | none => return

/-- the whole tag that a handle and a suffix write -/
def wholeTag (handle suffix : String) : Parse String := do
  if handle.isEmpty then return suffix
  else match (← get).handles.lookup handle with
    | some lead => return lead ++ suffix
    | none => refuse

/-- the tag of the next node, if it has one -/
def tag? : Parse (Option String) := do
  match ← peek with
  | .tag handle suffix =>
    drop
    return some (← wholeTag handle suffix)
  | _ => return none

/-- the number and order of the name of the next node, if it has one -/
def name? : Parse (Option (Nat × Nat)) := do
  match ← peek with
  | .anchor name =>
    drop
    return some (← giveName name)
  | _ => return none

/-- the name and the tag of the next node, in either order -/
def properties : Parse (Option (Nat × Nat) × Option String) := do
  match ← name? with
  | some place => return (some place, ← tag?)
  | none =>
    let tag ← tag?
    return (← name?, tag)

/-! ## Nodes -/

/-- a scalar; an exclamation mark alone is no tag -/
def scalarNode (tag : Option String) (text : String) (plain : Bool) : Node :=
  if tag = some "!" then .scalar none text plain else .scalar tag text plain

mutual
/-- a node; without brackets only where `block` says so, and a list as far to the left as what
surrounds it only where `level` says so -/
def node : (fuel : Nat) → (block level : Bool) → Parse Node
  | 0, _, _ => refuse
  | fuel + 1, block, level => do
    match ← peek with
    | .alias name =>
      drop
      count 1
      match (← get).names.lookup name with
      | some number => return .alias number
      | none => refuse
    | _ =>
      let (place, tag) ← properties
      let node ← content fuel block level (place.isSome || tag.isSome) tag
      noteNode place node
      return node
/-- a node behind its name and tag; if it has one of them, it may be left out -/
def content : (fuel : Nat) → (block level optional : Bool) → (tag : Option String) → Parse Node
  | 0, _, _, _, _ => refuse
  | fuel + 1, block, level, optional, tag => do
    match ← peek with
    | .scalar text plain =>
      drop
      count 1
      return scalarNode tag text plain
    | .blockEntry =>
      if level then
        count 2
        return .list tag (← levelItems fuel)
      else if optional then
        count 1
        return scalarNode tag "" true
      else refuse
    | .flowListStart =>
      drop
      count 2
      return .list tag (← flowItems fuel true)
    | .flowMappingStart =>
      drop
      count 2
      return .mapping tag (← flowEntries fuel true)
    | .blockListStart =>
      if block then
        drop
        count 2
        return .list tag (← blockItems fuel)
      else if optional then
        count 1
        return scalarNode tag "" true
      else refuse
    | .blockMappingStart =>
      if block then
        drop
        count 2
        return .mapping tag (← blockEntries fuel)
      else if optional then
        count 1
        return scalarNode tag "" true
      else refuse
    | _ =>
      if optional then
        count 1
        return scalarNode tag "" true
      else refuse
/-- the items of a list without brackets -/
def blockItems : (fuel : Nat) → Parse (List Node)
  | 0 => refuse
  | fuel + 1 => do
    match ← peek with
    | .blockEntry =>
      drop
      let item ← match ← peek with
        | .blockEntry | .blockEnd => missing
        | _ => node fuel true false
      return item :: (← blockItems fuel)
    | .blockEnd =>
      drop
      return []
    | _ => refuse
/-- the items of a list that stands as far to the left as the mapping around it -/
def levelItems : (fuel : Nat) → Parse (List Node)
  | 0 => refuse
  | fuel + 1 => do
    match ← peek with
    | .blockEntry =>
      drop
      let item ← match ← peek with
        | .blockEntry | .key | .value | .blockEnd => missing
        | _ => node fuel true false
      return item :: (← levelItems fuel)
    | _ => return []
/-- the entries of a mapping without brackets -/
def blockEntries : (fuel : Nat) → Parse (List (Node × Node))
  | 0 => refuse
  | fuel + 1 => do
    match ← peek with
    | .key =>
      drop
      let key ← match ← peek with
        | .key | .value | .blockEnd => missing
        | _ => node fuel true true
      let value ← match ← peek with
        | .value =>
          drop
          match ← peek with
          | .key | .value | .blockEnd => missing
          | _ => node fuel true true
        | _ => missing
      return (key, value) :: (← blockEntries fuel)
    | .blockEnd =>
      drop
      return []
    | _ => refuse
/-- the items of a list between brackets; an item with a key is a mapping of one entry -/
def flowItems : (fuel : Nat) → (first : Bool) → Parse (List Node)
  | 0, _ => refuse
  | fuel + 1, first => do
    match ← peek with
    | .flowListEnd =>
      drop
      return []
    | .flowEntry => if first then refuse else drop
    | _ => if !first then refuse
    match ← peek with
    | .flowListEnd =>
      drop
      return []
    | .key =>
      drop
      count 2
      let key ← match ← peek with
        | .value | .flowEntry | .flowListEnd =>
          drop
          missing
        | _ => node fuel false false
      let value ← match ← peek with
        | .value =>
          drop
          match ← peek with
          | .flowEntry | .flowListEnd => missing
          | _ => node fuel false false
        | _ => missing
      return .mapping none [(key, value)] :: (← flowItems fuel false)
    | _ =>
      let item ← node fuel false false
      return item :: (← flowItems fuel false)
/-- the entries of a mapping between braces -/
def flowEntries : (fuel : Nat) → (first : Bool) → Parse (List (Node × Node))
  | 0, _ => refuse
  | fuel + 1, first => do
    match ← peek with
    | .flowMappingEnd =>
      drop
      return []
    | .flowEntry => if first then refuse else drop
    | _ => if !first then refuse
    match ← peek with
    | .flowMappingEnd =>
      drop
      return []
    | .key =>
      drop
      let key ← match ← peek with
        | .value | .flowEntry | .flowMappingEnd => missing
        | _ => node fuel false false
      let value ← match ← peek with
        | .value =>
          drop
          match ← peek with
          | .flowEntry | .flowMappingEnd => missing
          | _ => node fuel false false
        | _ => missing
      return (key, value) :: (← flowEntries fuel false)
    | _ =>
      let key ← node fuel false false
      let value ← missing
      return (key, value) :: (← flowEntries fuel false)
end

/-! ## Documents -/

/-- the handles that need no directive -/
def standardHandles : List (String × String) := [("!", "!"), ("!!", "tag:yaml.org,2002:")]

/-- the directives in front of a document: at most one version, and handles of tags -/
def directives : (fuel : Nat) → (versioned : Bool) → Parse Unit
  | 0, _ => refuse
  | fuel + 1, versioned => do
    match ← peek with
    | .version major minor =>
      if versioned || major ≠ 1 || (minor ≠ 1 && minor ≠ 2) then refuse
      drop
      directives fuel true
    | .tagHandle handle lead =>
      let progress ← get
      if (progress.handles.lookup handle).isSome then refuse
      set { progress with handles := progress.handles ++ [(handle, lead)] }
      drop
      directives fuel versioned
    | _ => modify fun progress => { progress with handles := progress.handles ++ standardHandles }

/-- the node of a document behind its mark -/
def markedNode (fuel : Nat) : Parse Node := do
  match ← peek with
  | .version .. | .tagHandle .. | .documentStart | .documentEnd | .streamEnd => missing
  | _ => node fuel true false

/-- drops the marks behind a document -/
def skipEnds : (fuel : Nat) → Parse Unit
  | 0 => return
  | fuel + 1 => do
    match ← peek with
    | .documentEnd =>
      drop
      skipEnds fuel
    | _ => return

/-- the only document, `none` if there is none -/
def document (fuel : Nat) : Parse (Option Node) := do
  match ← peek with
  | .streamEnd => return none
  | _ =>
    let root ← match ← peek with
      | .version .. | .tagHandle .. | .documentStart =>
        directives fuel false
        match ← peek with
        | .documentStart =>
          drop
          markedNode fuel
        | _ => refuse
      | _ =>
        directives fuel false
        node fuel true false
    skipEnds fuel
    match ← peek with
    | .streamEnd => return some root
    | _ => refuse

end Parse

/-- a document -/
structure Document where
  /-- its node, `none` if it is empty -/
  root : Option Node
  /-- the nodes that have names -/
  named : List Named
  /-- how many starts and ends of nodes it has -/
  events : Nat

/-- the named node with a number; of several, the one that began last -/
def Document.named? (document : Document) (number : Nat) : Option Node :=
  ((document.named.filter (·.number = number)).foldl (fun (best : Option Named) found =>
    match best with
    | some other => if other.order < found.order then some found else best
    | none => some found) none).map (·.node)

/-- the document that tokens spell out, if they spell out one -/
def document? (tokens : List Token) : Option Document :=
  ((Parse.document (4 * tokens.length + 8)).run { tokens }).map fun (root, progress) =>
    { root, named := progress.named, events := progress.events }

end TableRecipe.Yaml
