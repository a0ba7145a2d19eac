import ServiceKit.Yaml.Lexer
import ServiceKit.Yaml.Plain

/-!
The first document of a YAML stream as a tree. An alias names the anchored node by its number, so a
node may hold an alias of itself.
-/

namespace ServiceKit.Yaml

/-- A node with the line it starts on, counted from one, and its tag. -/
inductive Node where
  | scalar (line : Nat) (tag text : Text)
  | sequence (line : Nat) (tag : Text) (items : List Node)
  | mapping (line : Nat) (tag : Text) (entries : List (Node × Node))
  /-- `number` tells this alias apart from other aliases; `target` is the number of its anchor. -/
  | aliasOf (line : Nat) (number target : Nat) (name : Text)
deriving Inhabited

/-- A document and its anchored nodes by number. -/
structure Document where
  root : Node
  anchored : List (Nat × Node)
  /-- The number of aliases. -/
  aliases : Nat
  /-- A bound on the nesting. -/
  depth : Nat

namespace Node

/-- What a document is being made from: tokens, tag handles, and anchors by name. -/
structure Maker where
  lexer : Lexer
  handles : List (Text × Text) := []
  anchors : List (Text × Nat) := []
  anchored : List (Nat × Node) := []
  nextAnchor : Nat := 0
  aliases : Nat := 0
  /-- A comment about what comes next, and whether an empty line follows it. -/
  head : Option Bool := none

abbrev Make := StateT Maker (Except Problem)

/-! ### Tokens and comments -/

/-- The comments that a token takes, and those that are left. The end of a block takes none that is
about what comes next. -/
def takeComments (t : Token) : Option Bool → List Comment → Option Bool × List Comment
  | head, [] => (head, [])
  | head, c :: cs =>
    if t.start.index < c.place || (c.role = .head && t.kind = .blockEnd) then (head, c :: cs)
    else takeComments t (if c.role = .head then some c.apart else head) cs

/-- The token to be taken next, or why it cannot be read. -/
def tryPeek : Make (Except Problem Token) := do
  let m ← get
  match Lex.peek m.lexer with
  | .error p l =>
    set { m with lexer := l }
    return .error p
  | .ok t l =>
    let (head, comments) := takeComments t m.head l.comments
    set { m with lexer := { l with comments := comments }, head := head }
    return .ok t

def peek : Make Token := do
  match ← tryPeek with
  | .ok t => return t
  | .error p => throw p

def take : Make Unit := modify fun m => { m with lexer := m.lexer.take }

/-- The token to be taken next, after one is taken. -/
def takeAndPeek : Make Token := do
  take
  peek

/-- What was passed over while the tokens of a node were read is reported when the node is
complete. -/
def settle : Make Unit := do
  if let some p := (← get).lexer.passed then throw p

/-- The first token of the next node, end of a collection or document boundary. -/
def next : Make Token := do
  settle
  peek

/-- A node has taken the comment about it. -/
def clearHead : Make Unit := modify fun m => { m with head := none }

/-- The token after the indicator of an entry. A comment about the entry goes to the collection that
starts there, if one does. To find that out the tokens are read ahead, and if they cannot be read it is
tried once more: of two problems the second is the one to be reported. -/
def afterEntry : Make Token := do
  take
  let head := (← get).head
  if head.isNone then peek
  else
    clearHead
    match ← tryPeek with
    | .ok t =>
      if t.kind != .blockSequenceStart && t.kind != .blockMappingStart then
        modify fun m => { m with head := m.head.or head }
      return t
    | .error p =>
      modify fun m => { m with lexer := { m.lexer with passed := some p }, head := head }
      peek

def refuse {α : Type} (start here : Mark) (what : String) : Make α :=
  throw (.amongTokens start here what)

/-! ### Directives -/

/-- The tag handles that need no directive. -/
def defaultHandles : List (Text × Text) :=
  [(utf8 "!", utf8 "!"), (utf8 "!!", Tag.longLead)]

def directives : Nat → Bool → Make Unit
  | 0, _ => pure ()
  | fuel + 1, versioned => do
    let t ← peek
    match t.kind with
    | .version major minor =>
      if versioned then refuse {} t.start "found duplicate %YAML directive"
      else if major ≠ 1 ∨ minor ≠ 1 then refuse {} t.start "found incompatible YAML document"
      else
        take
        directives fuel true
    | .tagDirective handle lead =>
      let m ← get
      if m.handles.any fun h => h.1 == handle then
        refuse {} t.start "found duplicate %TAG directive"
      else
        set { m with handles := m.handles ++ [(handle, lead)] }
        take
        directives fuel versioned
    | _ => modify fun m => { m with handles := m.handles ++ defaultHandles }

/-! ### Properties of nodes -/

/-- The tag that a handle and a suffix stand for. -/
def fullTag (start tagMark : Mark) (handle suffix : Text) : Make Text := do
  if handle.isEmpty then return suffix
  match (← get).handles.find? fun h => h.1 == handle with
  | some (_, lead) =>
    if (lead ++ suffix).isEmpty then refuse start tagMark "found undefined tag handle"
    else return lead ++ suffix
  | none => refuse start tagMark "found undefined tag handle"

/-- The anchor and the tag in front of a node, in either order, and where the node starts. -/
structure Properties where
  start : Mark
  anchor : Option (List Char) := none
  tag : Option (Mark × Text × Text) := none

def properties (t : Token) : Make (Properties × Token) :=
  match t.kind with
  | .anchor name => do
    let t' ← takeAndPeek
    match t'.kind with
    | .tag handle suffix =>
      return (⟨t.start, some name, some (t'.start, handle, suffix)⟩, ← takeAndPeek)
    | _ => return (⟨t.start, some name, none⟩, t')
  | .tag handle suffix => do
    let t' ← takeAndPeek
    match t'.kind with
    | .anchor name =>
      return (⟨t.start, some name, some (t.start, handle, suffix)⟩, ← takeAndPeek)
    | _ => return (⟨t.start, none, some (t.start, handle, suffix)⟩, t')
  | _ => return (⟨t.start, none, none⟩, t)

/-- The number of a new anchor, whose node is known only later. -/
def openAnchor (p : Properties) : Make (Option Nat) := do
  match p.anchor with
  | none => return none
  | some name =>
    let m ← get
    set { m with
      anchors := (Text.ofChars name, m.nextAnchor) :: m.anchors
      nextAnchor := m.nextAnchor + 1 }
    return some m.nextAnchor

def closeAnchor (number : Option Nat) (n : Node) : Make Node := do
  match number with
  | none => return n
  | some k =>
    modify fun m => { m with anchored := (k, n) :: m.anchored }
    return n

/-- The tag of a node: the one that is written, or one that follows from its form. -/
def tagOr (tag fallback : Text) : Text :=
  if tag.isEmpty || tag == utf8 "!" then fallback else Tag.short tag

/-- A scalar that is not quoted has the tag of its value. -/
def scalarNode (line : Nat) (tag : Text) (style : ScalarStyle) (text : Text) : Node :=
  let fallback :=
    if style = .plain then (if text = utf8 "<<" then Tag.merge else (Plain.resolve text).1)
    else Tag.str
  .scalar line (tagOr tag fallback) text

/-- A node that is left out. -/
def emptyNode (mark : Mark) : Node := scalarNode (mark.line + 1) [] .plain []

def isOneOf (t : Token) (kinds : List TokenKind) : Bool := kinds.contains t.kind

/-! ### Nodes -/

mutual

/-- A node. In a block it may be a block collection, and under a key a sequence that is not
indented. -/
def node : Nat → Bool → Bool → Make Node
  | 0, _, _ => throw (.plain "document is too deep")
  | fuel + 1, block, indentless => do
    let t ← peek
    match t.kind with
    | .aliasOf name =>
      take
      clearHead
      settle
      let name := Text.ofChars name
      let m ← get
      match m.anchors.find? fun a => a.1 == name with
      | none => throw { what := utf8 "unknown anchor '" ++ name ++ utf8 "' referenced" }
      | some (_, target) =>
        set { m with aliases := m.aliases + 1 }
        return .aliasOf (t.start.line + 1) m.aliases target name
    | _ =>
      let (p, t) ← properties t
      let tag ← match p.tag with
        | none => pure []
        | some (mark, handle, suffix) => fullTag p.start mark handle suffix
      let line := p.start.line + 1
      match t.kind with
      | .scalar text style =>
        take
        clearHead
        closeAnchor (← openAnchor p) (scalarNode line tag style (Text.ofChars text))
      | .flowSequenceStart =>
        let a ← openAnchor p
        take
        clearHead
        closeAnchor a (.sequence line (tagOr tag Tag.seq) (← flowItems fuel t.start true []))
      | .flowMappingStart =>
        let a ← openAnchor p
        take
        clearHead
        closeAnchor a (.mapping line (tagOr tag Tag.map) (← flowEntries fuel t.start true []))
      | kind =>
        if indentless && kind == .blockEntry then
          let a ← openAnchor p
          closeAnchor a (.sequence line (tagOr tag Tag.seq) (← indentlessItems fuel []))
        else if block && kind == .blockSequenceStart then
          let a ← openAnchor p
          take
          closeAnchor a (.sequence line (tagOr tag Tag.seq) (← blockItems fuel t.start []))
        else if block && kind == .blockMappingStart then
          let a ← openAnchor p
          take
          closeAnchor a (.mapping line (tagOr tag Tag.map) (← blockEntries fuel t.start []))
        else if p.anchor.isSome || !tag.isEmpty then
          closeAnchor (← openAnchor p) (scalarNode line tag .plain [])
        else refuse p.start t.start "did not find expected node content"

def blockItems : Nat → Mark → List Node → Make (List Node)
  | 0, _, _ => throw (.plain "document is too deep")
  | fuel + 1, start, acc => do
    let t ← next
    match t.kind with
    | .blockEntry =>
      let t' ← afterEntry
      if isOneOf t' [.blockEntry, .blockEnd] then
        blockItems fuel start (emptyNode t.stop :: acc)
      else
        let n ← node fuel true false
        blockItems fuel start (n :: acc)
    | .blockEnd =>
      take
      return acc.reverse
    | _ => refuse start t.start "did not find expected '-' indicator"

/-- The items of a sequence under a key, at the indentation of the key. -/
def indentlessItems : Nat → List Node → Make (List Node)
  | 0, _ => throw (.plain "document is too deep")
  | fuel + 1, acc => do
    let t ← next
    match t.kind with
    | .blockEntry =>
      let t' ← afterEntry
      if isOneOf t' [.blockEntry, .key, .value, .blockEnd] then
        indentlessItems fuel (emptyNode t.stop :: acc)
      else
        let n ← node fuel true false
        indentlessItems fuel (n :: acc)
    | _ => return acc.reverse

def blockEntries : Nat → Mark → List (Node × Node) → Make (List (Node × Node))
  | 0, _, _ => throw (.plain "document is too deep")
  | fuel + 1, start, acc => do
    let t ← next
    match t.kind with
    | .key =>
      let t' ← takeAndPeek
      let k ←
        if isOneOf t' [.key, .value, .blockEnd] then pure (emptyNode t.stop)
        else node fuel true true
      let v ← blockValue fuel
      blockEntries fuel start ((k, v) :: acc)
    | .blockEnd =>
      take
      clearHead
      return acc.reverse
    | _ => refuse start t.start "did not find expected key"

def blockValue : Nat → Make Node
  | 0 => throw (.plain "document is too deep")
  | fuel + 1 => do
    let t ← next
    match t.kind with
    | .value =>
      let t' ← takeAndPeek
      if isOneOf t' [.key, .value, .blockEnd] then return emptyNode t.stop
      else node fuel true true
    | _ => return emptyNode t.start

/-- The items of a flow sequence. A key makes a mapping of one entry. -/
def flowItems : Nat → Mark → Bool → List Node → Make (List Node)
  | 0, _, _, _ => throw (.plain "document is too deep")
  | fuel + 1, start, first, acc => do
    let t ← next
    if t.kind == .flowSequenceEnd then
      take
      clearHead
      return acc.reverse
    let t ←
      if first then pure t
      else if t.kind == .flowEntry then takeAndPeek
      else refuse start t.start "did not find expected ',' or ']'"
    match t.kind with
    | .key =>
      take
      let k ← next
      let k ←
        if isOneOf k [.value, .flowEntry, .flowSequenceEnd] then
          take
          pure (emptyNode k.stop)
        else node fuel false false
      let v ← flowValue fuel .flowSequenceEnd
      flowItems fuel start false (.mapping (t.start.line + 1) Tag.map [(k, v)] :: acc)
    | .flowSequenceEnd =>
      take
      clearHead
      return acc.reverse
    | _ =>
      let n ← node fuel false false
      flowItems fuel start false (n :: acc)

def flowValue : Nat → TokenKind → Make Node
  | 0, _ => throw (.plain "document is too deep")
  | fuel + 1, closing => do
    let t ← next
    match t.kind with
    | .value =>
      let t ← takeAndPeek
      if isOneOf t [.flowEntry, closing] then return emptyNode t.start
      else node fuel false false
    | _ => return emptyNode t.start

def flowEntries : Nat → Mark → Bool → List (Node × Node) → Make (List (Node × Node))
  | 0, _, _, _ => throw (.plain "document is too deep")
  | fuel + 1, start, first, acc => do
    let t ← next
    if t.kind == .flowMappingEnd then
      take
      clearHead
      return acc.reverse
    let t ←
      if first then pure t
      else if t.kind == .flowEntry then takeAndPeek
      else refuse start t.start "did not find expected ',' or '\x7d'"
    match t.kind with
    | .key =>
      let k ← takeAndPeek
      let k ←
        if isOneOf k [.value, .flowEntry, .flowMappingEnd] then pure (emptyNode k.start)
        else node fuel false false
      let v ← flowValue fuel .flowMappingEnd
      flowEntries fuel start false ((k, v) :: acc)
    | .flowMappingEnd =>
      take
      clearHead
      return acc.reverse
    | _ =>
      let k ← node fuel false false
      let t ← next
      flowEntries fuel start false ((k, emptyNode t.start) :: acc)

end

/-- The first document, if there is one. Comments above it belong to the document as a whole if an
empty line follows them. -/
def document? (fuel : Nat) : Make (Option Node) := do
  let _ ← peek
  take
  let t ← next
  if t.kind == .streamEnd then
    settle
    return none
  directives fuel false
  let explicit := match t.kind with
    | .version _ _ | .tagDirective _ _ | .documentStart => true
    | _ => false
  let n ←
    if explicit then do
      let t ← peek
      if t.kind != .documentStart then refuse {} t.start "did not find expected <document start>"
      take
      let t ← next
      match t.kind with
      | .version _ _ | .tagDirective _ _ | .documentStart | .documentEnd | .streamEnd =>
        pure (emptyNode t.start)
      | _ => node fuel true false
    else do
      if (← get).head = some true then clearHead
      settle
      node fuel true false
  let _ ← next
  settle
  return some n

end Node

/-- The first document of a stream, if there is one. -/
def Document.read (s : Text) : Except Problem (Option Document) := do
  let lexer := Lexer.ofText s
  let size := lexer.cursor.size
  let (root, m) ← (Node.document? (8 * size + 64)).run { lexer := lexer }
  match root with
  | none => .ok none
  | some root => .ok (some ⟨root, m.anchored, m.aliases, size + 2⟩)

end ServiceKit.Yaml
