import CqlClient.Toml.Scalar

/-!
Reading TOML texts as documents. Tables may be given by headers, by dotted keys and inline, but no
table is defined twice and no key gets two values.

What is followed is version 1.0 of the format, with the limit that its readers set to how deeply
values are nested and how many parts a key has. A moment is checked and kept as its text. A text in
which anything is wrong is no document at all: where that is and what it is are not told. Comments
and layout are passed over, and documents are not written.
-/

namespace CqlClient.Toml

open Scanner

/-- What a key stands for while the document grows. -/
inductive Node where
  /-- A value; the tables in it are complete. -/
  | leaf (content : Document)
  /-- A table. It is implicit until a header names it, and dotted if dotted keys made it. -/
  | table (isImplicit isDotted : Bool) (entries : List (String × Node))
  /-- The tables of a repeated header, the last one first. -/
  | tables (last : List (String × Node)) (before : List (List (String × Node)))
  deriving Inhabited

abbrev Entries := List (String × Node)

/-- The entries with one put at the place of its key, or at the end. -/
def setEntry (key : String) (node : Node) : Entries → Entries
  | [] => [(key, node)]
  | (k, old) :: rest => if k = key then (key, node) :: rest else (k, old) :: setEntry key node rest

/-- Changes the table at the end of a path, making the tables on the way that are missing. `dotted`
says that the path belongs to a dotted key, which may not enter tables that a header named. The
change is told whether the table was made by dotted keys. -/
def changeAt (dotted : Bool) (change : Bool → Entries → Option Entries) :
    List String → Bool → Entries → Option Entries
  | [], isDotted, entries => change isDotted entries
  | key :: path, _, entries => do
    let changed ← match entries.lookup key with
      | none => (changeAt dotted change path dotted []).map (Node.table true dotted)
      | some (.leaf _) => none
      | some (.table isImplicit isDotted inner) =>
        if dotted ∧ !isImplicit then none
        else (changeAt dotted change path isDotted inner).map (Node.table isImplicit isDotted)
      | some (.tables last before) =>
        (changeAt dotted change path false last).map fun last => Node.tables last before
    return setEntry key changed entries

/-- Puts a value at a key that has none. Dotted keys and plain keys do not share a table. -/
def addValue (path : List String) (key : String) (content : Document) (entries : Entries) :
    Option Entries :=
  let put (isDotted : Bool) (inner : Entries) : Option Entries :=
    if isDotted == path.isEmpty ∨ (inner.lookup key).isSome then none
    else some (inner ++ [(key, .leaf content)])
  changeAt (!path.isEmpty) put path false entries

/-- Opens the table that a header names. -/
def openTable (key : String) (entries : Entries) : Option Entries :=
  match entries.lookup key with
  | none => some (setEntry key (.table false false []) entries)
  | some (.table true false inner) => some (setEntry key (.table false false inner) entries)
  | _ => none

/-- Opens one more of the tables that a repeated header names. -/
def openNext (key : String) (entries : Entries) : Option Entries :=
  match entries.lookup key with
  | none => some (setEntry key (.tables [] []) entries)
  | some (.tables last before) => some (setEntry key (.tables [] (last :: before)) entries)
  | _ => none

mutual

/-- The document of a finished node. -/
def Node.document : Node → Document
  | .leaf content => content
  | .table _ _ entries => .table (entriesDocument entries)
  | .tables last before => .list (tablesDocument before [.table (entriesDocument last)])

def entriesDocument : List (String × Node) → List (String × Document)
  | [] => []
  | (key, node) :: rest => (key, node.document) :: entriesDocument rest

/-- The documents of tables that are given last one first, before those in `after`. -/
def tablesDocument : List (List (String × Node)) → List Document → List Document
  | [], after => after
  | entries :: rest, after => tablesDocument rest (.table (entriesDocument entries) :: after)

end

/-- How deeply values may be nested, and how many parts a key may have. -/
def nestingLimit : Nat := 79

def isBareKeyChar (c : Char) : Bool := c.isAlphanum || c == '_' || c == '-'

def simpleKey : Scanner String :=
  basicString <|> literalString <|> do
  let cs ← takeWhile isBareKeyChar
  if cs.isEmpty then fail else return String.ofList cs

/-- A key: parts with points between them, and blanks around each. -/
def key : Scanner (List String) := do
  let parts ← separated (do
    spaces
    let part ← simpleKey
    spaces
    return part) (char '.')
  if parts.length ≤ nestingLimit then return parts else fail

/-- The path of a key and its last part. -/
def splitKey (parts : List String) : List String × String :=
  (parts.dropLast, parts.getLast?.getD "")

/-- An array of values. -/
def arrayOf (value : Scanner Document) : Scanner Document := do
  char '['
  gap
  let items ← Scanner.optional (separated (do
    gap
    let item ← value
    gap
    return item) (char ','))
  let _ ← Scanner.optional do
    if items.isNone then fail
    char ','
  gap
  char ']'
  return .list (items.getD [])

/-- A table in braces, on one line. -/
def tableOf (value : Scanner Document) : Scanner Document := do
  char '\x7b'
  spaces
  let pairs ← Scanner.optional (separated (do
    let parts ← key
    char '='
    spaces
    let content ← value
    spaces
    return (parts, content)) (char ','))
  spaces
  char '\x7d'
  let entries ← (pairs.getD []).foldlM (fun entries (parts, content) =>
    let (path, last) := splitKey parts
    (fun cs => (addValue path last content entries).map fun made => (made, cs) : Scanner Entries)) []
  return .table (entriesDocument entries)

/-- A value that holds no other values. -/
def scalarValue : Scanner Document :=
  (.text <$> stringValue) <|> (.moment <$> momentValue) <|> (.decimal <$> floatValue) <|>
    (.integer <$> integerValue) <|> (.boolean <$> booleanValue)

/-- A value in which arrays and tables may be nested as many levels deep. -/
def value : (levels : Nat) → Scanner Document
  | 0 => scalarValue
  | levels + 1 => scalarValue <|> arrayOf (value levels) <|> tableOf (value levels)

/-- The document so far and the path of the table that a header opened last. -/
structure Growth where
  entries : Entries
  path : List String

/-- A step that changes the document, or fails. -/
def commit (change : Option Growth) : Scanner Growth := fun cs => change.map fun made => (made, cs)

/-- A key and its value. -/
def pair (growth : Growth) : Scanner Growth := do
  let parts ← key
  char '='
  spaces
  let content ← value nestingLimit
  lineEnd
  let (path, last) := splitKey parts
  commit <| (changeAt false (fun _ => addValue path last content) growth.path false
    growth.entries).map fun entries => { growth with entries }

/-- A header: of a table in brackets, of one of several in double brackets. -/
def header (growth : Growth) : Scanner Growth := do
  char '['
  let isRepeated := (← Scanner.optional (char '[')).isSome
  let parts ← key
  char ']'
  if isRepeated then char ']'
  lineEnd
  let (path, last) := splitKey parts
  let opened := if isRepeated then openNext last else openTable last
  commit <| (changeAt false (fun _ => opened) path false growth.entries).map fun entries =>
    { entries, path := parts }

/-- One line of a document. -/
def expression (growth : Growth) : Scanner Growth := do
  spaces
  match ← peek? with
  | some '#' =>
    comment
    newline <|> atEnd
    return growth
  | some '[' => header growth
  | some '\n' =>
    newline
    return growth
  | some '\r' =>
    newline
    return growth
  | some _ => pair growth
  | none => fail

/-- Lines to the end of the text; each takes at least one character. -/
def expressions : (limit : Nat) → Growth → Scanner Growth
  | 0, growth => return growth
  | limit + 1, growth => do
    spaces
    match ← peek? with
    | none => return growth
    | some _ => expressions limit (← expression growth)

/-- The document of a text. A byte order mark may stand in front. -/
def read? (text : String) : Option Document :=
  let cs := match text.toList with
    | '\ufeff' :: rest => rest
    | cs => cs
  ((expressions (cs.length + 1) ⟨[], []⟩).run cs).map fun (growth, _) =>
    .table (entriesDocument growth.entries)

end CqlClient.Toml
