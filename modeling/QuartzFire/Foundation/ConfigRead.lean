import QuartzFire.Foundation.ConfigTree
import QuartzFire.Foundation.Text

/-!
# Reading the configuration

The services read the configuration through four primitives.  A view answers
them from a tree; where every call fails, each of them says that there is
nothing.
-/

namespace QuartzFire

structure ConfigRead where
  existsAt : List String → Bool
  listNodes : List String → List String
  returnValue : List String → Option String
  returnValues : List String → List String

/-! ## Lists on one line -/

/-- Every token in single quotes. -/
def quotedList (tokens : List (List Char)) : List Char :=
  [' '].intercalate (tokens.map fun token => '\'' :: token ++ ['\''])

/-- The tokens found so far and the open one, if any. -/
def parseQuotedChar (found : List (List Char) × Option (List Char))
    (char : Char) : List (List Char) × Option (List Char) :=
  if char = '\'' then
    match found.2 with
    | some current => (found.1 ++ [current], none)
    | none => (found.1, some [])
  else (found.1, found.2.map fun current => current ++ [char])

def parseQuotedList (text : List Char) : List (List Char) :=
  (text.foldl parseQuotedChar ([], none)).1

/-! ## Views -/

namespace ConfigRead

def listed (tokens : List String) : List String :=
  (parseQuotedList (quotedList (tokens.map String.toList))).map String.ofList

/-- `trim_end_matches('\n')` -/
def trimNewlines (text : String) : String :=
  String.ofList ((text.toList.reverse.dropWhile fun char => char = '\n').reverse)

/-- The answers of `cli-shell-api` about a tree. -/
def ofTree (tree : ConfigTree String) : ConfigRead where
  existsAt path := (tree.subtree path).isSome
  listNodes path :=
    listed (((tree.subtree path).map ConfigTree.entries).getD [] |>.map Prod.fst)
  returnValue path :=
    (tree.subtree path).bind fun leaf =>
      match leaf with
      | .value text | .scalar text =>
          if trimNewlines text = "" then none else some (trimNewlines text)
      | _ => none
  returnValues path :=
    match tree.subtree path with
    | some (.value text) => listed [text]
    | some (.values texts) => listed texts
    | _ => []

/-- Both answer alike from a path on. -/
structure AgreeBelow (base : List String) (left right : ConfigRead) : Prop where
  existsAt : ∀ path, left.existsAt (base ++ path) = right.existsAt (base ++ path)
  listNodes : ∀ path,
    left.listNodes (base ++ path) = right.listNodes (base ++ path)
  returnValue : ∀ path,
    left.returnValue (base ++ path) = right.returnValue (base ++ path)
  returnValues : ∀ path,
    left.returnValues (base ++ path) = right.returnValues (base ++ path)

theorem AgreeBelow.symm {base : List String} {left right : ConfigRead}
    (agree : AgreeBelow base left right) : AgreeBelow base right left where
  existsAt path := (agree.existsAt path).symm
  listNodes path := (agree.listNodes path).symm
  returnValue path := (agree.returnValue path).symm
  returnValues path := (agree.returnValues path).symm

theorem AgreeBelow.trans {base : List String} {left middle right : ConfigRead}
    (first : AgreeBelow base left middle)
    (second : AgreeBelow base middle right) : AgreeBelow base left right where
  existsAt path := (first.existsAt path).trans (second.existsAt path)
  listNodes path := (first.listNodes path).trans (second.listNodes path)
  returnValue path := (first.returnValue path).trans (second.returnValue path)
  returnValues path :=
    (first.returnValues path).trans (second.returnValues path)

theorem agreeBelow_ofTree {base : List String} {left right : ConfigTree String}
    (same : left.subtree base = right.subtree base) :
    AgreeBelow base (ofTree left) (ofTree right) := by
  have below : ∀ path,
      left.subtree (base ++ path) = right.subtree (base ++ path) := by
    intro path
    rw [ConfigTree.subtree_append, ConfigTree.subtree_append, same]
  constructor <;> intro path <;> simp only [ofTree, below path]

theorem existsAt_of_append {tree : ConfigTree String} (front back : List String)
    (there : (ofTree tree).existsAt (front ++ back) = true) :
    (ofTree tree).existsAt front = true := by
  simp only [ofTree, ConfigTree.subtree_append] at there ⊢
  exact Option.isSome_of_isSome_bind there

/-- Every call fails. -/
def unavailable : ConfigRead where
  existsAt _ := false
  listNodes _ := []
  returnValue _ := none
  returnValues _ := []

end ConfigRead

end QuartzFire
