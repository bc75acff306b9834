import QuartzFire.Foundation.ConfigRead

/-!
# The model of Content Filtering

What `service content-filtering` configures.  The owner refuses to enable it
without SSL inspection, as there would be nothing it could read.
-/

namespace QuartzFire.ContentFiltering

structure FilterGroup where
  name : String
  description : Option String := none
  sourceAddress : List String := []
  blanketBlock : Bool := false
  categories : List String := []
  blockDomains : List String := []
  allowDomains : List String := []
  blockUrlRegex : List String := []
  phraseFiltering : Bool := false
  naughtynessLimit : Nat := 150
  safeSearch : Bool := false
  blockFileExtensions : List String := []
  blockMimeTypes : List String := []
  deriving DecidableEq

structure Blocklists where
  sources : List String :=
    ["https://dsi.ut-capitole.fr/blacklists/download/blacklists.tar.gz"]
  autoUpdate : Bool := false
  updateIntervalHours : Nat := 24
  deriving DecidableEq

structure BlockPage where
  message : Option String := none
  contact : Option String := none
  deriving DecidableEq

inductive LogLevel where
  | none
  | blockedOnly
  | all
  deriving DecidableEq

def LogLevel.parse (text : String) : Option LogLevel :=
  if text = "none" then some .none
  else if text = "blocked-only" then some .blockedOnly
  else if text = "all" then some .all
  else Option.none

structure Model where
  enabled : Bool := false
  listenPort : Nat := 1344
  groups : List FilterGroup := []
  blocklists : Blocklists := {}
  blockPage : BlockPage := {}
  logLevel : LogLevel := .blockedOnly
  /-- Read from the other service. -/
  sslInspectionEnabled : Bool := false
  deriving DecidableEq

/-! ## Addresses -/

/-- Up to three digits, with no leading zero, below 256. -/
def octetOk (digits : List Char) : Bool :=
  !digits.isEmpty && digits.length ≤ 3 && digits.all Char.isDigit &&
    (digits.length = 1 || digits.head? ≠ some '0') &&
    Nat.ofDigitChars 10 digits 0 < 256

def ipv4Ok (text : List Char) : Bool :=
  let octets := text.splitOn '.'
  octets.length = 4 && octets.all octetOk

def hexGroupOk (digits : List Char) : Bool :=
  !digits.isEmpty && digits.length ≤ 4 && digits.all fun char =>
    char.isDigit || char.toLower ∈ ['a', 'b', 'c', 'd', 'e', 'f']

/-- How many 16-bit groups a side of `::` has; the last may be an IPv4 address
where the text ends. -/
def groupCount (last : Bool) (text : List Char) : Option Nat :=
  if text.isEmpty then some 0 else
  let groups := text.splitOn ':'
  if groups.all hexGroupOk then some groups.length
  else if last && groups.dropLast.all hexGroupOk &&
      groups.getLast?.any ipv4Ok then some (groups.length + 1)
  else none

/-- Split at the first `::`. -/
def splitDoubleColon : List Char → Option (List Char × List Char)
  | ':' :: ':' :: rest => some ([], rest)
  | char :: rest => (splitDoubleColon rest).map fun parts =>
      (char :: parts.1, parts.2)
  | [] => none

def ipv6Ok (text : List Char) : Bool :=
  match splitDoubleColon text with
  | some (front, back) =>
      match groupCount false front, groupCount true back with
      | some first, some second => first + second ≤ 7
      | _, _ => false
  | none => groupCount true text = some 8

def isCidr (text : String) : Bool :=
  match splitOnce '/' text.toList with
  | none => false
  | some (addr, len) =>
      match parseUnsigned 32 len with
      | none => false
      | some len =>
          if ':' ∈ addr then len ≤ 128 && ipv6Ok addr
          else len ≤ 32 && ipv4Ok addr

/-! ## Validation -/

/-- Escapes and nesting, of what is left of the expression. -/
def regexProblem (paren : Nat) (bracket : Bool) : List Char → Option String
  | [] =>
      if paren ≠ 0 then some "unbalanced '('"
      else if bracket then some "unbalanced '['"
      else none
  | ['\\'] => some "dangling backslash"
  | '\\' :: _ :: rest => regexProblem paren bracket rest
  | char :: rest =>
      if char = '[' ∧ bracket = false then regexProblem paren true rest
      else if char = ']' ∧ bracket = true then regexProblem paren false rest
      else if char = '(' ∧ bracket = false then
        regexProblem (paren + 1) bracket rest
      else if char = ')' ∧ bracket = false then
        if paren = 0 then some "unbalanced ')'"
        else regexProblem (paren - 1) bracket rest
      else regexProblem paren bracket rest

def groupProblems (group : FilterGroup) : List String :=
  let place := "content-filtering: filter-group '" ++ group.name ++ "'"
  (if 50 ≤ group.naughtynessLimit ∧ group.naughtynessLimit ≤ 500 then [] else
    [place ++ " naughtyness-limit " ++ toString group.naughtynessLimit ++
      " out of range (50-500)"]) ++
  (group.sourceAddress.filter fun cidr => !isCidr cidr).map
    (fun cidr =>
      place ++ " source-address '" ++ cidr ++ "' is not a valid CIDR") ++
  group.blockUrlRegex.filterMap fun re =>
    (regexProblem 0 false re.toList).map fun problem =>
      place ++ " block-url-regex '" ++ re ++ "': " ++ problem

/-- Each group's problems, after the names of those before it. -/
def groupsProblems : List String → List FilterGroup → List String
  | _, [] => []
  | seen, group :: rest =>
      (if group.name ∈ seen then
        ["content-filtering: duplicate filter-group '" ++ group.name ++ "'"]
        else []) ++
      groupProblems group ++ groupsProblems (group.name :: seen) rest

/-- Addresses two groups have in common. -/
def overlappingSources : List FilterGroup → List (String × String × String)
  | [] => []
  | group :: rest =>
      (rest.flatMap fun other =>
        (group.sourceAddress.filter fun cidr => cidr ∈ other.sourceAddress).map
          fun cidr => (group.name, other.name, cidr)) ++
      overlappingSources rest

/-- Human-readable problems. -/
def validate (model : Model) : List String :=
  if !model.enabled then [] else
  (if model.sslInspectionEnabled then [] else
    ["content-filtering: requires SSL inspection to be enabled (`set service " ++
      "quartzfire ssl-inspection enable`) — the ICAP engine filters the " ++
      "plaintext Squid produces by bumping TLS. Enable SSL inspection first, " ++
      "or disable content-filtering."]) ++
  (if model.groups = [] then
    ["content-filtering: at least one filter-group must be defined"]
    else []) ++
  groupsProblems [] model.groups ++
  (overlappingSources model.groups).map fun overlap =>
    "content-filtering: source-address " ++ overlap.2.2 ++
      " appears in both filter-group '" ++ overlap.1 ++ "' and '" ++
      overlap.2.1 ++ "' — client→group mapping would be ambiguous"

/-- A valid model has SSL inspection to build on. -/
theorem sslInspectionEnabled_of_valid {model : Model} (valid : validate model = [])
    (on : model.enabled = true) : model.sslInspectionEnabled = true := by
  rw [validate, on, Bool.not_true, if_neg Bool.false_ne_true] at valid
  cases needed : model.sslInspectionEnabled with
  | true => rfl
  | false => simp [needed] at valid

/-! ## Reading the service -/

def base : List String := ["service", "content-filtering"]

def sslEnable : List String :=
  ["service", "quartzfire", "ssl-inspection", "enable"]

def readNumber (width : Nat) (conf : ConfigRead) (path : List String) :
    Option Nat :=
  (conf.returnValue path).bind fun text => parseUnsigned width text.toList

def readGroup (conf : ConfigRead) (name : String) : FilterGroup :=
  let path leaf := base ++ ["filter-group", name, leaf]
  { name := name
    description := conf.returnValue (path "description")
    sourceAddress := conf.returnValues (path "source-address")
    blanketBlock := conf.existsAt (path "blanket-block")
    categories := conf.returnValues (path "category")
    blockDomains := conf.returnValues (path "block-domain")
    allowDomains := conf.returnValues (path "allow-domain")
    blockUrlRegex := conf.returnValues (path "block-url-regex")
    phraseFiltering := conf.existsAt (path "phrase-filtering")
    naughtynessLimit :=
      (readNumber 32 conf (path "naughtyness-limit")).getD 150
    safeSearch := conf.existsAt (path "safe-search")
    blockFileExtensions := conf.returnValues (path "block-file-extension")
    blockMimeTypes := conf.returnValues (path "block-mime-type") }

def readBlocklists (conf : ConfigRead) : Blocklists :=
  if conf.existsAt (base ++ ["blocklists"]) then
    let sources := conf.returnValues (base ++ ["blocklists", "source"])
    let shipped : Blocklists := {}
    { sources := if sources = [] then shipped.sources else sources
      autoUpdate := conf.existsAt (base ++ ["blocklists", "auto-update"])
      updateIntervalHours := (readNumber 32 conf
        (base ++ ["blocklists", "update-interval"])).getD 24 }
  else {}

/-- Where no group is defined there is an implicit one. -/
def readService (conf : ConfigRead) : Model :=
  let on := conf.existsAt sslEnable
  if !conf.existsAt base then { sslInspectionEnabled := on } else
  let groups := (conf.listNodes (base ++ ["filter-group"])).map (readGroup conf)
  { enabled := conf.existsAt (base ++ ["enable"])
    listenPort := (readNumber 16 conf (base ++ ["listen-port"])).getD 1344
    groups := if groups = [] then [{ name := "Global" }] else groups
    blocklists := readBlocklists conf
    blockPage :=
      if conf.existsAt (base ++ ["block-page"]) then
        { message := conf.returnValue (base ++ ["block-page", "message"])
          contact := conf.returnValue (base ++ ["block-page", "contact"]) }
      else {}
    logLevel := ((conf.returnValue (base ++ ["log", "level"])).bind
      LogLevel.parse).getD .blockedOnly
    sslInspectionEnabled := on }

end QuartzFire.ContentFiltering
