import QuartzFire.Foundation.Scan
import QuartzFire.Ips.Settings

/-!
# Rulesets and threat levels

What a signature file says, read in two ways: by the engine, which joins the
lines of a signature and takes its options apart, and by the helper, which
looks for keywords in one line at a time.
-/

namespace QuartzFire.Ips

abbrev Line := List Char

/-! ## Levels -/

inductive Level where
  | critical
  | high
  | medium
  | low
  | information
  deriving DecidableEq, Repr

def IpsSettings.policy (settings : IpsSettings) : Level → LevelPolicy
  | .critical => settings.critical
  | .high => settings.high
  | .medium => settings.medium
  | .low => settings.low
  | .information => settings.information

/-- The level the WebUI shows. -/
def severityLevel : Nat → Level
  | 1 => .critical
  | 2 => .high
  | 3 => .medium
  | 4 => .low
  | _ => .information

/-- The level the helper takes. -/
def priorityLevel : Option Nat → Level
  | none => .information
  | some 1 => .critical
  | some 2 => .high
  | some 3 => .medium
  | some 4 => .low
  | some _ => .information

/-! ## Classifications -/

/-- `strip` -/
def strip (text : List Char) : List Char :=
  ((text.dropWhile isSpace).reverse.dropWhile isSpace).reverse

abbrev Priorities := List (List Char × Nat)

section Reading

variable (classes : CharClasses)

/-- `\d` -/
def isDecimal (char : Char) : Bool :=
  (classes.decimal char).isSome

/-- `config classification:\s*([^,]+),[^,]*,\s*(\d+)` at the start of a line,
with what follows it. -/
def classificationAt (text : List Char) :
    Option ((List Char × Nat) × List Char) := do
  let rest ← stripPrefix "config classification:".toList text
  let name := rest.takeWhile (· ≠ ',')
  if name = [] then none
  else
    match rest.dropWhile (· ≠ ',') with
    | [] => none
    | _ :: rest =>
        match rest.dropWhile (· ≠ ',') with
        | [] => none
        | _ :: rest =>
            let rest := rest.dropWhile isSpace
            let digits := rest.takeWhile (isDecimal classes)
            if digits = [] then none
            else some ((strip name, classes.number digits),
              rest.dropWhile (isDecimal classes))

/-- `finditer`; `skip` characters belong to the match before. -/
def classificationEntries : (skip : Nat) → (atStart : Bool) → List Char →
    Priorities
  | _, _, [] => []
  | skip + 1, _, char :: rest =>
      classificationEntries skip (char = '\n') rest
  | 0, false, char :: rest => classificationEntries 0 (char = '\n') rest
  | 0, true, char :: rest =>
      match classificationAt classes (char :: rest) with
      | some (found, after) =>
          found :: classificationEntries (rest.length - after.length)
            (char = '\n') rest
      | none => classificationEntries 0 (char = '\n') rest

/-- The entries of one classification file; of two of one name the first
counts. -/
def readClassification (file : Option (List Char)) : Priorities :=
  match file with
  | some text => classificationEntries classes 0 true (universalNewlines text)
  | none => []

/-! ## One line, as the helper reads it -/

/-- `RULE_LINE`: what follows the action and the blank after it. -/
def ruleRest (line : Line) : Option (List Char) :=
  ["alert", "drop", "pass", "reject"].findSome? fun action =>
    match stripPrefix action.toList line with
    | some (blank :: rest) => if isSpace blank then some rest else none
    | _ => none

/-- `SID_RE` -/
def lineSid (line : Line) : Option Nat :=
  (searchWord classes (keywordAt "sid".toList (isDecimal classes)) false
    line).map classes.number

def linePriority (priorities : Priorities) (line : Line) : Option Nat :=
  match searchWord classes
      (keywordAt "priority".toList (isDecimal classes)) false line with
  | some digits => some (classes.number digits)
  | none =>
      (searchWord classes (keywordAt "classtype".toList fun char =>
        char ≠ ';' && !isSpace char) false line).bind (List.lookup · priorities)

def lineLevel (priorities : Priorities) (line : Line) : Level :=
  priorityLevel (linePriority classes priorities line)

end Reading

/-! ## Signatures, as the engine reads them -/

/-- A line that goes on in the next. -/
def continues (line : Line) : Bool :=
  (line.reverse.dropWhile isSpace).head? = some '\\'

/-- Comments and blank lines. -/
def isRemark : Line → Bool
  | [] => true
  | char :: _ => char = '#' || char = ' ' || char = ';'

/-- The lines of a file in groups: a remark by itself, a signature with all its
lines.  `opened` are the lines of a signature that goes on. -/
def entries : (opened : List Line) → List Line → List (List Line)
  | opened, [] => if opened.isEmpty then [] else [opened]
  | opened, line :: rest =>
      if opened.isEmpty && isRemark line then [line] :: entries [] rest
      else if continues line then entries (opened ++ [line]) rest
      else (opened ++ [line]) :: entries [] rest

/-- The text of a signature. -/
def joined : List Line → List Char
  | [] => []
  | [line] => line
  | line :: rest =>
      (line.reverse.dropWhile isSpace).tail.reverse ++ joined rest

/-- Options end with a semicolon that has no backslash before it. -/
def optionsFrom : (current : List Char) → List Char → List (List Char)
  | _, [] => []
  | current, char :: rest =>
      if char = ';' && current.getLast? ≠ some '\\' then
        current :: optionsFrom [] rest
      else optionsFrom (current ++ [char]) rest

def options (text : List Char) : List (List Char) :=
  optionsFrom [] (text.dropWhile (· ≠ '(')).tail

/-- The value of the first option of this name. -/
def optionValue (name : String) (options : List (List Char)) :
    Option (List Char) :=
  (options.find? fun option =>
    strip (option.takeWhile (· ≠ ':')) = name.toList).map fun option =>
      strip (option.dropWhile (· ≠ ':')).tail

def digitsValue (text : List Char) : Option Nat :=
  if text ≠ [] && text.all Char.isDigit then
    some (Nat.ofDigitChars 10 text 0)
  else none

def signatureSid (lines : List Line) : Option Nat :=
  (optionValue "sid" (options (joined lines))).bind digitsValue

/-- The priority the engine gives a signature: that of its `priority`, else of
its class, else the engine's own. -/
def signaturePriority (priorities : Priorities) (unclassified : Nat)
    (lines : List Line) : Nat :=
  let options := options (joined lines)
  match (optionValue "priority" options).bind digitsValue with
  | some priority => priority
  | none =>
      ((optionValue "classtype" options).bind (List.lookup · priorities)).getD
        unclassified

/-- The level the WebUI shows with the alerts of a signature: the severity in
them is the priority, cut to a byte. -/
def signatureLevel (priorities : Priorities) (unclassified : Nat)
    (lines : List Line) : Level :=
  severityLevel (signaturePriority priorities unclassified lines % 2 ^ 8)

end QuartzFire.Ips
