import QuartzFire.Foundation.Text

/-!
# Lines of the access log

The proxy writes a quoted CSV line for each request.  The feed turns it into an
object of the JSON log.
-/

namespace QuartzFire.ContentFiltering

/-- The loop of `parse_csv`: the field so far and whether it is in quotes. -/
def parseCsvFrom (cur : List Char) (inQ : Bool) :
    List Char → List (List Char)
  | [] => [cur]
  | '"' :: '"' :: rest =>
      if inQ then parseCsvFrom (cur ++ ['"']) inQ rest
      -- Only inside a quotation do two quotes stand for one.
      else parseCsvFrom cur true ('"' :: rest)
  | '"' :: rest => parseCsvFrom cur (!inQ) rest
  | ',' :: rest =>
      if inQ then parseCsvFrom (cur ++ [',']) inQ rest
      else cur :: parseCsvFrom [] inQ rest
  | char :: rest => parseCsvFrom (cur ++ [char]) inQ rest

def parseCsv (line : List Char) : List (List Char) :=
  parseCsvFrom [] false line

/-! ## Fields written in quotes -/

/-- A field in quotes, its own quotes doubled. -/
def quoteField (field : List Char) : List Char :=
  '"' :: field.flatMap (fun char => if char = '"' then ['"', '"'] else [char]) ++
    ['"']

def csvLine (fields : List (List Char)) : List Char :=
  [','].intercalate (fields.map quoteField)

theorem parseCsvFrom_open (cur rest : List Char) :
    parseCsvFrom cur false ('"' :: rest) = parseCsvFrom cur true rest := by
  cases rest with
  | nil => simp [parseCsvFrom]
  | cons char rest =>
      by_cases quote : char = '"'
      · subst quote
        simp [parseCsvFrom]
      · simp [parseCsvFrom, quote]

/-- A quoted field is read up to the quote that no other follows. -/
theorem parseCsvFrom_quoteField (field rest : List Char)
    (closed : rest.head? ≠ some '"') :
    parseCsvFrom [] false (quoteField field ++ rest) =
      parseCsvFrom field false rest := by
  have inside : ∀ cur, parseCsvFrom cur true (field.flatMap (fun char =>
        if char = '"' then ['"', '"'] else [char]) ++ '"' :: rest) =
      parseCsvFrom (cur ++ field) false rest := by
    induction field with
    | nil =>
        intro cur
        cases rest with
        | nil => simp [parseCsvFrom]
        | cons next rest =>
            have other : next ≠ '"' := by simpa using closed
            simp [parseCsvFrom, other]
    | cons char field ih =>
        intro cur
        rw [List.flatMap_cons, List.append_assoc]
        by_cases quote : char = '"'
        · subst quote
          simp [parseCsvFrom, ih]
        · by_cases comma : char = ','
          · subst comma
            simp [parseCsvFrom, ih]
          · simp [parseCsvFrom, quote, ih]
  rw [quoteField, List.cons_append, List.cons_append, parseCsvFrom_open,
    List.append_assoc]
  exact inside []

/-- What is written in quotes is read back. -/
theorem parseCsv_csvLine (first : List Char) (rest : List (List Char)) :
    parseCsv (csvLine (first :: rest)) = first :: rest := by
  induction rest generalizing first with
  | nil =>
      have read := parseCsvFrom_quoteField first [] (by simp)
      rw [List.append_nil] at read
      simpa [parseCsv, csvLine, parseCsvFrom] using read
  | cons next rest ih =>
      have read := parseCsvFrom_quoteField first
        (',' :: csvLine (next :: rest)) (by simp)
      rw [parseCsvFrom, if_neg Bool.false_ne_true] at read
      have split : csvLine (first :: next :: rest) =
          quoteField first ++ ',' :: csvLine (next :: rest) := by
        simp [csvLine]
      rw [split, parseCsv, read]
      exact congrArg (first :: ·) (ih next)

/-! ## The object of a line -/

def isoTs (raw : List Char) : List Char :=
  match splitOnce ' ' raw with
  | some (day, time) =>
      day.map (fun char => if char = '.' then '-' else char) ++ 'T' :: time
  | none => raw

/-- The action and the category of a reason. -/
def classify (reason : List Char) : List Char × Option (List Char) :=
  let reason := trim reason
  if containsText "*DENIED*".toList reason then
    ("blocked".toList,
      ((afterLast "category:".toList reason).or
        (afterLast "Blocked ".toList reason)).map trim)
  else if containsText "*EXCEPTION*".toList reason then
    ("allowed".toList, none)
  else if containsText "*SCANNED*".toList reason ||
      containsText "*INFECTED*".toList reason then
    ("scanned".toList, none)
  else ("allowed".toList, none)

/-- An object of the JSON log. -/
structure AccessObject where
  ts : List Char
  clientIp : List Char
  user : Option (List Char)
  group : Option (List Char)
  url : List Char
  action : List Char
  category : Option (List Char)
  reason : Option (List Char)
  httpStatus : Option Int
  method : Option (List Char)
  naughtyness : Int
  engine : List Char
  deriving DecidableEq

def dashToNull (text : List Char) : Option (List Char) :=
  if text = ['-'] ∨ text = [] then none else some text

def transform (line : List Char) : Option AccessObject :=
  if line = [] then none
  else
    let fields := parseCsv line
    if fields.length < 6 then none
    else
      let get (index : Nat) := fields.getD index ['-']
      let (action, category) := classify (get 4)
      some {
        ts := isoTs (get 0)
        clientIp := get 2
        user := dashToNull (get 1)
        group := dashToNull (get 13)
        url := get 3
        action := action
        category := category
        reason := dashToNull (get 4)
        httpStatus := parseSigned 64 (get 10)
        method := dashToNull (get 5)
        naughtyness := (parseSigned 64 (get 9)).getD 0
        engine := "content-filtering".toList }

example : (transform ("\"2026.07.12 21:00:00\",\"-\",\"10.0.0.9\"," ++
      "\"http://x.test/?a,b\",\"*DENIED* Blocked in banned category: adult\"," ++
      "\"GET\"").toList).map
      (fun object => (object.ts, object.url, object.category, object.group)) =
    some ("2026-07-12T21:00:00".toList, "http://x.test/?a,b".toList,
      some "adult".toList, none) := by
  decide +kernel

end QuartzFire.ContentFiltering
