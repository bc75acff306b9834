import QuartzFire.Foundation.Text
import QuartzFire.Foundation.UrlPath

/-!
# The directory of a URL

How a client takes the text of a URL apart, and when the path stays below its
first segment although dot segments are resolved.
-/

namespace QuartzFire.UrlPath

/-! ## The text of a URL -/

/-- A control character or a space. -/
def isBlank (char : Char) : Bool := char.val ≤ 0x20

def isTabOrBreak (char : Char) : Bool :=
  char = '\t' || char = '\n' || char = '\r'

def trimBlanksEnd (text : List Char) : List Char :=
  (text.reverse.dropWhile isBlank).reverse

/-- What of the text is read: no blanks around it, no tab or line break. -/
def cleaned (text : List Char) : List Char :=
  (trimBlanksEnd (text.dropWhile isBlank)).filter (!isTabOrBreak ·)

def inAuthority (char : Char) : Bool :=
  !isSeparator char && char ≠ '?' && char ≠ '#'

/-- The authority of an `http` URL, and what follows it. -/
def parseHttp (text : List Char) : Option (List Char × List Char) :=
  (stripPrefix "http:".toList (cleaned text)).map fun rest =>
    let rest := rest.dropWhile isSeparator
    (rest.takeWhile inAuthority, rest.dropWhile inAuthority)

theorem trimBlanksEnd_append {front back : List Char} {char : Char}
    (solid : isBlank char = false) :
    trimBlanksEnd (front ++ char :: back) =
      front ++ char :: trimBlanksEnd back := by
  unfold trimBlanksEnd
  rw [List.reverse_append, List.reverse_cons, List.append_assoc,
    List.dropWhile_append]
  split
  · rename_i blank
    rw [List.isEmpty_iff] at blank
    rw [blank, List.singleton_append,
      List.dropWhile_cons_of_neg (by rw [solid]; exact Bool.false_ne_true)]
    simp
  · simp

/-! ## How deep segments lead -/

/-- How deep the segments lead, where the root is the parent of itself. -/
def level (segments : List (List Char)) : Nat :=
  segments.foldl (fun level segment =>
    if isDoubleDot segment then level - 1
    else if isSingleDot segment then level else level + 1) 0

/-- How deep the segments lead, unless they lead out of where they begin. -/
def depth : Nat → List (List Char) → Option Nat
  | below, [] => some below
  | below, segment :: segments =>
      if isDoubleDot segment then
        match below with
        | 0 => none
        | below + 1 => depth below segments
      else if isSingleDot segment then depth below segments
      else depth (below + 1) segments

theorem length_openSegment (segments : List (List Char)) :
    (segments.foldl openSegment []).length = level segments := by
  unfold level
  induction segments using List.reverseRecOn with
  | nil => rfl
  | append_singleton segments segment ih =>
      rw [List.foldl_append, List.foldl_append, ← ih]
      simp only [List.foldl_cons, List.foldl_nil, openSegment]
      split
      · exact List.length_dropLast
      · split
        · rfl
        · exact List.length_append

theorem depth_cons (below : Nat) (segment : List Char)
    (segments : List (List Char)) :
    depth below (segment :: segments) =
      if isDoubleDot segment then
        match below with
        | 0 => none
        | below + 1 => depth below segments
      else if isSingleDot segment then depth below segments
      else depth (below + 1) segments := by
  rfl

theorem depth_append (below : Nat) (front back : List (List Char)) :
    depth below (front ++ back) =
      (depth below front).bind fun below => depth below back := by
  induction front generalizing below with
  | nil => rfl
  | cons segment front ih =>
      rw [List.cons_append, depth_cons, depth_cons]
      split
      · cases below with
        | zero => rfl
        | succ below => exact ih below
      · split
        · exact ih below
        · exact ih (below + 1)

theorem depth_singleton (below : Nat) (segment : List Char) :
    depth below [segment] =
      if isDoubleDot segment then
        match below with
        | 0 => none
        | below + 1 => some below
      else if isSingleDot segment then some below else some (below + 1) := by
  rfl

/-- Segments that do not lead out of where they begin are put behind what is
there. -/
theorem openSegment_of_depth {segments base path : List (List Char)}
    {below : Nat} (leads : depth path.length segments = some below) :
    ∃ path', segments.foldl openSegment (base ++ path) = base ++ path' ∧
      path'.length = below := by
  induction segments generalizing path with
  | nil =>
      cases leads
      exact ⟨path, rfl, rfl⟩
  | cons segment segments ih =>
      rw [depth_cons] at leads
      rw [List.foldl_cons, openSegment]
      split at leads
      · rename_i double
        rw [if_pos double]
        split at leads
        · cases leads
        · rename_i below length
          have some' : path ≠ [] := by
            rintro rfl
            cases length
          rw [List.dropLast_append_of_ne_nil some']
          apply ih
          rw [List.length_dropLast, length]
          exact leads
      · rename_i double
        rw [if_neg double]
        split at leads
        · rename_i single
          rw [if_pos single]
          exact ih leads
        · rename_i single
          rw [if_neg single, List.append_assoc]
          apply ih
          rw [List.length_append, List.length_singleton]
          exact leads

/-- The first segment of a path is one before which all is taken back and
behind which nothing leads out of it. -/
theorem cons_of_openSegment {segments path : List (List Char)}
    {first : List Char} :
    segments.foldl openSegment [] = first :: path →
      ∃ front back, segments = front ++ first :: back ∧ level front = 0 ∧
        depth 0 back = some path.length := by
  induction segments using List.reverseRecOn generalizing path with
  | nil =>
      intro resolves
      cases resolves
  | append_singleton segments segment ih =>
      intro resolves
      rw [List.foldl_append, List.foldl_cons, List.foldl_nil,
        openSegment] at resolves
      split at resolves
      · rename_i double
        obtain ⟨last, whole⟩ : ∃ last, segments.foldl openSegment [] =
            first :: (path ++ [last]) := by
          have some' : segments.foldl openSegment [] ≠ [] := by
            intro empty
            rw [empty] at resolves
            cases resolves
          have split' := List.dropLast_append_getLast some'
          rw [resolves] at split'
          exact ⟨_, split'.symm⟩
        obtain ⟨front, back, rfl, empty, leads⟩ := ih whole
        refine ⟨front, back ++ [segment], by simp, empty, ?_⟩
        rw [depth_append, leads, Option.bind_some, depth_singleton,
          if_pos double, List.length_append, List.length_singleton]
      · rename_i double
        split at resolves
        · rename_i single
          obtain ⟨front, back, rfl, empty, leads⟩ := ih resolves
          refine ⟨front, back ++ [segment], by simp, empty, ?_⟩
          rw [depth_append, leads, Option.bind_some, depth_singleton,
            if_neg double, if_pos single]
        · rename_i single
          cases before : segments.foldl openSegment [] with
          | nil =>
              rw [before] at resolves
              cases resolves
              refine ⟨segments, [], rfl, ?_, rfl⟩
              rw [← length_openSegment, before]
              rfl
          | cons root inner =>
              rw [before] at resolves
              cases resolves
              obtain ⟨front, back, rfl, empty, leads⟩ := ih before
              refine ⟨front, back ++ [segment], by simp, empty, ?_⟩
              rw [depth_append, leads, Option.bind_some, depth_singleton,
                if_neg double, if_neg single]
              exact congrArg some (@List.length_append _ inner [segment]).symm

/-- Before some segment with this name all is taken back, and what is behind it
stays below it. -/
def StaysBelow (name : List Char) (segments : List (List Char)) : Prop :=
  ∃ front back, segments = front ++ name :: back ∧ level front = 0 ∧
    back ≠ [] ∧ depth 0 back ≠ none

theorem resolve_concat (segments : List (List Char)) (last : List Char) :
    resolve (segments ++ [last]) =
      lastSegment (segments.foldl openSegment []) last := by
  rw [resolve, List.getLast?_concat, List.dropLast_concat]

/-- A segment that is no dot segment has a name of its own. -/
def Plain (segment : List Char) : Prop :=
  isDoubleDot segment = false ∧ isSingleDot segment = false

theorem lastSegment_below {name last : List Char} {path : List (List Char)}
    (leads : depth path.length [last] ≠ none) :
    ∃ next rest, lastSegment (name :: path) last = name :: next :: rest := by
  rw [depth_singleton] at leads
  unfold lastSegment
  split at leads
  · rename_i double
    rw [if_pos double]
    cases path with
    | nil => exact absurd rfl leads
    | cons inner path =>
        rw [List.dropLast_cons_cons]
        cases dropped : (inner :: path).dropLast with
        | nil => exact ⟨_, _, rfl⟩
        | cons next rest => exact ⟨_, _, rfl⟩
  · rename_i double
    rw [if_neg double]
    split
    · cases path with
      | nil => exact ⟨_, _, rfl⟩
      | cons next rest => exact ⟨_, _, rfl⟩
    · cases path with
      | nil => exact ⟨_, _, rfl⟩
      | cons next rest => exact ⟨_, _, rfl⟩

theorem below_of_lastSegment {name last next : List Char}
    {path rest : List (List Char)}
    (resolves : lastSegment path last = name :: next :: rest) :
    ∃ inner, path = name :: inner ∧ depth inner.length [last] ≠ none := by
  rw [lastSegment] at resolves
  cases path with
  | nil =>
      split at resolves
      · cases resolves
      · split at resolves
        · cases resolves
        · cases resolves
  | cons root inner =>
      split at resolves
      · rename_i double
        cases inner with
        | nil => cases resolves
        | cons second inner =>
            rw [List.dropLast_cons_cons, List.cons_append] at resolves
            refine ⟨_, by rw [(List.cons.inj resolves).1], ?_⟩
            rw [depth_singleton, if_pos double]
            exact Option.some_ne_none _
      · rename_i double
        have named : root = name := by
          split at resolves
          · exact (List.cons.inj resolves).1
          · exact (List.cons.inj resolves).1
        refine ⟨inner, by rw [named], ?_⟩
        rw [depth_singleton, if_neg double]
        split
        · exact Option.some_ne_none _
        · exact Option.some_ne_none _

/-- The segments resolve to a path below one with this name. -/
theorem resolve_below_iff {name : List Char} (plain : Plain name)
    (segments : List (List Char)) :
    (∃ next rest, resolve segments = name :: next :: rest) ↔
      StaysBelow name segments := by
  constructor
  · rintro ⟨next, rest, resolves⟩
    cases segments using List.reverseRecOn with
    | nil => cases resolves
    | append_singleton segments last =>
        rw [resolve_concat] at resolves
        obtain ⟨inner, before, leads⟩ := below_of_lastSegment resolves
        obtain ⟨front, back, rfl, empty, inside⟩ := cons_of_openSegment before
        refine ⟨front, back ++ [last], by simp, empty, by simp, ?_⟩
        rw [depth_append, inside]
        exact leads
  · rintro ⟨front, back, rfl, empty, some', leads⟩
    cases back using List.reverseRecOn with
    | nil => exact absurd rfl some'
    | append_singleton back last =>
        rw [depth_append] at leads
        cases inside : depth 0 back with
        | none => exact absurd (by rw [inside]; rfl) leads
        | some below =>
            rw [inside] at leads
            have root : front.foldl openSegment [] = [] := by
              rw [← List.length_eq_zero_iff, length_openSegment, empty]
            obtain ⟨path, behind, length⟩ :=
              @openSegment_of_depth back [name] [] below inside
            have opened : (front ++ name :: back).foldl openSegment [] =
                name :: path := by
              rw [List.foldl_append, root, List.foldl_cons, openSegment,
                if_neg (by rw [plain.1]; exact Bool.false_ne_true),
                if_neg (by rw [plain.2]; exact Bool.false_ne_true)]
              exact behind
            rw [← List.cons_append, ← List.append_assoc, resolve_concat, opened]
            apply lastSegment_below
            rw [length]
            exact leads

/-! ## The path as a text -/

theorem mem_of_mem_openSegment {segments : List (List Char)}
    {segment : List Char}
    (member : segment ∈ segments.foldl openSegment []) : segment ∈ segments := by
  induction segments using List.reverseRecOn with
  | nil => cases member
  | append_singleton segments last ih =>
      rw [List.foldl_append, List.foldl_cons, List.foldl_nil,
        openSegment] at member
      apply List.mem_append.mpr
      split at member
      · exact .inl (ih ((List.dropLast_sublist _).mem member))
      · split at member
        · exact .inl (ih member)
        · exact (List.mem_append.mp member).imp_left ih

theorem mem_of_mem_lastSegment {path : List (List Char)}
    {last segment : List Char} (member : segment ∈ lastSegment path last) :
    segment = [] ∨ segment = last ∨ segment ∈ path := by
  rw [lastSegment] at member
  split at member
  · rcases List.mem_append.mp member with before | own
    · exact .inr (.inr ((List.dropLast_sublist _).mem before))
    · exact .inl (List.mem_singleton.mp own)
  · split at member
    · rcases List.mem_append.mp member with before | own
      · exact .inr (.inr before)
      · exact .inl (List.mem_singleton.mp own)
    · rcases List.mem_append.mp member with before | own
      · exact .inr (.inr before)
      · exact .inr (.inl (List.mem_singleton.mp own))

theorem mem_of_mem_resolve {segments : List (List Char)} {segment : List Char}
    (member : segment ∈ resolve segments) :
    segment = [] ∨ segment ∈ segments := by
  cases segments using List.reverseRecOn with
  | nil => cases member
  | append_singleton segments last =>
      rw [resolve_concat] at member
      rcases mem_of_mem_lastSegment member with empty | own | earlier
      · exact .inl empty
      · exact .inr (by simp [own])
      · exact .inr (List.mem_append_left _ (mem_of_mem_openSegment earlier))

theorem slash_not_mem_segmentsOf {path segment : List Char}
    (member : segment ∈ segmentsOf path) : '/' ∉ segment := by
  intro slash
  cases not_of_mem_splitOnP member '/' slash

/-- Joined segments begin with a name and a slash. -/
theorem prefix_intercalate_iff {name : List Char} (plain : '/' ∉ name)
    {segments : List (List Char)} (apart : ∀ segment ∈ segments, '/' ∉ segment) :
    name ++ ['/'] <+: ['/'].intercalate segments ↔
      ∃ next rest, segments = name :: next :: rest := by
  cases segments with
  | nil =>
      simp
  | cons first segments =>
      cases segments with
      | nil =>
          rw [List.intercalate_singleton]
          constructor
          · intro begins
            have slash : '/' ∈ first := begins.subset (by simp)
            exact absurd slash (apart first (by simp))
          · rintro ⟨next, rest, same⟩
            cases same
      | cons next rest =>
          rw [List.intercalate_cons_cons]
          constructor
          · rintro ⟨behind, same⟩
            rw [List.append_assoc, List.append_assoc] at same
            have own := splitOnce_eq_some.mpr
              ⟨@rfl _ (name ++ '/' :: behind), plain⟩
            have other := splitOnce_eq_some.mpr
              ⟨same, apart first (by simp)⟩
            cases own.symm.trans other
            exact ⟨_, _, rfl⟩
          · rintro ⟨next', rest', same⟩
            cases same
            exact ⟨_, rfl⟩

/-- The path of a URL that goes on like this lies in the directory. -/
theorem prefix_urlPath_iff {name : List Char} (plain : Plain name)
    (apart : '/' ∉ name) (text : List Char) :
    '/' :: name ++ ['/'] <+: urlPath text ↔ StaysBelow name (segmentsOf
      (text.takeWhile fun char => char ≠ '?' && char ≠ '#')) := by
  rw [← resolve_below_iff plain, urlPath, List.cons_append,
    List.cons_prefix_cons, and_iff_right rfl]
  apply prefix_intercalate_iff apart
  intro segment member
  rcases mem_of_mem_resolve member with empty | listed
  · rw [empty]
    exact List.not_mem_nil
  · exact slash_not_mem_segmentsOf listed

end QuartzFire.UrlPath
