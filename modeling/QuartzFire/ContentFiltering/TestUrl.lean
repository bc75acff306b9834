import QuartzFire.ContentFiltering.RenderGroup

/-!
# Testing a URL

The widget judges a URL by the settings of a group and the categories' lists of
domains.  The server judges it by all lists that are in force.
-/

namespace QuartzFire.ContentFiltering

/-! ## The widget -/

/-- `split` at a text, once. -/
def splitOnceText (separator : List Char) :
    List Char → Option (List Char × List Char)
  | [] => none
  | char :: rest =>
      if separator.isPrefixOf (char :: rest) then
        some ([], (char :: rest).drop separator.length)
      else (splitOnceText separator rest).map fun parts =>
        (char :: parts.1, parts.2)

/-- `url.split("://").nth(1)`, or all of it. -/
def afterScheme (url : List Char) : List Char :=
  match splitOnceText "://".toList url with
  | none => url
  | some (_, back) =>
      match splitOnceText "://".toList back with
      | none => back
      | some (front, _) => front

def hostOf (lower : List Char → List Char) (url : List Char) : List Char :=
  let s := (afterScheme url).takeWhile fun char => char != '/'
  lower (trim (s.takeWhile fun char => char != ':'))

def domainMatches (lower : List Char → List Char) (host listed : List Char) :
    Bool :=
  let listed := lower ((trim listed).dropWhile fun char => char == '.')
  host == listed || ('.' :: listed).isSuffixOf host

inductive Action where
  | allowed
  | blocked
  deriving DecidableEq

inductive Matched where
  | allowDomain
  | blockDomain
  | category (name : String)
  | blanketBlock
  | noMatchingList
  | noFilterGroup
  deriving DecidableEq

structure Verdict where
  url : List Char
  host : List Char
  group : Option String
  action : Action
  matched : Matched
  deriving DecidableEq

/-- The group of that name, else the first. -/
def selectGroup (model : Model) : Option String → Option FilterGroup
  | some name => model.groups.find? fun g => g.name == name
  | none => model.groups.head?

def evaluate (lower : List Char → List Char) (disk : ListDisk) (model : Model)
    (url : List Char) (group : Option String) : Verdict :=
  let host := hostOf lower url
  match selectGroup model group with
  | none => ⟨url, host, none, .allowed, .noFilterGroup⟩
  | some g =>
      let verdict := Verdict.mk url host (some g.name)
      if g.allowDomains.any fun d => domainMatches lower host d.toList then
        verdict .allowed .allowDomain
      else if g.blockDomains.any fun d => domainMatches lower host d.toList then
        verdict .blocked .blockDomain
      else
        match g.categories.find? fun cat =>
          (readList disk (categoryPath cat "domains")).any
            (domainMatches lower host) with
        | some cat => verdict .blocked (.category cat)
        | none =>
            if g.blanketBlock then verdict .blocked .blanketBlock
            else verdict .allowed .noMatchingList

/-! ## The server -/

/-- A URL by its parts.  Only a bracketed host has a colon in it. -/
structure Url where
  scheme : Option (List Char)
  userinfo : Option (List Char)
  host : List Char
  port : Option (List Char)
  rest : List Char
  scheme_plain : ∀ scheme' ∈ scheme, ':' ∉ scheme'
  userinfo_plain : ∀ user ∈ userinfo, '/' ∉ user ∧ '?' ∉ user ∧ '#' ∉ user
  host_plain : ∀ char ∈ host, char ≠ '/' ∧ char ≠ '?' ∧ char ≠ '#' ∧
    char ≠ '@' ∧ isWhitespace char = false
  bracketed : ':' ∈ host → ∃ address, host = '[' :: address ++ [']']
  port_digits : ∀ digits ∈ port, digits ≠ [] ∧ digits.all Char.isDigit = true
  rest_start : ∀ char, rest.head? = some char →
    char = '/' ∨ char = '?' ∨ char = '#'

namespace Url

/-- The host and what follows it. -/
def tail (url : Url) : List Char :=
  url.host ++ ((url.port.map (':' :: ·)).getD [] ++ url.rest)

def text (url : Url) : List Char :=
  (url.scheme.map (· ++ "://".toList)).getD [] ++
    ((url.userinfo.map (· ++ ['@'])).getD [] ++ url.tail)

def site (lower : List Char → List Char) (url : Url) : List Char :=
  lower url.host

end Url

/-- What entries of the lists that are about URLs cover. -/
structure UrlLists where
  coversUrl : List Char → List Char → Bool
  matchesRegex : List Char → List Char → Bool
  hasExtension : List Char → List Char → Bool

/-- A listed domain covers itself and its subdomains, the blanket entry covers
every site. -/
def coversSite (lower : List Char → List Char) (site entry : List Char) :
    Bool :=
  entry == ['*', '*'] || (site == lower entry ||
    ('.' :: lower entry).isSuffixOf site)

inductive SiteVerdict where
  | excepted
  | banned
  | undecided
  deriving DecidableEq

/-- Exception sites override banned ones. -/
def siteVerdict (lower : List Char → List Char) (lists : InForce)
    (site : List Char) : SiteVerdict :=
  if (lists.entries exceptionSites).any (coversSite lower site) then .excepted
  else if (lists.entries bannedSites).any (coversSite lower site) then .banned
  else .undecided

def bansUrl (urls : UrlLists) (lists : InForce) (url : List Char) : Bool :=
  (lists.entries bannedUrls).any (urls.coversUrl · url) ||
    (lists.entries bannedRegex).any (urls.matchesRegex · url) ||
    (lists.entries bannedExtension).any (urls.hasExtension · url)

/-- Exception sites override URL lists and regular expressions too. -/
def listsAction (lower : List Char → List Char) (urls : UrlLists)
    (lists : InForce) (url : Url) : Action :=
  match siteVerdict lower lists (url.site lower) with
  | .excepted => .allowed
  | .banned => .blocked
  | .undecided => if bansUrl urls lists url.text then .blocked else .allowed

/-! ## What the widget is told -/

/-- A name that stands for itself and its subdomains in a list of sites. -/
structure IsDomain (entry : List Char) : Prop where
  trimmed : trim entry = entry
  undotted : entry.head? ≠ some '.'
  single : entry ≠ ['*', '*']

/-- All listed sites are domains. -/
structure ListsDomains (disk : ListDisk) (g : FilterGroup) : Prop where
  allowed : ∀ item ∈ g.allowDomains, IsEntry item ∧ IsDomain item.toList
  blocked : ∀ item ∈ g.blockDomains, IsEntry item ∧ IsDomain item.toList
  categories : ∀ category ∈ g.categories,
    ∀ entry ∈ readList disk (categoryPath category "domains"), IsDomain entry

/-- The host that the widget reads is banned if the URL's site is, and not if
that is an exception; if the site is neither, it is banned if and only if a list
bans the URL. -/
structure Told (lower : List Char → List Char) (urls : UrlLists)
    (lists : InForce) (url : Url) : Prop where
  excepted : siteVerdict lower lists (url.site lower) = .excepted →
    siteVerdict lower lists (hostOf lower url.text) ≠ .banned
  banned : siteVerdict lower lists (url.site lower) = .banned →
    siteVerdict lower lists (hostOf lower url.text) = .banned
  undecided : siteVerdict lower lists (url.site lower) = .undecided →
    (siteVerdict lower lists (hostOf lower url.text) = .banned ↔
      bansUrl urls lists url.text = true)

section Widget

variable {lower : List Char → List Char} {disk : ListDisk} {g : FilterGroup}

theorem domainMatches_eq {host entry : List Char} (domain : IsDomain entry) :
    domainMatches lower host entry = coversSite lower host entry := by
  have undotted : entry.dropWhile (fun char => char == '.') = entry :=
    dropWhile_eq_self.mpr fun char first =>
      beq_false_of_ne fun same => domain.undotted (same ▸ first)
  rw [domainMatches, domain.trimmed, undotted, coversSite,
    beq_false_of_ne domain.single, Bool.false_or]

theorem any_domainMatches {host : List Char} {entries : List (List Char)}
    (domains : ∀ entry ∈ entries, IsDomain entry) :
    entries.any (domainMatches lower host) =
      entries.any (coversSite lower host) := by
  rw [Bool.eq_iff_iff, List.any_eq_true, List.any_eq_true]
  refine exists_congr fun entry => and_congr_right fun member => ?_
  rw [domainMatches_eq (domains entry member)]

theorem domains_map {items : List String}
    (domains : ∀ item ∈ items, IsEntry item ∧ IsDomain item.toList) :
    ∀ entry ∈ items.map String.toList, IsDomain entry := by
  intro entry member
  obtain ⟨item, inside, rfl⟩ := List.mem_map.mp member
  exact (domains item inside).2

theorem any_excepted (lower : List Char → List Char)
    (domains : ListsDomains disk g) (number : Nat) (host : List Char) :
    ((buildGroup disk g number).entries exceptionSites).any
        (coversSite lower host) =
      g.allowDomains.any fun d => domainMatches lower host d.toList := by
  rw [entries_exceptionSites disk fun item member =>
      (domains.allowed item member).1,
    ← any_domainMatches (domains_map domains.allowed), List.any_map]
  rfl

theorem any_banned (lower : List Char → List Char)
    (domains : ListsDomains disk g) (number : Nat) (host : List Char) :
    ((buildGroup disk g number).entries bannedSites).any
        (coversSite lower host) =
      ((g.categories.any fun category =>
          (readList disk (categoryPath category "domains")).any
            (domainMatches lower host)) ||
        (g.blockDomains.any fun d => domainMatches lower host d.toList) ||
        g.blanketBlock) := by
  have categories : ∀ entry ∈ g.categories.flatMap (fun category =>
      readList disk (categoryPath category "domains")), IsDomain entry := by
    intro entry member
    obtain ⟨category, inside, there⟩ := List.mem_flatMap.mp member
    exact domains.categories category inside entry there
  have blanket : (if g.blanketBlock then [['*', '*']] else []).any
      (coversSite lower host) = g.blanketBlock := by
    cases g.blanketBlock <;> rfl
  rw [entries_bannedSites disk fun item member =>
      (domains.blocked item member).1,
    List.any_append, List.any_append, blanket, ← any_domainMatches categories,
    ← any_domainMatches (domains_map domains.blocked), List.any_map,
    List.any_flatMap]
  rfl

/-- The widget blocks what the lists ban as a site. -/
theorem evaluate_blocked_iff (lower : List Char → List Char)
    (domains : ListsDomains disk g) (number : Nat)
    {model : Model} {group : Option String}
    (selected : selectGroup model group = some g) (url : List Char) :
    (evaluate lower disk model url group).action = .blocked ↔
      siteVerdict lower (buildGroup disk g number) (hostOf lower url) =
        .banned := by
  have allows := any_excepted lower domains number (hostOf lower url)
  have bans := any_banned lower domains number (hostOf lower url)
  unfold evaluate siteVerdict
  rw [selected, allows, bans]
  simp only
  split
  · exact iff_of_false (by simp) (by simp)
  split
  · rename_i blocked
    rw [blocked, Bool.or_true, Bool.true_or]
    exact iff_of_true rfl rfl
  · rename_i blocked
    rw [Bool.eq_false_iff.mpr blocked, Bool.or_false]
    cases found : g.categories.find? fun category =>
        (readList disk (categoryPath category "domains")).any
          (domainMatches lower (hostOf lower url)) with
    | some category =>
        have lists := List.find?_some found
        have some' : g.categories.any (fun category =>
            (readList disk (categoryPath category "domains")).any
              (domainMatches lower (hostOf lower url))) = true :=
          List.any_eq_true.mpr ⟨category, List.mem_of_find?_eq_some found,
            lists⟩
        rw [some', Bool.true_or]
        exact iff_of_true rfl rfl
    | none =>
        have none' : g.categories.any (fun category =>
            (readList disk (categoryPath category "domains")).any
              (domainMatches lower (hostOf lower url))) = false :=
          List.any_eq_false.mpr (List.find?_eq_none.mp found)
        rw [none', Bool.false_or]
        cases g.blanketBlock
        · exact iff_of_false (by simp) (by simp)
        · exact iff_of_true rfl rfl

end Widget

/-! ## Widget and server -/

/-- One group, of one category and with one domain of its own. -/
def adsModel : Model where
  groups := [{ name := "default", categories := ["ads"],
               blockDomains := ["blocked.example"] }]

/-- The category bans one URL and no domain. -/
def adsDisk : ListDisk := fun path =>
  if path = categoryPath "ads" "urls" then some "news.example/ads\n".toList
  else none

def httpUrl (host rest : String)
    (plain : host.toList.all (fun char => char != '/' && char != '?' &&
      char != '#' && char != '@' && char != ':' && !isWhitespace char) = true)
    (path : rest.toList.head? = some '/') : Url where
  scheme := some "http".toList
  userinfo := none
  host := host.toList
  port := none
  rest := rest.toList
  scheme_plain := by
    rintro scheme ⟨⟩
    decide
  userinfo_plain := by
    rintro user ⟨⟩
  host_plain := by
    intro char member
    have each := List.all_eq_true.mp plain char member
    simp only [Bool.and_eq_true, bne_iff_ne, Bool.not_eq_true'] at each
    exact ⟨each.1.1.1.1.1, each.1.1.1.1.2, each.1.1.1.2, each.1.1.2, each.2⟩
  bracketed := by
    intro member
    have each := List.all_eq_true.mp plain ':' member
    simp at each
  port_digits := by
    rintro digits ⟨⟩
  rest_start := by
    intro char first
    exact .inl (Option.some.inj (first.symm.trans path))

/-- URL lists by the text of the URL behind the scheme. -/
def textLists : UrlLists where
  coversUrl entry url := containsText entry url
  matchesRegex _ _ := false
  hasExtension _ _ := false

theorem adsModel_domains : ∀ g ∈ adsModel.groups, ListsDomains adsDisk g := by
  intro g member
  rw [List.mem_singleton.mp member]
  constructor
  · exact fun item inside => absurd inside List.not_mem_nil
  · intro item inside
    rw [List.mem_singleton.mp inside]
    exact ⟨⟨by decide, by decide, by decide, by decide⟩,
      ⟨by decide, by decide, by decide⟩⟩
  · intro category inside
    rw [List.mem_singleton.mp inside]
    have none : readList adsDisk (categoryPath "ads" "domains") = [] := by
      decide
    rw [none]
    exact fun entry there => absurd there List.not_mem_nil

end QuartzFire.ContentFiltering
