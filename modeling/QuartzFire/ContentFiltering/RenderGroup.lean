import Mathlib.Logic.Function.Basic
import QuartzFire.ContentFiltering.Overrides

/-!
# The lists of a filter group

Each list of a group is one directive over a file that includes the sources of
the list, as many of them as have content.  What the server has in force are
the entries of the included files.
-/

namespace QuartzFire.ContentFiltering

open TextLines

abbrev Path := List Char

/-- What the files hold, where there are any. -/
abbrev ListDisk := Path → Option (List Char)

/-! ## Rendering -/

structure FileOut where
  path : Path
  contents : List Char

structure Aggregate where
  directiveTemplate : String
  aggPath : Path
  sources : List Path

structure GroupRender where
  number : Nat
  groupname : String
  naughtyness : Nat
  phraseFiltering : Bool
  header : String
  aggregates : List Aggregate
  files : List FileOut

def qzListDir : String := "/etc/e2guardian/lists/quartzfire"

def safesearchPath : Path :=
  "/etc/e2guardian/lists/quartzfire/safesearch-rewrite".toList

def blacklistDir : String := "/var/lib/quartzfire/content-filtering/blacklists"

def blockBegin : String :=
  "# >>> QuartzFire content-filtering (generated) — do not edit"

/-- A file of the group with this number. -/
def ownPath (number : Nat) (name : String) : Path :=
  qzListDir.toList ++ "/f".toList ++ (toString number).toList ++
    '-' :: name.toList

/-- A file of a category. -/
def categoryPath (category name : String) : Path :=
  blacklistDir.toList ++ '/' :: category.toList ++ '/' :: name.toList

def bannedSites : String :=
  "sitelist = 'name=banned,messageno=500,path={agg}'"

def bannedUrls : String :=
  "urllist = 'name=banned,messageno=501,path={agg}'"

def bannedRegex : String :=
  "regexpboollist = 'name=banned,messageno=503,path={agg}'"

def bannedExtension : String :=
  "fileextlist = 'name=bannedextension,messageno=900,path={agg}'"

def bannedMime : String :=
  "mimelist = 'name=bannedmime,messageno=800,path={agg}'"

def exceptionSites : String :=
  "sitelist = 'name=exception,messageno=602,path={agg}'"

def changedUrls : String := "regexpreplacelist = 'name=change,path={agg}'"

def listFile (header : String) (items : List String) : List Char :=
  unlines (("# QuartzFire Content Filtering — " ++ header ++
    ". Generated by qfcf.").toList :: items.map String.toList)

/-- A list of the group's own, in a file of its own. -/
def ownFile (number : Nat) (name header : String) (items : List String) :
    FileOut :=
  ⟨ownPath number name, listFile header items⟩

/-- A list over a single file, where the group has any entry for it. -/
def ownAggregate (number : Nat) (template name source : String)
    (items : List String) : List Aggregate :=
  if items = [] then []
  else [⟨template, ownPath number name, [ownPath number source]⟩]

def renderGroup (g : FilterGroup) (n : Nat) : GroupRender where
  number := n
  groupname := g.name
  naughtyness := g.naughtynessLimit
  phraseFiltering := g.phraseFiltering
  header := blockBegin ++ "\n# filter group " ++ toString n ++ ": " ++ g.name ++
    "\n" ++ (if g.categories = [] then ""
      else "# categories: " ++ ", ".intercalate g.categories ++ "\n")
  files :=
    (if g.blockDomains = [] then [] else
      [ownFile n "block-domains" "custom blocked domains" g.blockDomains]) ++
    (if g.blanketBlock then
      [ownFile n "blanket" "blanket block (deny-all)" ["**"]] else []) ++
    (if g.blockUrlRegex = [] then [] else
      [ownFile n "block-url-regex" "custom blocked URL regexes"
        g.blockUrlRegex]) ++
    (if g.blockFileExtensions = [] then [] else
      [ownFile n "block-ext" "blocked file extensions"
        g.blockFileExtensions]) ++
    (if g.blockMimeTypes = [] then [] else
      [ownFile n "block-mime" "blocked MIME types" g.blockMimeTypes]) ++
    (if g.allowDomains = [] then [] else
      [ownFile n "allow-domains" "allowed / bypass domains" g.allowDomains])
  aggregates :=
    [⟨bannedSites, ownPath n "banned-sites",
      g.categories.map (categoryPath · "domains") ++
      (if g.blockDomains = [] then [] else [ownPath n "block-domains"]) ++
      (if g.blanketBlock then [ownPath n "blanket"] else [])⟩,
     ⟨bannedUrls, ownPath n "banned-urls",
      g.categories.map (categoryPath · "urls")⟩] ++
    ownAggregate n bannedRegex "banned-regex" "block-url-regex"
      g.blockUrlRegex ++
    ownAggregate n bannedExtension "banned-ext" "block-ext"
      g.blockFileExtensions ++
    ownAggregate n bannedMime "banned-mime" "block-mime" g.blockMimeTypes ++
    ownAggregate n exceptionSites "exception-sites" "allow-domains"
      g.allowDomains ++
    (if g.safeSearch then
      [⟨changedUrls, ownPath n "safesearch", [safesearchPath]⟩] else [])

/-! ## Building the lists -/

/-- `file_has_content` -/
def fileHasContent (disk : ListDisk) (path : Path) : Bool :=
  (disk path).any fun text => !text.isEmpty

/-- A directive that is in force, over the files its own file includes. -/
structure Directive where
  template : String
  included : List Path

/-- No directive where no source is left. -/
def buildAggregate (disk : ListDisk) (agg : Aggregate) : Option Directive :=
  let present := agg.sources.filter (fileHasContent disk)
  if present = [] then none else some ⟨agg.directiveTemplate, present⟩

def writeFiles (disk : ListDisk) (files : List FileOut) : ListDisk :=
  files.foldl (fun disk file => Function.update disk file.path file.contents)
    disk

/-- The lines of a list that are neither empty nor comments. -/
def listEntries (text : List Char) : List (List Char) :=
  ((lines text).map trim).filter fun line =>
    !line.isEmpty && line.head? != some '#'

/-- `read_list` -/
def readList (disk : ListDisk) (path : Path) : List (List Char) :=
  ((disk path).map listEntries).getD []

/-- What a group has in force once its own files are written. -/
structure InForce where
  disk : ListDisk
  directives : List Directive

/-- The part of `build_group_file` that is about lists. -/
def buildGroup (disk : ListDisk) (g : FilterGroup) (n : Nat) : InForce :=
  let gr := renderGroup g n
  let disk' := writeFiles disk gr.files
  ⟨disk', gr.aggregates.filterMap (buildAggregate disk')⟩

/-- The entries of a list, of all files that its directive includes. -/
def InForce.entries (lists : InForce) (template : String) :
    List (List Char) :=
  (lists.directives.filter fun directive =>
    directive.template == template).flatMap fun directive =>
      directive.included.flatMap (readList lists.disk)

/-! ## Reading and writing files -/

theorem writeFiles_of_not_mem {files : List FileOut} {path : Path}
    (absent : path ∉ files.map FileOut.path) (disk : ListDisk) :
    writeFiles disk files path = disk path := by
  induction files generalizing disk with
  | nil => rfl
  | cons file files ih =>
      rw [List.map_cons, List.mem_cons, not_or] at absent
      change writeFiles (Function.update disk file.path file.contents) files
        path = _
      rw [ih absent.2, Function.update_of_ne absent.1]

theorem writeFiles_of_mem {files : List FileOut}
    (distinct : (files.map FileOut.path).Nodup) {file : FileOut}
    (member : file ∈ files) (disk : ListDisk) :
    writeFiles disk files file.path = some file.contents := by
  induction files generalizing disk with
  | nil => cases member
  | cons head files ih =>
      rw [List.map_cons, List.nodup_cons] at distinct
      rcases List.mem_cons.mp member with rfl | later
      · change writeFiles (Function.update disk file.path file.contents) files
          file.path = _
        rw [writeFiles_of_not_mem distinct.1, Function.update_self]
      · exact ih distinct.2 later _

/-- Files without content have no entries. -/
theorem readList_of_empty {disk : ListDisk} {path : Path}
    (empty : fileHasContent disk path = false) : readList disk path = [] := by
  unfold fileHasContent at empty
  unfold readList
  cases content : disk path with
  | none => rfl
  | some text =>
      rw [content] at empty
      have nothing : text = [] := by simpa using empty
      rw [nothing]
      decide

theorem flatMap_present (disk : ListDisk) (sources : List Path) :
    (sources.filter (fileHasContent disk)).flatMap (readList disk) =
      sources.flatMap (readList disk) := by
  induction sources with
  | nil => rfl
  | cons source sources ih =>
      rw [List.filter_cons, List.flatMap_cons]
      split
      · rw [List.flatMap_cons, ih]
      · rename_i empty
        rw [readList_of_empty (Bool.eq_false_iff.mpr empty), ih]
        rfl

/-- A list's entries are those of its sources, with content or not. -/
theorem entries_of_aggregates (disk : ListDisk) (aggregates : List Aggregate)
    (template : String) :
    InForce.entries ⟨disk, aggregates.filterMap (buildAggregate disk)⟩
        template =
      (aggregates.filter fun agg => agg.directiveTemplate == template).flatMap
        fun agg => agg.sources.flatMap (readList disk) := by
  induction aggregates with
  | nil => rfl
  | cons agg aggregates ih =>
      have parts := flatMap_present disk agg.sources
      rw [List.filter_cons]
      by_cases empty : agg.sources.filter (fileHasContent disk) = []
      · have skipped : buildAggregate disk agg = none := if_pos empty
        rw [List.filterMap_cons_none skipped, ih]
        rw [empty] at parts
        split
        · rw [List.flatMap_cons, ← parts]
          rfl
        · rfl
      · have built : buildAggregate disk agg =
            some ⟨agg.directiveTemplate, _⟩ := if_neg empty
        rw [List.filterMap_cons_some built]
        unfold InForce.entries at ih ⊢
        rw [List.filter_cons]
        split
        · rw [List.flatMap_cons, List.flatMap_cons, ih, parts]
        · exact ih

/-! ## A group's own files -/

theorem ownPath_injective (number : Nat) :
    Function.Injective (ownPath number) := by
  intro left right same
  have tails := List.append_cancel_left same
  exact String.toList_inj.mp (List.cons.inj tails).2

theorem categoryPath_ne_ownPath (category file : String) (number : Nat)
    (name : String) : categoryPath category file ≠ ownPath number name := by
  intro same
  have starts : ['/', 'v'] = ['/', 'e'] := congrArg (List.take 2) same
  exact absurd starts (by decide)

def ownNames : List String :=
  ["block-domains", "blanket", "block-url-regex", "block-ext", "block-mime",
    "allow-domains"]

/-- Each file is one of six. -/
theorem files_sublist (g : FilterGroup) (n : Nat) :
    ((renderGroup g n).files.map FileOut.path).Sublist
      (ownNames.map (ownPath n)) := by
  have blanket : ((if g.blanketBlock then [ownFile n "blanket"
      "blanket block (deny-all)" ["**"]] else []).map FileOut.path).Sublist
      [ownPath n "blanket"] := by
    split
    · exact .refl _
    · exact List.nil_sublist _
  have own : ∀ (items : List String) (name header : String),
      ((if items = [] then [] else [ownFile n name header items]).map
        FileOut.path).Sublist [ownPath n name] := by
    intro items name header
    split
    · exact List.nil_sublist _
    · exact .refl _
  simp only [renderGroup, List.map_append]
  exact (((((own _ _ _).append blanket).append (own _ _ _)).append
    (own _ _ _)).append (own _ _ _)).append (own _ _ _)

theorem files_distinct (g : FilterGroup) (n : Nat) :
    ((renderGroup g n).files.map FileOut.path).Nodup := by
  refine (files_sublist g n).nodup ?_
  exact (List.nodup_map_iff (ownPath_injective n)).mpr (by decide)

/-- A category's file is not among them. -/
theorem readList_category (disk : ListDisk) (g : FilterGroup) (n : Nat)
    (category file : String) :
    readList (buildGroup disk g n).disk (categoryPath category file) =
      readList disk (categoryPath category file) := by
  have absent : categoryPath category file ∉
      (renderGroup g n).files.map FileOut.path := by
    intro member
    obtain ⟨name, -, same⟩ :=
      List.mem_map.mp ((files_sublist g n).mem member)
    exact categoryPath_ne_ownPath category file n name same.symm
  have kept := writeFiles_of_not_mem absent disk
  change ((writeFiles disk (renderGroup g n).files
    (categoryPath category file)).map listEntries).getD [] = _
  rw [kept]
  rfl

theorem readList_own (disk : ListDisk) {g : FilterGroup} {n : Nat}
    {name : String} (header : String) (items : List String)
    (member : ownFile n name header items ∈ (renderGroup g n).files) :
    readList (buildGroup disk g n).disk (ownPath n name) =
      listEntries (listFile header items) := by
  have written := writeFiles_of_mem (files_distinct g n) member disk
  change ((writeFiles disk (renderGroup g n).files
    (ownFile n name header items).path).map listEntries).getD [] = _
  rw [written]
  rfl

/-! ## Entries -/

/-- A text that stands for itself in a list. -/
structure IsEntry (text : String) : Prop where
  one_line : '\n' ∉ text.toList
  trimmed : trim text.toList = text.toList
  nonempty : text.toList ≠ []
  uncommented : text.toList.head? ≠ some '#'

/-- The entries of a list file are its items. -/
theorem listEntries_listFile {header : String} (plain : '\n' ∉ header.toList)
    {items : List String} (entries : ∀ item ∈ items, IsEntry item) :
    listEntries (listFile header items) = items.map String.toList := by
  have title : '\n' ∉ ("# QuartzFire Content Filtering — " ++ header ++
      ". Generated by qfcf.").toList := by
    rw [String.toList_append, String.toList_append]
    intro member
    rcases List.mem_append.mp member with front | back
    · rcases List.mem_append.mp front with first | inside
      · exact absurd first (by decide)
      · exact plain inside
    · exact absurd back (by decide)
  obtain ⟨rest, comment⟩ : ∃ rest, trim ("# QuartzFire Content Filtering — " ++
      header ++ ". Generated by qfcf.").toList = '#' :: rest := by
    rw [String.toList_append, String.toList_append]
    exact trimBy_cons_of_dark (by decide)
  have own : ∀ item ∈ items, trim (chomp item.toList) = item.toList := by
    intro item member
    rw [trim_chomp, (entries item member).trimmed]
  have kept : (items.map String.toList).filter (fun line =>
      !line.isEmpty && line.head? != some '#') = items.map String.toList := by
    rw [List.filter_eq_self]
    intro line member
    obtain ⟨item, inside, rfl⟩ := List.mem_map.mp member
    have entry := entries item inside
    rw [Bool.and_eq_true, Bool.not_eq_true', List.isEmpty_eq_false_iff,
      bne_iff_ne]
    exact ⟨entry.nonempty, entry.uncommented⟩
  have read : ((lines (listFile header items)).map trim) =
      ('#' :: rest) :: items.map String.toList := by
    rw [listFile, lines_unlines (List.cons_ne_nil _ _), List.map_map,
      List.map_cons, List.map_map]
    · refine congrArg₂ List.cons ?_ (List.map_congr_left own)
      change trim (chomp _) = _
      rw [trim_chomp, comment]
    · rw [List.forall_mem_cons]
      refine ⟨title, fun line member => ?_⟩
      obtain ⟨item, inside, rfl⟩ := List.mem_map.mp member
      exact (entries item inside).one_line
  rw [listEntries, read, List.filter_cons_of_neg (by simp), kept]

/-! ## What a group has in force -/

theorem filter_ownAggregate (number : Nat) (template other name source : String)
    (items : List String) :
    (ownAggregate number template name source items).filter
        (fun agg => agg.directiveTemplate == other) =
      if template = other then ownAggregate number template name source items
      else [] := by
  unfold ownAggregate
  split
  · rw [ite_self]
    rfl
  · by_cases same : template = other
    · rw [if_pos same, List.filter_cons_of_pos (by simpa using same)]
      rfl
    · rw [if_neg same, List.filter_cons_of_neg (by simpa using same)]
      rfl

theorem filter_safeSearch (g : FilterGroup) (n : Nat) {other : String}
    (apart : changedUrls ≠ other) :
    (if g.safeSearch then
        [(⟨changedUrls, ownPath n "safesearch", [safesearchPath]⟩ : Aggregate)]
      else []).filter (fun agg => agg.directiveTemplate == other) = [] := by
  split
  · exact List.filter_cons_of_neg (by simpa using apart)
  · rfl

theorem entries_buildGroup (disk : ListDisk) (g : FilterGroup) (n : Nat)
    (template : String) :
    (buildGroup disk g n).entries template =
      ((renderGroup g n).aggregates.filter fun agg =>
          agg.directiveTemplate == template).flatMap
        fun agg => agg.sources.flatMap (readList (buildGroup disk g n).disk) :=
  entries_of_aggregates _ _ _

/-- The banned sites: those of the categories, the group's own and, of a
blanket block, the entry for all sites. -/
theorem entries_bannedSites (disk : ListDisk) {g : FilterGroup} {n : Nat}
    (entries : ∀ item ∈ g.blockDomains, IsEntry item) :
    (buildGroup disk g n).entries bannedSites =
      (g.categories.flatMap fun category =>
        readList disk (categoryPath category "domains")) ++
      g.blockDomains.map String.toList ++
      (if g.blanketBlock then [['*', '*']] else []) := by
  have list : (renderGroup g n).aggregates.filter (fun agg =>
        agg.directiveTemplate == bannedSites) =
      [⟨bannedSites, ownPath n "banned-sites",
        g.categories.map (categoryPath · "domains") ++
        (if g.blockDomains = [] then [] else [ownPath n "block-domains"]) ++
        (if g.blanketBlock then [ownPath n "blanket"] else [])⟩] := by
    have urls : (bannedUrls == bannedSites) = false := by decide
    obtain ⟨regex, extension, mime, exception, change⟩ :
        bannedRegex ≠ bannedSites ∧ bannedExtension ≠ bannedSites ∧
        bannedMime ≠ bannedSites ∧ exceptionSites ≠ bannedSites ∧
        changedUrls ≠ bannedSites := by decide
    simp only [renderGroup, List.filter_append, filter_ownAggregate,
      filter_safeSearch _ _ change, if_neg regex, if_neg extension, if_neg mime,
      if_neg exception, List.filter_cons, List.filter_nil, urls,
      beq_self_eq_true, List.append_nil]
    rfl
  have categories : (g.categories.map (categoryPath · "domains")).flatMap
        (readList (buildGroup disk g n).disk) =
      g.categories.flatMap fun category =>
        readList disk (categoryPath category "domains") := by
    rw [List.flatMap_map]
    exact congrArg (List.flatMap · _) (funext fun category =>
      readList_category disk g n category "domains")
  have blocked : (if g.blockDomains = [] then [] else
        [ownPath n "block-domains"]).flatMap
        (readList (buildGroup disk g n).disk) =
      g.blockDomains.map String.toList := by
    split
    · rename_i none
      rw [none]
      rfl
    · rename_i some'
      rw [List.flatMap_singleton, readList_own disk
        "custom blocked domains" g.blockDomains
        (by simp [renderGroup, some']), listEntries_listFile (by decide) entries]
  have blanket : (if g.blanketBlock then [ownPath n "blanket"] else
        []).flatMap (readList (buildGroup disk g n).disk) =
      if g.blanketBlock then [['*', '*']] else [] := by
    split
    · rename_i on
      rw [List.flatMap_singleton, readList_own disk
        "blanket block (deny-all)" ["**"]
        (by simp [renderGroup, on])]
      decide
    · rfl
  rw [entries_buildGroup, list, List.flatMap_singleton, List.flatMap_append,
    List.flatMap_append, categories, blocked, blanket]

theorem entries_exceptionSites (disk : ListDisk) {g : FilterGroup} {n : Nat}
    (entries : ∀ item ∈ g.allowDomains, IsEntry item) :
    (buildGroup disk g n).entries exceptionSites =
      g.allowDomains.map String.toList := by
  have list : (renderGroup g n).aggregates.filter (fun agg =>
        agg.directiveTemplate == exceptionSites) =
      ownAggregate n exceptionSites "exception-sites" "allow-domains"
        g.allowDomains := by
    have sites : (bannedSites == exceptionSites) = false := by decide
    have urls : (bannedUrls == exceptionSites) = false := by decide
    obtain ⟨regex, extension, mime, change⟩ : bannedRegex ≠ exceptionSites ∧
        bannedExtension ≠ exceptionSites ∧ bannedMime ≠ exceptionSites ∧
        changedUrls ≠ exceptionSites := by decide
    simp only [renderGroup, List.filter_append, filter_ownAggregate,
      filter_safeSearch _ _ change, if_neg regex, if_neg extension, if_neg mime,
      List.filter_cons, List.filter_nil, urls, sites, List.append_nil]
    rfl
  rw [entries_buildGroup, list, ownAggregate]
  split
  · rename_i none
    rw [none]
    rfl
  · rename_i some'
    rw [List.flatMap_singleton, List.flatMap_singleton, readList_own disk
      "allowed / bypass domains" g.allowDomains
      (by simp [renderGroup, some']), listEntries_listFile (by decide) entries]

end QuartzFire.ContentFiltering
