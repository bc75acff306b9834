import QuartzFire.Guard.BlockSpan

/-!
# The web interface across a restore

An upload without the key of the web interface is loaded with the `service
https` block of the running configuration in it, so that the interface stays
reachable.
-/

namespace QuartzFire.Guard

open Nesting Pairing TextLines

/-! ## The graft -/

def isDropped (drop : Option (Nat × Nat)) (i : Nat) : Bool :=
  match drop with
  | some (ds, de) => decide (ds ≤ i ∧ i ≤ de)
  | none => false

/-- The lines that a line of the upload leaves behind. -/
def graftLine (drop : Option (Nat × Nat)) (ss : Nat)
    (httpsBlock : List (List Char)) (line : List Char × Nat) :
    List (List Char) :=
  if isDropped drop line.2 = true then []
  else line.1 :: if line.2 = ss then httpsBlock else []

def graft (upLines httpsBlock : List (List Char)) : List (List Char) :=
  match blockSpan upLines [service] with
  | some (ss, _) =>
      let drop := blockSpan upLines [service, https]
      upLines.zipIdx.flatMap (graftLine drop ss httpsBlock)
  | none =>
      "service \x7b".toList :: (httpsBlock ++ ['}'] :: upLines)

def preserveWebuiAccess (uploaded running : String) : Except String String :=
  let runLines := lines running.toList
  match blockSpan runLines [service, https] with
  | none => .error
      "the running configuration has no `service https` block to preserve"
  | some (hs, he) =>
      let httpsBlock := spanLines runLines hs he
      .ok (String.ofList (unlines (graft (lines uploaded.toList) httpsBlock)))

/-! ## What it is for -/

/-- The first `service https` block. -/
def HttpsBlock (lines block : List (List Char)) : Prop :=
  ∃ front back, lines = front ++ (block ++ back) ∧
    config.Inside [service] front ∧ config.IsBlock https block ∧
    ∀ other, config.Opening [service] https lines other →
      front.length ≤ other.length

/-- What stays of an upload, in a `service` block of its own if it has none. -/
inductive Kept (lines : List (List Char)) : List (List Char) → Prop
  | replaced {front old back : List (List Char)}
      (split : lines = front ++ (old ++ back))
      (inside : config.Inside [service] front)
      (isBlock : config.IsBlock https old) : Kept lines (front ++ back)
  | inserted {outer : List (List Char)}
      (some' : config.Opening [] service lines outer)
      (none' : ∀ other, ¬ config.Opening [service] https lines other) :
      Kept lines lines
  | added (none' : ∀ other, ¬ config.Opening [] service lines other) :
      Kept lines ("service \x7b".toList :: ['}'] :: lines)

/-- The upload with the running block as the only `service https` block. -/
structure Preserved (uploaded running text : String) : Prop where
  valid : validateConfigText text = .ok ()
  parts : ∃ front block back,
    text.toList = unlines (front ++ (block ++ back)) ∧
      HttpsBlock (lines running.toList) block ∧
      Kept (lines uploaded.toList) (front ++ back) ∧
      ∀ other, config.Opening [service] https (front ++ (block ++ back)) other ↔
        other = front

/-! ## Texts that are read as they are -/

/-- The blocks that count end with a line, and comments up to there close what
they open.  The block goes between the two parts of what stays. -/
inductive Readable (lines : List (List Char)) :
    List (List Char) → List (List Char) → Prop
  | bare (counted : ∀ line ∈ lines, Counted line)
      (none' : ∀ other, ¬ config.Opening [] service lines other) :
      Readable lines ["service \x7b".toList] (['}'] :: lines)
  | without {outer inner back : List (List Char)} {header closing : List Char}
      (counted : ∀ line ∈ outer ++ header :: (inner ++ [closing]),
        Counted line)
      (block : config.FirstBlock service lines outer header inner closing back)
      (none' : ∀ other, ¬ config.Opening [] https inner other) :
      Readable lines (outer ++ [header]) (inner ++ closing :: back)
  | within {outer inner back front inside behind : List (List Char)}
      {header closing first last : List Char}
      (counted : ∀ line ∈ outer ++ header :: (inner ++ [closing]),
        Counted line)
      (block : config.FirstBlock service lines outer header inner closing back)
      (nested : config.FirstBlock https inner front first inside last behind) :
      Readable lines (outer ++ [header])
        (front ++ (behind ++ closing :: back))

/-! ## The running block -/

theorem HttpsBlock.unique {items block other : List (List Char)}
    (first : HttpsBlock items block) (second : HttpsBlock items other) :
    block = other := by
  obtain ⟨front, back, split, inside, isBlock, first⟩ := first
  obtain ⟨front', back', split', inside', isBlock', second⟩ := second
  have opening : ∀ {front block back : List (List Char)},
      items = front ++ (block ++ back) → config.Inside [service] front →
      config.IsBlock https block →
      config.Opening [service] https items front := by
    rintro front _ back split inside ⟨header, inner, closing, rfl, encloses⟩
    exact ⟨inside, header, inner ++ closing :: back, by simp [split],
      encloses.opens⟩
  have before := first _ (opening split' inside' isBlock')
  have behind := second _ (opening split inside isBlock)
  obtain ⟨rfl, same⟩ := List.append_inj (split.symm.trans split') (by omega)
  have starts : block <+: other ++ back' := ⟨back, same⟩
  rcases List.prefix_or_prefix_of_prefix starts (List.prefix_append _ _) with
    shorter | longer
  · exact isBlock.eq_of_starts isBlock' shorter
  · exact (isBlock'.eq_of_starts isBlock longer).symm

theorem spanLines_append {front block back : List (List Char)} {last : Nat}
    (length : last + 1 = front.length + block.length) :
    spanLines (front ++ (block ++ back)) front.length last = block := by
  rw [spanLines, List.drop_left, length, Nat.add_sub_cancel_left,
    List.take_left]

theorem paired_starts {items front : List (List Char)}
    (paired : Paired (config.all items)) (starts : front <+: items)
    (level : (config.all front).sum = 0) : Paired (config.all front) :=
  paired.of_starts (Layout.all_starts config starts) level

theorem counted_inner {outer inner : List (List Char)}
    {header closing : List Char}
    (counted : ∀ line ∈ outer ++ header :: (inner ++ [closing]), Counted line) :
    ∀ line ∈ inner, Counted line := by
  intro line member
  apply counted
  simp [member]

/-- The span of the first block in the first block. -/
theorem blockSpan_within
    {items outer inner back front inside behind : List (List Char)}
    {header closing first last : List Char}
    (counted : ∀ line ∈ outer ++ header :: (inner ++ [closing]), Counted line)
    (block : config.FirstBlock service items outer header inner closing back)
    (nested : config.FirstBlock https inner front first inside last behind) :
    blockSpan items [service, https] =
      some ((outer ++ header :: front).length,
        (outer ++ header :: front).length + inside.length + 1) := by
  have counted' : ∀ line ∈ front ++ first :: (inside ++ [last]),
      Counted line := by
    intro line member
    apply counted_inner counted line
    rw [nested.split]
    simp only [List.mem_append, List.mem_cons, List.not_mem_nil] at member ⊢
    tauto
  have opened : blockSpan items [service, https] =
      find [https] (0 + outer.length + 1) inner :=
    scan_firstBlock block counted
  have found : find [https] (0 + outer.length + 1) inner =
      some (0 + outer.length + 1 + front.length,
        0 + outer.length + 1 + front.length + inside.length + 1) :=
    scan_firstBlock nested counted'
  rw [opened, found, List.length_append, List.length_cons]
  congr 2 <;> omega

theorem httpsBlock_within
    {items outer inner back front inside behind : List (List Char)}
    {header closing first last : List Char}
    (block : config.FirstBlock service items outer header inner closing back)
    (nested : config.FirstBlock https inner front first inside last behind) :
    HttpsBlock items (first :: (inside ++ [last])) := by
  refine ⟨outer ++ header :: front, behind ++ closing :: back, ?_, ?_, ?_, ?_⟩
  · exact block.split_nested nested
  · exact .block (.top block.level) block.encloses.opens nested.level
  · exact ⟨first, inside, last, rfl, nested.encloses⟩
  · intro other opening
    exact block.nested nested opening

/-- The key is in the block that the graft takes. -/
theorem Readable.running {running : String} {before after : List (List Char)}
    (readable : Readable (lines running.toList) before after)
    (balanced : Paired (config.all (lines running.toList)))
    (key : hasWebuiApiKey running = true) :
    ∃ hs he block, blockSpan (lines running.toList) [service, https] =
        some (hs, he) ∧ spanLines (lines running.toList) hs he = block ∧
      HttpsBlock (lines running.toList) block := by
  have spans : blockSpan (lines running.toList) [service, https, api, keys] ≠
      none := by
    intro none'
    unfold hasWebuiApiKey at key
    dsimp only at key
    rw [none'] at key
    cases key
  cases readable with
  | bare counted none' =>
      exact absurd (scan_eq_none counted
        (fun front starts level => paired_starts balanced starts level)
        none') spans
  | @without outer inner back header closing counted block none' =>
      have opened : blockSpan (lines running.toList)
          [service, https, api, keys] =
            find [https, api, keys] (0 + outer.length + 1) inner :=
        scan_firstBlock block counted
      have missed : find [https, api, keys] (0 + outer.length + 1) inner =
          none :=
        scan_eq_none (counted_inner counted)
          (fun front starts level => block.encloses.paired_front starts level)
          none'
      exact absurd (opened.trans missed) spans
  | @within outer inner back front inside behind header closing first last
      counted block nested =>
      refine ⟨_, _, _, blockSpan_within counted block nested, ?_,
        httpsBlock_within block nested⟩
      rw [block.split_nested nested, spanLines_append]
      simp
      omega

/-! ## The lines of the graft -/

section Graft

variable {drop : Option (Nat × Nat)} {ss start : Nat}
  {httpsBlock items : List (List Char)}

theorem graft_kept
    (apart : ∀ i, start ≤ i → i < start + items.length →
      isDropped drop i = false ∧ i ≠ ss) :
    (items.zipIdx start).flatMap (graftLine drop ss httpsBlock) = items := by
  induction items generalizing start with
  | nil => rfl
  | cons line rest ih =>
      obtain ⟨kept, other⟩ := apart start (Nat.le_refl start) (by simp)
      have first : graftLine drop ss httpsBlock (line, start) = [line] := by
        rw [graftLine, kept, if_neg Bool.false_ne_true, if_neg other]
      rw [List.zipIdx_cons, List.flatMap_cons, first, ih]
      · rfl
      · intro i low high
        apply apart i (by omega)
        rw [List.length_cons]
        omega

theorem graft_dropped
    (within : ∀ i, start ≤ i → i < start + items.length →
      isDropped drop i = true) :
    (items.zipIdx start).flatMap (graftLine drop ss httpsBlock) = [] := by
  induction items generalizing start with
  | nil => rfl
  | cons line rest ih =>
      have first : graftLine drop ss httpsBlock (line, start) = [] := by
        rw [graftLine, within start (Nat.le_refl start) (by simp), if_pos rfl]
      rw [List.zipIdx_cons, List.flatMap_cons, first, ih]
      · rfl
      · intro i low high
        apply within i (by omega)
        rw [List.length_cons]
        omega

/-- The block goes behind the header. -/
theorem graft_header {line : List Char} (kept : isDropped drop ss = false) :
    ([line].zipIdx ss).flatMap (graftLine drop ss httpsBlock) =
      line :: httpsBlock := by
  rw [List.zipIdx_singleton, List.flatMap_singleton, graftLine, kept,
    if_neg Bool.false_ne_true, if_pos rfl]

end Graft

theorem Readable.graft_eq {items before after block : List (List Char)}
    (readable : Readable items before after)
    (balanced : Paired (config.all items)) :
    graft items block = before ++ (block ++ after) := by
  cases readable with
  | bare counted none' =>
      have missed : blockSpan items [service] = none :=
        scan_eq_none counted
          (fun front starts level => paired_starts balanced starts level) none'
      rw [graft, missed]
      rfl
  | @without outer inner back header closing counted found none' =>
      have span : blockSpan items [service] =
          some (0 + outer.length, 0 + outer.length + inner.length + 1) :=
        scan_firstBlock found counted
      have drop : blockSpan items [service, https] = none := by
        have opened : blockSpan items [service, https] =
            find [https] (0 + outer.length + 1) inner :=
          scan_firstBlock found counted
        rw [opened]
        exact scan_eq_none (counted_inner counted)
          (fun front starts level => found.encloses.paired_front starts level)
          none'
      have split : items = outer ++ ([header] ++ (inner ++ closing :: back)) :=
        found.split
      rw [graft, span, drop]
      dsimp only
      rw [split, List.zipIdx_append, List.zipIdx_append, List.flatMap_append,
        List.flatMap_append, graft_header rfl, graft_kept, graft_kept]
      · simp
      · intro i low high
        rw [List.length_singleton] at low
        exact ⟨rfl, by omega⟩
      · intro i low high
        exact ⟨rfl, by omega⟩
  | @within outer inner back front inside behind header closing first last
      counted found nested =>
      have span : blockSpan items [service] =
          some (0 + outer.length, 0 + outer.length + inner.length + 1) :=
        scan_firstBlock found counted
      have split : items = outer ++ ([header] ++ (front ++
          ((first :: (inside ++ [last])) ++ (behind ++ closing :: back)))) := by
        rw [found.split, nested.split]
        simp
      rw [graft, span, blockSpan_within counted found nested]
      dsimp only
      have edge : (outer ++ header :: front).length =
          outer.length + 1 + front.length := by
        rw [List.length_append, List.length_cons]
        omega
      rw [edge, split]
      rw [List.zipIdx_append, List.zipIdx_append, List.zipIdx_append,
        List.zipIdx_append, List.flatMap_append, List.flatMap_append,
        List.flatMap_append, List.flatMap_append, Nat.zero_add, graft_header,
        graft_kept, graft_kept, graft_dropped, graft_kept]
      · simp
      all_goals
        simp only [isDropped, List.length_append, List.length_cons,
          List.length_nil, decide_eq_true_eq, decide_eq_false_iff_not]
      · intro i low high
        omega
      · intro i low high
        omega
      · intro i low high
        omega
      · intro i low high
        omega
      · omega

/-! ## The text of the graft -/

theorem Readable.inside {items before after : List (List Char)}
    (readable : Readable items before after) :
    config.Inside [service] before := by
  cases readable with
  | bare counted none' =>
      have opens : config.Opens service "service \x7b".toList := rfl
      have level : Paired (config.all []) := Paired.nil
      exact .block (.top level) opens level
  | without counted block none' =>
      exact .block (.top block.level) block.encloses.opens Paired.nil
  | within counted block nested =>
      exact .block (.top block.level) block.encloses.opens Paired.nil

theorem Readable.paired {items before after : List (List Char)}
    (readable : Readable items before after)
    (balanced : Paired (config.all items)) :
    Paired (config.all (before ++ after)) := by
  cases readable with
  | bare counted none' =>
      have added : config.all (["service \x7b".toList] ++ ['}'] :: items) =
          [] ++ ([1, -1] ++ config.all items) := rfl
      rw [added]
      exact (paired_insert Paired.nil.enclosed).mpr balanced
  | @without outer inner back header closing counted block none' =>
      have same : outer ++ [header] ++ (inner ++ closing :: back) = items := by
        rw [block.split]
        simp
      rw [same]
      exact balanced
  | @within outer inner back front inside behind header closing first last
      counted block nested =>
      have same : outer ++ [header] ++ (front ++ (behind ++ closing :: back)) =
          (outer ++ header :: front) ++ (behind ++ closing :: back) := by simp
      rw [same]
      rw [block.split_nested nested] at balanced
      exact (Layout.paired_all_insert nested.encloses.paired).mp balanced

/-- A line that stays is one of the upload or of the block put around. -/
def IsKept (items : List (List Char)) (line : List Char) : Prop :=
  line ∈ items ∨ line = "service \x7b".toList ∨ line = ['}']

theorem Readable.isKept {items before after : List (List Char)}
    (readable : Readable items before after) :
    ∀ line ∈ before ++ after, IsKept items line := by
  intro line member
  cases readable with
  | bare counted none' =>
      simp only [List.mem_append, List.mem_cons, List.not_mem_nil] at member
      unfold IsKept
      tauto
  | without counted block none' =>
      left
      rw [block.split]
      simp only [List.mem_append, List.mem_cons, List.not_mem_nil] at member ⊢
      tauto
  | within counted block nested =>
      left
      rw [block.split, nested.split]
      simp only [List.mem_append, List.mem_cons, List.not_mem_nil] at member ⊢
      tauto

theorem Kept.isKept {items rest : List (List Char)} (kept : Kept items rest) :
    ∀ line ∈ rest, IsKept items line := by
  intro line member
  cases kept with
  | replaced split inside isBlock =>
      left
      rw [split]
      simp only [List.mem_append] at member ⊢
      tauto
  | inserted some' none' => exact .inl member
  | added none' =>
      simp only [List.mem_cons] at member
      unfold IsKept
      tauto

theorem IsKept.newline_not_mem {text line : List Char}
    (kept : IsKept (lines text) line) : '\n' ∉ line := by
  rcases kept with member | rfl | rfl
  · exact TextLines.newline_not_mem member
  · decide
  · decide

/-- What is kept takes the block in where the header ends. -/
theorem Readable.kept {items before after : List (List Char)}
    (readable : Readable items before after)
    (single : ∀ other,
      ¬ config.Opening [service] https (before ++ after) other) :
    Kept items (before ++ after) := by
  cases readable with
  | bare counted none' => exact .added none'
  | @without outer inner back header closing counted block none' =>
      have same : outer ++ [header] ++ (inner ++ closing :: back) = items := by
        rw [block.split]
        simp
      rw [same] at single ⊢
      exact .inserted ⟨.top block.level, header, inner ++ closing :: back,
        block.split, block.encloses.opens⟩ single
  | @within outer inner back front inside behind header closing first last
      counted block nested =>
      have same : outer ++ [header] ++ (front ++ (behind ++ closing :: back)) =
          (outer ++ header :: front) ++ (behind ++ closing :: back) := by simp
      rw [same]
      exact .replaced (block.split_nested nested)
        (.block (.top block.level) block.encloses.opens nested.level)
        ⟨first, inside, last, rfl, nested.encloses⟩

theorem significantLines_unlines {items : List (List Char)}
    (some' : items ≠ []) (plain : ∀ line ∈ items, '\n' ∉ line) :
    significantLines (String.ofList (unlines items)) =
      (items.map trim).filter isSignificant := by
  unfold significantLines
  rw [String.toList_ofList, lines_unlines some' plain, List.map_map]
  congr 2
  funext line
  exact trim_chomp line

theorem forall_significant {items : List (List Char)}
    {Fine : List Char → Prop} :
    (∀ line ∈ (items.map trim).filter isSignificant, Fine line) ↔
      ∀ line ∈ items, isSignificant (trim line) = true → Fine (trim line) := by
  constructor
  · intro fine line member counts
    exact fine _ (List.mem_filter.mpr ⟨List.mem_map_of_mem member, counts⟩)
  · intro fine line member
    obtain ⟨inside, counts⟩ := List.mem_filter.mp member
    obtain ⟨raw, among, rfl⟩ := List.mem_map.mp inside
    exact fine raw among counts

theorem valid_unlines {items : List (List Char)}
    (plain : ∀ line ∈ items, '\n' ∉ line)
    (significant : ∃ line ∈ items, isSignificant (trim line) = true) :
    validateConfigText (String.ofList (unlines items)) = .ok () ↔
      (String.ofList (unlines items)).utf8ByteSize ≤ maxRestoreBytes ∧
        (∀ line ∈ items,
          isSignificant (trim line) = true → Acceptable (trim line)) ∧
        Paired (config.all items) := by
  obtain ⟨line, member, counts⟩ := significant
  have some' : (items.map trim).filter isSignificant ≠ [] :=
    List.ne_nil_of_mem (List.mem_filter.mpr
      ⟨List.mem_map_of_mem member, counts⟩)
  rw [validateConfigText_eq_ok,
    significantLines_unlines (List.ne_nil_of_mem member) plain,
    and_iff_right some', forall_significant, ← all_config]

/-! ## What the graft amounts to -/

/-- The braces of a text pair up. -/
def Balanced (content : String) : Prop :=
  Paired ((significantLines content).flatMap braceMarks)

theorem Balanced.all {content : String} (balanced : Balanced content) :
    Paired (config.all (lines content.toList)) := by
  rw [all_config]
  exact balanced

/-- No other block is left and the result is one that the check accepts. -/
structure Grafts (before block after : List (List Char)) : Prop where
  single : ∀ other, ¬ config.Opening [service] https (before ++ after) other
  acceptable : ∀ line ∈ block,
    isSignificant (trim line) = true → Acceptable (trim line)
  fits : (String.ofList (unlines (before ++ (block ++ after)))).utf8ByteSize ≤
    maxRestoreBytes

theorem HttpsBlock.isBlock {items block : List (List Char)}
    (blocks : HttpsBlock items block) :
    config.IsBlock https block ∧ ∀ line ∈ block, line ∈ items := by
  obtain ⟨front, back, rfl, -, isBlock, -⟩ := blocks
  refine ⟨isBlock, fun line member => ?_⟩
  simp [member]

/-- A kept line is one that the check accepts. -/
theorem IsKept.acceptable {content : String} {line : List Char}
    (accepted : validateConfigText content = .ok ())
    (kept : IsKept (lines content.toList) line)
    (counts : isSignificant (trim line) = true) : Acceptable (trim line) := by
  rcases kept with member | rfl | rfl
  · obtain ⟨-, -, fine, -⟩ := validateConfigText_eq_ok.mp accepted
    exact forall_significant.mp fine line member counts
  · exact ⟨by decide, by decide⟩
  · exact acceptable_closing

section Graft

variable {uploaded : String} {before after block : List (List Char)}

theorem newline_not_mem_graft {running : String}
    (kept : ∀ line ∈ before ++ after, IsKept (lines uploaded.toList) line)
    (inside : ∀ line ∈ block, line ∈ lines running.toList) :
    ∀ line ∈ before ++ (block ++ after), '\n' ∉ line := by
  intro line member
  rcases List.mem_append.mp member with first | member
  · exact (kept line (List.mem_append_left _ first)).newline_not_mem
  · rcases List.mem_append.mp member with middle | last
    · exact TextLines.newline_not_mem (inside line middle)
    · exact (kept line (List.mem_append_right _ last)).newline_not_mem

theorem significant_graft (isBlock : config.IsBlock https block) :
    ∃ line ∈ before ++ (block ++ after), isSignificant (trim line) = true := by
  obtain ⟨header, inner, closing, rfl, encloses⟩ := isBlock
  refine ⟨header, by simp, ?_⟩
  have opens : trim header = openingLine https := encloses.opens
  rw [opens]
  rfl

end Graft

/-- In a text with given lines just one `service https` block opens. -/
theorem Preserved.only {uploaded running : String}
    {items : List (List Char)} (some' : items ≠ [])
    (plain : ∀ line ∈ items, '\n' ∉ line)
    (preserved : Preserved uploaded running (String.ofList (unlines items))) :
    ∃ front, ∀ other, config.Opening [service] https items other ↔
      other = front := by
  obtain ⟨front, block, back, split, blocks, kept, only⟩ := preserved.parts
  rw [String.toList_ofList] at split
  obtain ⟨line, member, -⟩ := @significant_graft front back _ blocks.isBlock.1
  have equal := unlines_injective some' (List.ne_nil_of_mem member) plain
    (newline_not_mem_graft kept.isKept blocks.isBlock.2) split
  rw [equal]
  exact ⟨front, only⟩

/-- A running configuration with the key. -/
def keyed : String :=
  "service \x7b\n https \x7b\n  api \x7b\n   keys \x7b\n" ++
    "    id quartzfire \x7b\n    \x7d\n   \x7d\n  \x7d\n \x7d\n\x7d\n"

def keyedBlock : List (List Char) :=
  [" https \x7b", "  api \x7b", "   keys \x7b", "    id quartzfire \x7b",
    "    \x7d", "   \x7d", "  \x7d", " \x7d"].map String.toList

/-- An upload with a block of its own. -/
def stock : String :=
  "service \x7b\n https \x7b\n  port 443\n \x7d\n\x7d\n"

theorem counted_of_significant {items : List (List Char)}
    (significant : ∀ line ∈ items, isSignificant (trim line) = true) :
    ∀ line ∈ items, Counted line := by
  intro line member comment
  rw [significant line member] at comment
  cases comment

/-- A block that begins with the first line is the first one. -/
theorem firstBlock_head {name : NodeName}
    {items inner back : List (List Char)} {header closing : List Char}
    (split : items = header :: (inner ++ closing :: back))
    (encloses : config.Encloses name header inner closing) :
    config.FirstBlock name items [] header inner closing back :=
  ⟨split, Paired.nil, encloses, fun _ _ => Nat.zero_le _⟩

theorem readable_stock : Readable (lines stock.toList)
    ["service \x7b".toList] [['}']] := by
  have block : config.FirstBlock service (lines stock.toList) []
      "service \x7b".toList
      [" https \x7b".toList, "  port 443".toList, " \x7d".toList] ['}'] [] :=
    firstBlock_head (by decide +kernel) ⟨rfl, [], rfl, by decide⟩
  have nested : config.FirstBlock https
      [" https \x7b".toList, "  port 443".toList, " \x7d".toList] []
      " https \x7b".toList ["  port 443".toList] " \x7d".toList [] :=
    firstBlock_head rfl ⟨rfl, [], rfl, by decide⟩
  exact .within (counted_of_significant (by decide +kernel)) block nested

theorem keyed_service : config.FirstBlock service (lines keyed.toList) []
    "service \x7b".toList keyedBlock ['}'] [] :=
  firstBlock_head (by decide +kernel) ⟨rfl, [], rfl, by decide +kernel⟩

theorem keyed_https : config.FirstBlock https keyedBlock []
    " https \x7b".toList (keyedBlock.tail.dropLast) " \x7d".toList [] :=
  firstBlock_head (by decide +kernel) ⟨rfl, [], rfl, by decide +kernel⟩

theorem readable_keyed : Readable (lines keyed.toList)
    ["service \x7b".toList] [['}']] :=
  .within (counted_of_significant (by decide +kernel)) keyed_service keyed_https

theorem not_opening {items : List (List Char)} {path : List NodeName}
    {name : NodeName} (absent : ∀ line ∈ items, trim line ≠ openingLine name)
    (other : List (List Char)) : ¬ config.Opening path name items other := by
  rintro ⟨-, header, back, rfl, opens⟩
  exact absent header (by simp) opens

/-- An upload with a comment that leaves a brace open. -/
def commented : String :=
  "service \x7b\n // old \x7b setting\n https \x7b\n  port 443\n \x7d\n\x7d\n"

end QuartzFire.Guard
