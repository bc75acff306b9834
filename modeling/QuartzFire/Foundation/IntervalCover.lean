import Mathlib.Algebra.Order.Ring.Nat
import Mathlib.Data.List.Induction

/-!
# Covering ranges by aligned blocks

Ranges of numbers that are merged in the order of their starts, and the cover of
a range by blocks of a power of two, each as large as its alignment and what is
left of the range allow.
-/

namespace QuartzFire.IntervalCover

/-! ## Merging -/

/-- Some range, from its first to its last number, has the number. -/
def Within (ranges : List (Nat × Nat)) (point : Nat) : Prop :=
  ∃ range ∈ ranges, range.1 ≤ point ∧ point ≤ range.2

/-- Extend the last range where the next overlaps or touches it. -/
def absorb (merged : List (Nat × Nat)) (range : Nat × Nat) :
    List (Nat × Nat) :=
  match merged.getLast? with
  | some last =>
      if range.2 ≤ last.2 then merged
      else if range.1 ≤ last.2 + 1 then
        merged.dropLast ++ [(last.1, range.2)]
      else merged ++ [range]
  | none => merged ++ [range]

/-- Merged ranges, with a number between each and the next, that have the
numbers of some ranges and start where one of them does. -/
structure Merged (ranges merged : List (Nat × Nat)) : Prop where
  gaps : merged.Pairwise fun left right => left.2 + 1 < right.1
  proper : ∀ range ∈ merged, range.1 ≤ range.2
  starts : ∀ range ∈ merged, ∃ source ∈ ranges, source.1 = range.1
  within : ∀ point, Within merged point ↔ Within ranges point

theorem within_append {front back : List (Nat × Nat)} {point : Nat} :
    Within (front ++ back) point ↔ Within front point ∨ Within back point := by
  simp only [Within, List.mem_append, or_and_right, exists_or]

theorem within_singleton {range : Nat × Nat} {point : Nat} :
    Within [range] point ↔ range.1 ≤ point ∧ point ≤ range.2 := by
  simp [Within]

namespace Merged

variable {ranges merged : List (Nat × Nat)} {range : Nat × Nat}

/-- No merged range goes further than the ranges do. -/
theorem last_le (whole : Merged ranges merged) {bound : Nat}
    (bounded : ∀ source ∈ ranges, source.2 ≤ bound) (member : range ∈ merged) :
    range.2 ≤ bound := by
  obtain ⟨source, among, _, last⟩ := (whole.within range.2).mp
    ⟨range, member, whole.proper range member, Nat.le_refl _⟩
  exact last.trans (bounded source among)

theorem start_mem (whole : Merged ranges merged) {old : Nat × Nat}
    (member : old ∈ merged) : ∃ source ∈ ranges ++ [range], source.1 = old.1 := by
  obtain ⟨source, among, same⟩ := whole.starts old member
  exact ⟨source, List.mem_append_left _ among, same⟩

/-- One more merged range behind some of those there are. -/
theorem concat (whole : Merged ranges merged) {kept : List (Nat × Nat)}
    {new : Nat × Nat} (sublist : kept.Sublist merged)
    (gap : ∀ old ∈ kept, old.2 + 1 < new.1) (proper : new.1 ≤ new.2)
    (start : ∃ source ∈ ranges ++ [range], source.1 = new.1)
    (within : ∀ point, Within (kept ++ [new]) point ↔
      Within (ranges ++ [range]) point) :
    Merged (ranges ++ [range]) (kept ++ [new]) where
  gaps := by
    rw [List.pairwise_append]
    refine ⟨whole.gaps.sublist sublist, List.pairwise_singleton _ _, ?_⟩
    intro old member other same
    rw [List.mem_singleton.mp same]
    exact gap old member
  proper := by
    rw [List.forall_mem_append, List.forall_mem_singleton]
    exact ⟨fun old member => whole.proper old (sublist.subset member), proper⟩
  starts := by
    rw [List.forall_mem_append, List.forall_mem_singleton]
    exact ⟨fun old member => whole.start_mem (sublist.subset member), start⟩
  within := within

theorem absorb (whole : Merged ranges merged) (proper : range.1 ≤ range.2)
    (later : ∀ earlier ∈ ranges, earlier.1 ≤ range.1) :
    Merged (ranges ++ [range]) (absorb merged range) := by
  have self : ∃ source ∈ ranges ++ [range], source.1 = range.1 :=
    ⟨range, by simp, rfl⟩
  have within : ∀ point, Within (merged ++ [range]) point ↔
      Within (ranges ++ [range]) point := by
    intro point
    rw [within_append, within_append, whole.within]
  rcases List.eq_nil_or_concat merged with rfl | ⟨front, last, rfl⟩
  · exact whole.concat (List.Sublist.refl _) (by simp) proper self within
  · rw [List.concat_eq_append] at whole within ⊢
    have member : last ∈ front ++ [last] := by simp
    have gaps := List.pairwise_append.mp whole.gaps
    have before : last.1 ≤ range.1 := by
      obtain ⟨source, among, same⟩ := whole.starts last member
      rw [← same]
      exact later source among
    have lastProper := whole.proper last member
    have parts : ∀ point, Within (ranges ++ [range]) point ↔
        (Within front point ∨ last.1 ≤ point ∧ point ≤ last.2) ∨
          range.1 ≤ point ∧ point ≤ range.2 := by
      intro point
      rw [← within, within_append, within_append, within_singleton,
        within_singleton]
    rw [IntervalCover.absorb, List.getLast?_concat]
    dsimp only
    split
    · rename_i inside
      refine ⟨whole.gaps, whole.proper, fun old => whole.start_mem, ?_⟩
      intro point
      rw [parts, within_append, within_singleton]
      by_cases earlier : Within front point
      · simp [earlier]
      · simp only [earlier, false_or]
        omega
    · rename_i beyond
      split
      · rename_i touches
        rw [List.dropLast_concat]
        apply whole.concat (List.sublist_append_left _ _)
        · intro old inFront
          exact gaps.2.2 old inFront last (by simp)
        · exact before.trans proper
        · obtain ⟨source, among, same⟩ := whole.starts last member
          exact ⟨source, List.mem_append_left _ among, same⟩
        · intro point
          rw [parts, within_append, within_singleton]
          by_cases earlier : Within front point
          · simp [earlier]
          · simp only [earlier, false_or]
            omega
      · rename_i apart
        apply whole.concat (List.Sublist.refl _) _ proper self within
        rw [List.forall_mem_append, List.forall_mem_singleton]
        refine ⟨fun old inFront => ?_, by omega⟩
        have gap := gaps.2.2 old inFront last (by simp)
        omega

end Merged

/-- Ranges in the order of their starts are merged by absorbing each. -/
theorem merged_foldl {ranges : List (Nat × Nat)}
    (sorted : ranges.Pairwise fun left right => left.1 ≤ right.1)
    (proper : ∀ range ∈ ranges, range.1 ≤ range.2) :
    Merged ranges (ranges.foldl absorb []) := by
  induction ranges using List.reverseRecOn with
  | nil => exact ⟨List.Pairwise.nil, by simp, by simp, by simp [Within]⟩
  | append_singleton ranges range ih =>
      rw [List.pairwise_append] at sorted
      rw [List.foldl_append, List.foldl_cons, List.foldl_nil]
      apply Merged.absorb
      · exact ih sorted.1 fun other member => proper other (by simp [member])
      · exact proper range (by simp)
      · intro earlier member
        exact sorted.2.2 earlier member range (by simp)

/-! ## Blocks -/

/-- The `2 ^ bits` numbers from the start on. -/
structure Block where
  start : Nat
  bits : Nat
  deriving DecidableEq

def Block.Has (block : Block) (point : Nat) : Prop :=
  block.start ≤ point ∧ point < block.start + 2 ^ block.bits

/-- Two blocks are the halves of a block of twice their size. -/
def Block.Siblings (left right : Block) : Prop :=
  left.bits = right.bits ∧ right.start = left.start + 2 ^ left.bits ∧
    2 ^ (left.bits + 1) ∣ left.start

/-- Among the aligned blocks at a start, this is the largest that ends before
the stop. -/
def Largest (start stop bits : Nat) : Prop :=
  ∀ other, other ≤ bits ↔ 2 ^ other ∣ start ∧ start + 2 ^ other ≤ stop + 1

/-- One largest block after the other, up to the stop. -/
inductive Greedy (stop : Nat) : Nat → List Block → Prop where
  | last {start bits : Nat} : Largest start stop bits →
      stop < start + 2 ^ bits → Greedy stop start [⟨start, bits⟩]
  | next {start bits : Nat} {rest : List Block} : Largest start stop bits →
      Greedy stop (start + 2 ^ bits) rest →
      Greedy stop start (⟨start, bits⟩ :: rest)

namespace Greedy

variable {stop start : Nat} {blocks : List Block}

/-- All blocks are aligned and between the start and the stop. -/
theorem fits (greedy : Greedy stop start blocks) :
    ∀ block ∈ blocks, 2 ^ block.bits ∣ block.start ∧ start ≤ block.start ∧
      block.start + 2 ^ block.bits ≤ stop + 1 := by
  induction greedy with
  | last largest _ =>
      rw [List.forall_mem_singleton]
      obtain ⟨aligned, inside⟩ := (largest _).mp (Nat.le_refl _)
      exact ⟨aligned, Nat.le_refl _, inside⟩
  | next largest _ ih =>
      rw [List.forall_mem_cons]
      obtain ⟨aligned, inside⟩ := (largest _).mp (Nat.le_refl _)
      refine ⟨⟨aligned, Nat.le_refl _, inside⟩, ?_⟩
      intro block member
      obtain ⟨aligned', later, inside'⟩ := ih block member
      exact ⟨aligned', by omega, inside'⟩

theorem sorted (greedy : Greedy stop start blocks) :
    blocks.Pairwise fun left right => left.start + 2 ^ left.bits ≤ right.start := by
  induction greedy with
  | last _ _ => exact List.pairwise_singleton _ _
  | next _ rest ih =>
      rw [List.pairwise_cons]
      refine ⟨fun block member => ?_, ih⟩
      exact (rest.fits block member).2.1

theorem covers (greedy : Greedy stop start blocks) (point : Nat) :
    (∃ block ∈ blocks, block.Has point) ↔ start ≤ point ∧ point ≤ stop := by
  induction greedy with
  | last largest ends =>
      have inside := ((largest _).mp (Nat.le_refl _)).2
      simp only [List.mem_singleton, exists_eq_left, Block.Has]
      omega
  | next largest rest ih =>
      rename_i bits _
      have inside := ((largest _).mp (Nat.le_refl _)).2
      have positive := Nat.two_pow_pos bits
      simp only [List.mem_cons, exists_eq_or_imp]
      rw [ih]
      simp only [Block.Has]
      omega

/-- The left of two siblings was not the largest block. -/
theorem no_siblings (greedy : Greedy stop start blocks) :
    blocks.Pairwise fun left right => ¬ left.Siblings right := by
  induction greedy with
  | last _ _ => exact List.pairwise_singleton _ _
  | next largest rest ih =>
      rw [List.pairwise_cons]
      refine ⟨fun block member siblings => ?_, ih⟩
      obtain ⟨same, follows, aligned⟩ := siblings
      have inside := (rest.fits block member).2.2
      have larger := (largest _).mpr ⟨aligned, by
        rw [Nat.pow_succ]
        dsimp only at same follows ⊢
        rw [follows, ← same] at inside
        omega⟩
      dsimp only at larger
      omega

end Greedy

/-! ## Covers of merged ranges -/

/-- The blocks of each range, one range after the other. -/
inductive Covered : List (Nat × Nat) → List Block → Prop where
  | nil : Covered [] []
  | cons {range : Nat × Nat} {ranges : List (Nat × Nat)}
      {blocks more : List Block} : Greedy range.2 range.1 blocks →
      Covered ranges more → Covered (range :: ranges) (blocks ++ more)

/-- Aligned blocks in order, none of which overlap or are siblings, that have
exactly the numbers in question. -/
structure Minimal (width : Nat) (wanted : Nat → Prop) (blocks : List Block) :
    Prop where
  aligned : ∀ block ∈ blocks, 2 ^ block.bits ∣ block.start ∧
    block.start + 2 ^ block.bits ≤ 2 ^ width
  sorted : blocks.Pairwise fun left right =>
    left.start + 2 ^ left.bits ≤ right.start
  apart : blocks.Pairwise fun left right => ¬ left.Siblings right
  exact' : ∀ point, (∃ block ∈ blocks, block.Has point) ↔ wanted point

theorem Covered.minimal {width : Nat} {ranges : List (Nat × Nat)}
    {blocks : List Block} (covered : Covered ranges blocks)
    (gaps : ranges.Pairwise fun left right => left.2 + 1 < right.1)
    (bounded : ∀ range ∈ ranges, range.2 < 2 ^ width) :
    Minimal width (Within ranges) blocks := by
  induction covered with
  | nil => exact ⟨by simp, List.Pairwise.nil, List.Pairwise.nil, by simp [Within]⟩
  | cons greedy rest ih =>
      rename_i range ranges blocks more
      rw [List.pairwise_cons] at gaps
      rw [List.forall_mem_cons] at bounded
      have whole := ih gaps.2 bounded.2
      have later : ∀ block ∈ more, range.2 + 1 < block.start := by
        intro block member
        have has : block.Has block.start :=
          ⟨Nat.le_refl _, Nat.lt_add_of_pos_right (Nat.two_pow_pos _)⟩
        obtain ⟨other, among, first, _⟩ :=
          (whole.exact' block.start).mp ⟨block, member, has⟩
        exact (gaps.1 other among).trans_le first
      refine ⟨?_, ?_, ?_, ?_⟩
      · rw [List.forall_mem_append]
        refine ⟨fun block member => ?_, whole.aligned⟩
        obtain ⟨aligned, _, inside⟩ := greedy.fits block member
        exact ⟨aligned, by omega⟩
      · rw [List.pairwise_append]
        refine ⟨greedy.sorted, whole.sorted, fun left inBlocks right inMore => ?_⟩
        have inside := (greedy.fits left inBlocks).2.2
        have next := later right inMore
        omega
      · rw [List.pairwise_append]
        refine ⟨greedy.no_siblings, whole.apart,
          fun left inBlocks right inMore siblings => ?_⟩
        have inside := (greedy.fits left inBlocks).2.2
        have next := later right inMore
        have follows := siblings.2.1
        omega
      · intro point
        simp only [List.mem_append, or_and_right, exists_or, greedy.covers point,
          whole.exact' point, Within, List.mem_cons, exists_eq_left]

end QuartzFire.IntervalCover
