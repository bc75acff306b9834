import QuartzFire.Foundation.IntervalCover
import QuartzFire.Geolocation.Collapse

/-!
# The blocks of a collapsed list

A list without an IPv6 network of length zero collapses to the least cover of
its strict networks.  Such a network has more addresses than 128 bits count.
-/

namespace QuartzFire.Geolocation

open IntervalCover
open Nft (Family)

/-! ## The largest block -/

theorem le_trailingZeros {bits number other : Nat} :
    other ≤ trailingZeros bits number ↔ other ≤ bits ∧ 2 ^ other ∣ number := by
  induction bits generalizing number other with
  | zero =>
      rw [trailingZeros]
      constructor
      · intro zero
        rw [Nat.le_zero.mp zero]
        exact ⟨Nat.le_refl _, Nat.one_dvd _⟩
      · exact fun both => both.1
  | succ bits ih =>
      rw [trailingZeros]
      cases other with
      | zero => simp
      | succ other =>
          split
          · rename_i odd
            refine iff_of_false (by omega) fun both => ?_
            have even : 2 ∣ number := by
              refine Nat.dvd_trans ?_ both.2
              exact Nat.dvd_of_pow_dvd (Nat.succ_le_succ (Nat.zero_le other))
                (Nat.dvd_refl _)
            omega
          · rename_i even
            have twice : number = 2 * (number / 2) := by omega
            have halves : 2 ^ (other + 1) ∣ number ↔ 2 ^ other ∣ number / 2 := by
              conv_lhs => rw [twice, Nat.pow_succ, Nat.mul_comm]
              exact Nat.mul_dvd_mul_iff_left (by omega)
            rw [halves, Nat.add_le_add_iff_right, Nat.add_le_add_iff_right, ih]

theorem totalBits_le (family : Family) : totalBits family ≤ 128 := by
  cases family <;> decide

theorem two_pow_totalBits_le (family : Family) :
    2 ^ totalBits family ≤ 2 ^ 128 :=
  Nat.pow_le_pow_right (by omega) (totalBits_le family)

section Covering

variable {family : Family} {start stop : Nat}

theorem blockBits_ok (ordered : start ≤ stop)
    (bounded : stop < 2 ^ totalBits family) :
    ∃ k, blockBits family start stop = .ok k ∧ k ≤ totalBits family ∧
      Largest start stop k := by
  have whole := two_pow_totalBits_le family
  have fits : ∃ fit, fitBits (stop - start) = .ok fit ∧
      ∀ other, other ≤ fit ↔ 2 ^ other ≤ stop - start + 1 := by
    rw [fitBits]
    split
    · rename_i all
      refine ⟨128, rfl, fun other => ?_⟩
      rw [all, u128Max, Nat.sub_add_cancel (Nat.one_le_two_pow)]
      exact (Nat.pow_le_pow_iff_right (by omega)).symm
    · rename_i fewer
      rw [u128Max] at fewer
      refine ⟨(stop - start + 1).log2, ?_, fun other => ?_⟩
      · rw [checkedAdd, if_pos (by rw [u128Max]; omega)]
        rfl
      · exact Nat.le_log2 (by omega)
  obtain ⟨fit, computed, spans⟩ := fits
  refine ⟨min (min (min (trailingZeros 128 start) (totalBits family)) fit)
    (totalBits family), ?_, Nat.min_le_right _ _, fun other => ?_⟩
  · simp only [blockBits, checkedSub, if_pos ordered, bind, Except.bind,
      computed]
  · simp only [Nat.le_min, le_trailingZeros, spans]
    constructor
    · rintro ⟨⟨⟨⟨_, aligned⟩, _⟩, inside⟩, _⟩
      exact ⟨aligned, by omega⟩
    · rintro ⟨aligned, inside⟩
      have small : other ≤ totalBits family := by
        apply (Nat.pow_le_pow_iff_right (Nat.one_lt_two)).mp
        omega
      exact ⟨⟨⟨⟨small.trans (totalBits_le family), aligned⟩, small⟩, by omega⟩,
        small⟩

def blockText (family : Family) (block : Block) : String :=
  formatCidr family block.start (totalBits family - block.bits)

/-- Between numbers of the family's width nothing overflows, and the blocks are
the largest one after the other. -/
theorem cover_ok (ordered : start ≤ stop)
    (bounded : stop < 2 ^ totalBits family) :
    ∃ blocks, cover family start stop = .ok (blocks.map (blockText family)) ∧
      Greedy stop start blocks := by
  have whole := two_pow_totalBits_le family
  induction left : stop + 1 - start using Nat.strong_induction_on
    generalizing start with
  | _ left ih =>
      obtain ⟨k, computed, small, largest⟩ := blockBits_ok ordered bounded
      have inside := ((largest k).mp (Nat.le_refl k)).2
      rw [cover, computed]
      simp only [checkedSub, if_pos small]
      split
      · rename_i all
        subst all
        exact ⟨[⟨start, 128⟩], rfl, .last largest (by omega)⟩
      · rename_i fewer
        have shifts : shiftOne k = .ok (2 ^ k) := by
          have bits := totalBits_le family
          rw [shiftOne, if_pos (by omega)]
        split
        · rename_i overflow same
          rw [shifts] at same
          cases same
        · rename_i step same
          rw [shifts] at same
          cases same
          split
          · rename_i more
            have positive := Nat.two_pow_pos k
            obtain ⟨blocks, rest, greedy⟩ :=
              ih (stop + 1 - (start + 2 ^ k)) (by omega) more.2 rfl
            rw [rest]
            exact ⟨⟨start, k⟩ :: blocks, rfl, .next largest greedy⟩
          · rename_i done
            rw [u128Max] at done
            exact ⟨[⟨start, k⟩], rfl, .last largest (by omega)⟩

end Covering

theorem coverAll_ok {family : Family} {ranges : List (Nat × Nat)}
    (proper : ∀ range ∈ ranges, range.1 ≤ range.2)
    (bounded : ∀ range ∈ ranges, range.2 < 2 ^ totalBits family) :
    ∃ blocks, coverAll family ranges = .ok (blocks.map (blockText family)) ∧
      Covered ranges blocks := by
  induction ranges with
  | nil => exact ⟨[], rfl, .nil⟩
  | cons range ranges ih =>
      rw [List.forall_mem_cons] at proper bounded
      obtain ⟨blocks, first, greedy⟩ := cover_ok proper.1 bounded.1
      obtain ⟨more, rest, covered⟩ := ih proper.2 bounded.2
      refine ⟨blocks ++ more, ?_, .cons greedy covered⟩
      simp only [coverAll, first, rest, bind, Except.bind, List.map_append]

/-! ## Strict networks -/

/-- The first and the last address of a network whose bits behind its length are
zero. -/
def strictRange (family : Family) (entry : String) : Option (Nat × Nat) :=
  (addressAndLength family entry).bind fun (addrS, len) =>
    (addressValue family addrS).bind fun addr =>
      if len ≤ totalBits family ∧ 2 ^ (totalBits family - len) ∣ addr then
        some (addr, addr + (2 ^ (totalBits family - len) - 1))
      else none

/-- An IPv6 address with a length of zero. -/
def ZeroLength (family : Family) (entry : String) : Prop :=
  family = .v6 ∧ ∃ addrS addr,
    addressAndLength family entry = some (addrS, 0) ∧
      addressValue family addrS = some addr

theorem last_lt {width len addr : Nat} (short : len ≤ width)
    (below : addr < 2 ^ width) (aligned : 2 ^ (width - len) ∣ addr) :
    addr + (2 ^ (width - len) - 1) < 2 ^ width := by
  obtain ⟨count, rfl⟩ := aligned
  have positive := Nat.two_pow_pos (width - len)
  have power : 2 ^ width = 2 ^ (width - len) * 2 ^ len := by
    rw [← Nat.pow_add, Nat.sub_add_cancel short]
  rw [power] at below ⊢
  have next : count + 1 ≤ 2 ^ len := Nat.lt_of_mul_lt_mul_left below
  have whole := Nat.mul_le_mul_left (2 ^ (width - len)) next
  rw [Nat.mul_add_one] at whole
  omega

theorem strictRange_bounds {family : Family} {entry : String}
    {range : Nat × Nat} (strict : strictRange family entry = some range) :
    range.1 ≤ range.2 ∧ range.2 < 2 ^ totalBits family := by
  rw [strictRange] at strict
  obtain ⟨⟨addrS, len⟩, _, strict⟩ := Option.bind_eq_some_iff.mp strict
  obtain ⟨addr, read, strict⟩ := Option.bind_eq_some_iff.mp strict
  split at strict
  · rename_i network
    cases strict
    exact ⟨Nat.le_add_right _ _,
      last_lt network.1 (addressValue_lt read) network.2⟩
  · cases strict

theorem sizeMinusOne_ok {hostBits : Nat} (short : hostBits < 128) :
    sizeMinusOne hostBits = .ok (2 ^ hostBits - 1) := by
  rw [sizeMinusOne]
  split
  · rename_i zero
    rw [zero]
    rfl
  · have positive := Nat.two_pow_pos hostBits
    simp only [shiftOne, if_pos short, Except.bind, checkedSub]
    exact if_pos positive

theorem parseStrict_ok {family : Family} {entry : String}
    (other : ¬ ZeroLength family entry) :
    parseStrict family entry = .ok (strictRange family entry) := by
  rw [parseStrict, strictRange]
  cases parts : addressAndLength family entry with
  | none => rfl
  | some both =>
      obtain ⟨addrS, len⟩ := both
      rw [Option.bind_some]
      dsimp only
      cases read : addressValue family addrS with
      | none =>
          rw [Option.bind_none]
          exact ite_self _
      | some addr =>
          rw [Option.bind_some]
          split
          · rename_i long
            rw [if_neg fun both => Nat.not_le_of_gt long both.1]
          · rename_i long
            have short := Nat.le_of_not_gt long
            have hostBits : totalBits family - len < 128 := by
              by_contra all
              apply other
              cases family with
              | v4 =>
                  rw [totalBits] at all
                  omega
              | v6 =>
                  rw [totalBits] at all
                  have zero : len = 0 := by omega
                  exact ⟨rfl, addrS, addr, by rw [parts, zero], read⟩
            simp only [checkedSub, if_pos short, sizeMinusOne_ok hostBits, bind,
              Except.bind, Nat.and_two_pow_sub_one_eq_mod, ne_eq, ite_not]
            by_cases aligned : 2 ^ (totalBits family - len) ∣ addr
            · have below := last_lt short (addressValue_lt read) aligned
              have whole := two_pow_totalBits_le family
              rw [if_pos (Nat.mod_eq_zero_of_dvd aligned),
                if_pos ⟨short, aligned⟩, checkedAdd, if_pos]
              · rfl
              · rw [u128Max]
                omega
            · rw [if_neg fun zero => aligned (Nat.dvd_of_mod_eq_zero zero),
                if_neg fun both => aligned both.2]

/-- The shift by all 128 bits overflows. -/
theorem parseStrict_zeroLength {family : Family} {entry : String}
    (zero : ZeroLength family entry) :
    parseStrict family entry = .error .shift := by
  obtain ⟨rfl, addrS, addr, parts, read⟩ := zero
  rw [parseStrict, parts]
  dsimp only
  rw [read]
  rfl

theorem parseAll_ok {family : Family} {elements : List String}
    (others : ∀ element ∈ elements, ¬ ZeroLength family element) :
    parseAll family elements = .ok (elements.filterMap (strictRange family)) := by
  induction elements with
  | nil => rfl
  | cons element rest ih =>
      rw [List.forall_mem_cons] at others
      simp only [parseAll, parseStrict_ok others.1, ih others.2, bind,
        Except.bind, List.filterMap_cons]
      cases strictRange family element <;> rfl

theorem parseAll_zeroLength {family : Family} {elements : List String}
    {element : String} (member : element ∈ elements)
    (zero : ZeroLength family element) :
    ∃ overflow, parseAll family elements = .error overflow := by
  induction elements with
  | nil => cases member
  | cons first rest ih =>
      rw [parseAll]
      rcases List.mem_cons.mp member with rfl | later
      · rw [parseStrict_zeroLength zero]
        exact ⟨_, rfl⟩
      · obtain ⟨overflow, fails⟩ := ih later
        rw [fails]
        cases parseStrict family first with
        | error earlier => exact ⟨earlier, rfl⟩
        | ok range => exact ⟨overflow, rfl⟩

/-! ## Merging -/

theorem mergeRange_eq_absorb {merged : List (Nat × Nat)} {range : Nat × Nat}
    (bounded : range.1 ≤ u128Max) :
    mergeRange merged range = absorb merged range := by
  rw [mergeRange, absorb]
  cases merged.getLast? with
  | none => rfl
  | some last =>
      have same : range.1 ≤ min (last.2 + 1) u128Max ↔ range.1 ≤ last.2 + 1 := by
        rw [Nat.le_min]
        exact and_iff_left bounded
      simp only [same]

theorem foldl_mergeRange {ranges : List (Nat × Nat)}
    (bounded : ∀ range ∈ ranges, range.1 ≤ u128Max)
    (merged : List (Nat × Nat)) :
    ranges.foldl mergeRange merged = ranges.foldl absorb merged := by
  induction ranges generalizing merged with
  | nil => rfl
  | cons range ranges ih =>
      rw [List.forall_mem_cons] at bounded
      rw [List.foldl_cons, List.foldl_cons, mergeRange_eq_absorb bounded.1,
        ih bounded.2]

instance : Std.Total rangeLe where
  total left right := by
    rw [rangeLe, rangeLe]
    omega

instance : IsTrans (Nat × Nat) rangeLe where
  trans left middle right := by
    rw [rangeLe, rangeLe, rangeLe]
    omega

/-- Sorted and merged, the ranges have a number between each and the next. -/
theorem merged_ranges {ranges : List (Nat × Nat)}
    (proper : ∀ range ∈ ranges, range.1 ≤ range.2)
    (bounded : ∀ range ∈ ranges, range.2 ≤ u128Max) :
    Merged ranges ((ranges.insertionSort rangeLe).foldl mergeRange []) := by
  have member : ∀ range, range ∈ ranges.insertionSort rangeLe ↔ range ∈ ranges :=
    fun range => (List.perm_insertionSort rangeLe ranges).mem_iff
  have starts : (ranges.insertionSort rangeLe).Pairwise
      fun left right => left.1 ≤ right.1 := by
    apply (List.pairwise_insertionSort rangeLe ranges).imp
    intro left right ordered
    rw [rangeLe] at ordered
    omega
  have whole := merged_foldl starts fun range inSorted =>
    proper range ((member range).mp inSorted)
  rw [foldl_mergeRange fun range inSorted =>
    (proper range ((member range).mp inSorted)).trans
      (bounded range ((member range).mp inSorted))]
  refine ⟨whole.gaps, whole.proper, fun range inMerged => ?_, fun point => ?_⟩
  · obtain ⟨source, inSorted, same⟩ := whole.starts range inMerged
    exact ⟨source, (member source).mp inSorted, same⟩
  · rw [whole.within]
    simp only [Within, member]

/-! ## The collapsed list -/

/-- Some strict network of the list has the address. -/
def Listed (family : Family) (elements : List String) (point : Nat) : Prop :=
  ∃ element ∈ elements, ∃ range, strictRange family element = some range ∧
    range.1 ≤ point ∧ point ≤ range.2

/-- Where nothing overflows, the blocks are those of the listed addresses: in
order, apart from one another and without two halves of a larger block. -/
theorem collapse_exact (family : Family) (elements : List String) :
    (∃ blocks,
      collapse elements family = .ok (blocks.map (blockText family)) ∧
        Minimal (totalBits family) (Listed family elements) blocks) ↔
      ∀ element ∈ elements, ¬ ZeroLength family element := by
  constructor
  · rintro ⟨blocks, computed, _⟩ element member zero
    obtain ⟨overflow, fails⟩ := parseAll_zeroLength member zero
    rw [collapse, fails] at computed
    cases computed
  · intro others
    have strict : ∀ range ∈ elements.filterMap (strictRange family),
        range.1 ≤ range.2 ∧ range.2 < 2 ^ totalBits family := by
      intro range member
      obtain ⟨element, _, parsed⟩ := List.mem_filterMap.mp member
      exact strictRange_bounds parsed
    have whole := two_pow_totalBits_le family
    have merged := merged_ranges (fun range member => (strict range member).1)
      fun range member =>
        Nat.le_sub_one_of_lt ((strict range member).2.trans_le whole)
    have bounded : ∀ range ∈ ((elements.filterMap
        (strictRange family)).insertionSort rangeLe).foldl mergeRange [],
        range.2 < 2 ^ totalBits family := by
      intro range member
      have positive := Nat.two_pow_pos (totalBits family)
      have last : range.2 ≤ 2 ^ totalBits family - 1 := by
        refine merged.last_le (fun source among => ?_) member
        exact Nat.le_sub_one_of_lt (strict source among).2
      omega
    obtain ⟨blocks, computed, covered⟩ := coverAll_ok merged.proper bounded
    refine ⟨blocks, ?_, ?_⟩
    · rw [collapse, parseAll_ok others]
      exact computed
    · have minimal := covered.minimal merged.gaps bounded
      refine ⟨minimal.aligned, minimal.sorted, minimal.apart, fun point => ?_⟩
      rw [minimal.exact', merged.within]
      simp only [Within, Listed, List.mem_filterMap]
      constructor
      · rintro ⟨range, ⟨element, member, parsed⟩, has⟩
        exact ⟨element, member, range, parsed, has⟩
      · rintro ⟨element, member, range, parsed, has⟩
        exact ⟨range, ⟨element, member, parsed⟩, has⟩

theorem whole_ipv6_overflows :
    ¬ ∃ blocks : List Block, collapse ["::/0"] .v6 = .ok (blocks.map (blockText .v6)) := by
  rintro ⟨blocks, computed⟩
  have fails : parseAll .v6 ["::/0"] = .error .shift := by decide
  rw [collapse, fails] at computed
  cases computed

end QuartzFire.Geolocation
