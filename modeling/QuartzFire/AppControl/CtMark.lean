import Mathlib.Data.Finset.Card
import Mathlib.Data.Nat.Bitwise
import Mathlib.Order.Interval.Finset.Nat

/-!
# The connection-mark layout and its codec

The mark is shared with other subsystems, so every write is masked to the
fields of a `Layout`.  A validated layout has pairwise disjoint fields; that is
what makes the fields of an encoded verdict readable again.
-/

namespace QuartzFire.AppControl

/-- A packet or connection mark. -/
abbrev Mark := BitVec 32

structure Layout where
  classifiedBit : Nat
  blockBit : Nat
  appShift : Nat
  appBits : Nat
  actionShift : Nat
  actionBits : Nat
  deriving DecidableEq, Repr

/-- A decoded mark. -/
@[ext]
structure MarkState where
  classified : Bool
  block : Bool
  appId : Nat
  actionId : Nat
  deriving DecidableEq, Repr

/-- A masked mark update. -/
structure MaskedWrite where
  value : Mark
  mask : Mark

def MaskedWrite.apply (write : MaskedWrite) (current : Mark) : Mark :=
  (current &&& ~~~write.mask) ||| write.value

inductive LayoutError where
  | bitOutOfRange (bit : Nat)
  | fieldOverflow (field : String) (shift bits : Nat)
  | emptyField (field : String)
  | overlap (expected actual : Nat)
  deriving DecidableEq, Repr

/-- The bits set in a mark. -/
def Mark.bits (mark : Mark) : Finset Nat :=
  (Finset.range 32).filter fun bit => mark.getLsbD bit = true

namespace Layout

def classifiedMask (layout : Layout) : Mark := 1#32 <<< layout.classifiedBit

def blockMask (layout : Layout) : Mark := 1#32 <<< layout.blockBit

def appMask (layout : Layout) : Mark :=
  BitVec.ofNat 32 (2 ^ layout.appBits - 1) <<< layout.appShift

def actionMask (layout : Layout) : Mark :=
  BitVec.ofNat 32 (2 ^ layout.actionBits - 1) <<< layout.actionShift

/-- Every bit qfappd may touch. -/
def qfMask (layout : Layout) : Mark :=
  layout.classifiedMask ||| layout.blockMask ||| layout.appMask |||
    layout.actionMask

def maxAppId (layout : Layout) : Nat := (2 ^ layout.appBits - 1) % 2 ^ 16

def maxActionId (layout : Layout) : Nat := (2 ^ layout.actionBits - 1) % 2 ^ 8

def validate (layout : Layout) : Except LayoutError Unit := do
  if layout.classifiedBit > 31 then
    throw (.bitOutOfRange layout.classifiedBit)
  if layout.blockBit > 31 then
    throw (.bitOutOfRange layout.blockBit)
  if layout.appBits = 0 then
    throw (.emptyField "app_id")
  if layout.appShift + layout.appBits > 32 then
    throw (.fieldOverflow "app_id" layout.appShift layout.appBits)
  if layout.actionBits = 0 then
    throw (.emptyField "action_id")
  if layout.actionShift + layout.actionBits > 32 then
    throw (.fieldOverflow "action_id" layout.actionShift layout.actionBits)
  let expected := 2 + layout.appBits + layout.actionBits
  let actual := layout.qfMask.bits.card
  if expected ≠ actual then
    throw (.overlap expected actual)

/-- Encode a classification verdict; an app id above the field width becomes
unknown, and the action bits are left alone. -/
def encodeVerdict (layout : Layout) (appId : Nat) (block : Bool) :
    MaskedWrite :=
  let app := if appId > layout.maxAppId then 0 else appId
  let value := layout.classifiedMask |||
    (BitVec.ofNat 32 app <<< layout.appShift)
  { value := if block then value ||| layout.blockMask else value
    mask := layout.classifiedMask ||| layout.blockMask ||| layout.appMask }

/-- Encode the action id a binding rule writes. -/
def encodeAction (layout : Layout) (actionId : Nat) : MaskedWrite :=
  { value := BitVec.ofNat 32 actionId <<< layout.actionShift
    mask := layout.actionMask }

def decode (layout : Layout) (mark : Mark) : MarkState :=
  { classified := mark &&& layout.classifiedMask != 0#32
    block := mark &&& layout.blockMask != 0#32
    appId := ((mark &&& layout.appMask) >>> layout.appShift).toNat % 2 ^ 16
    actionId :=
      ((mark &&& layout.actionMask) >>> layout.actionShift).toNat % 2 ^ 8 }

/-- The shipped layout. -/
def default : Layout := ⟨31, 30, 19, 11, 16, 3⟩

/-! ## Which bits the masks have -/

section Masks

variable (layout : Layout) (bit : Nat)

theorem getLsbD_one_shiftLeft (shift : Nat) :
    (1#32 <<< shift).getLsbD bit =
      (decide (bit < 32) && decide (bit = shift)) := by
  rw [BitVec.getLsbD_shiftLeft, BitVec.getLsbD_one]
  by_cases below : bit < shift
  · simp [below, Nat.ne_of_lt below]
  · simp only [below, decide_false, Bool.not_false, Bool.and_true]
    congr 1
    simp only [decide_eq_decide, Nat.zero_lt_succ, decide_true, Bool.true_and]
    omega

@[simp] theorem getLsbD_classifiedMask :
    layout.classifiedMask.getLsbD bit =
      (decide (bit < 32) && decide (bit = layout.classifiedBit)) :=
  getLsbD_one_shiftLeft bit _

@[simp] theorem getLsbD_blockMask :
    layout.blockMask.getLsbD bit =
      (decide (bit < 32) && decide (bit = layout.blockBit)) :=
  getLsbD_one_shiftLeft bit _

/-- A field of `bits` ones shifted into place. -/
theorem getLsbD_field (bits shift : Nat) :
    (BitVec.ofNat 32 (2 ^ bits - 1) <<< shift).getLsbD bit =
      (decide (bit < 32) && decide (shift ≤ bit) &&
        decide (bit < shift + bits)) := by
  rw [BitVec.getLsbD_shiftLeft, BitVec.getLsbD_ofNat,
    Nat.testBit_two_pow_sub_one]
  grind

@[simp] theorem getLsbD_appMask :
    layout.appMask.getLsbD bit =
      (decide (bit < 32) && decide (layout.appShift ≤ bit) &&
        decide (bit < layout.appShift + layout.appBits)) :=
  getLsbD_field bit _ _

@[simp] theorem getLsbD_actionMask :
    layout.actionMask.getLsbD bit =
      (decide (bit < 32) && decide (layout.actionShift ≤ bit) &&
        decide (bit < layout.actionShift + layout.actionBits)) :=
  getLsbD_field bit _ _

end Masks

/-! ## Validated layouts -/

/-- What `validate` accepts, with the overlap check read as disjointness. -/
structure Valid (layout : Layout) : Prop where
  classified_lt : layout.classifiedBit < 32
  block_lt : layout.blockBit < 32
  app_pos : 0 < layout.appBits
  app_le : layout.appShift + layout.appBits ≤ 32
  action_pos : 0 < layout.actionBits
  action_le : layout.actionShift + layout.actionBits ≤ 32
  classified_ne_block : layout.classifiedBit ≠ layout.blockBit
  classified_app : layout.classifiedBit < layout.appShift ∨
    layout.appShift + layout.appBits ≤ layout.classifiedBit
  block_app : layout.blockBit < layout.appShift ∨
    layout.appShift + layout.appBits ≤ layout.blockBit
  classified_action : layout.classifiedBit < layout.actionShift ∨
    layout.actionShift + layout.actionBits ≤ layout.classifiedBit
  block_action : layout.blockBit < layout.actionShift ∨
    layout.actionShift + layout.actionBits ≤ layout.blockBit
  app_action : layout.appShift + layout.appBits ≤ layout.actionShift ∨
    layout.actionShift + layout.actionBits ≤ layout.appShift

/-- The bits of `qfMask`, field by field. -/
theorem qfMask_bits (layout : Layout)
    (classified_lt : layout.classifiedBit < 32)
    (block_lt : layout.blockBit < 32)
    (app_le : layout.appShift + layout.appBits ≤ 32)
    (action_le : layout.actionShift + layout.actionBits ≤ 32) :
    layout.qfMask.bits =
      (({layout.classifiedBit} ∪ {layout.blockBit}) ∪
        Finset.Ico layout.appShift (layout.appShift + layout.appBits)) ∪
        Finset.Ico layout.actionShift
          (layout.actionShift + layout.actionBits) := by
  ext bit
  simp only [Mark.bits, qfMask, Finset.mem_filter, Finset.mem_range,
    BitVec.getLsbD_or, getLsbD_classifiedMask, getLsbD_blockMask,
    getLsbD_appMask, getLsbD_actionMask, Bool.or_eq_true, Bool.and_eq_true,
    decide_eq_true_eq, Finset.mem_union, Finset.mem_singleton,
    Finset.mem_Ico]
  omega

/-- Sets whose union is as large as their sizes add up to do not meet. -/
theorem disjoint_of_card_union {first second third fourth : Finset Nat}
    (counted : (((first ∪ second) ∪ third) ∪ fourth).card =
      first.card + second.card + third.card + fourth.card) :
    Disjoint first second ∧ Disjoint (first ∪ second) third ∧
      Disjoint ((first ∪ second) ∪ third) fourth := by
  have two := Finset.card_union_le first second
  have three := Finset.card_union_le (first ∪ second) third
  have four := Finset.card_union_le ((first ∪ second) ∪ third) fourth
  refine ⟨?_, ?_, ?_⟩ <;> apply Finset.card_union_eq_card_add_card.mp <;> omega

theorem apart_of_disjoint_Ico {start width start' width' : Nat}
    (positive : 0 < width) (positive' : 0 < width')
    (apart : Disjoint (Finset.Ico start (start + width))
      (Finset.Ico start' (start' + width'))) :
    start + width ≤ start' ∨ start' + width' ≤ start := by
  have first : start ∈ Finset.Ico start (start + width) →
      start ∉ Finset.Ico start' (start' + width') :=
    fun inside => Finset.disjoint_left.mp apart inside
  have second : start' ∈ Finset.Ico start' (start' + width') →
      start' ∉ Finset.Ico start (start + width) :=
    fun inside => Finset.disjoint_right.mp apart inside
  simp only [Finset.mem_Ico] at first second
  omega

theorem apart_of_notMem_Ico {bit start width : Nat}
    (outside : bit ∉ Finset.Ico start (start + width)) :
    bit < start ∨ start + width ≤ bit := by
  rw [Finset.mem_Ico] at outside
  omega

/-- The overlap check compares the size of the union of the fields with the
sum of their sizes, so passing it means that no two fields meet. -/
theorem valid_of_validate {layout : Layout}
    (accepted : layout.validate = .ok ()) : layout.Valid := by
  simp only [validate, bind, Except.bind, pure, Except.pure, throw,
    throwThe, MonadExceptOf.throw] at accepted
  split at accepted <;> rename_i classified_le
  · simp at accepted
  split at accepted <;> rename_i block_le
  · simp at accepted
  split at accepted <;> rename_i app_pos
  · simp at accepted
  split at accepted <;> rename_i app_le
  · simp at accepted
  split at accepted <;> rename_i action_pos
  · simp at accepted
  split at accepted <;> rename_i action_le
  · simp at accepted
  split at accepted <;> rename_i counted
  · simp at accepted
  have classified_lt : layout.classifiedBit < 32 := by omega
  have block_lt : layout.blockBit < 32 := by omega
  have app_le : layout.appShift + layout.appBits ≤ 32 := by omega
  have action_le : layout.actionShift + layout.actionBits ≤ 32 := by omega
  have app_pos : 0 < layout.appBits := Nat.pos_of_ne_zero app_pos
  have action_pos : 0 < layout.actionBits := Nat.pos_of_ne_zero action_pos
  rw [not_not, layout.qfMask_bits classified_lt block_lt app_le action_le]
    at counted
  obtain ⟨bits, apps, actions⟩ := disjoint_of_card_union <|
    counted.symm.trans (by
      simp only [Finset.card_singleton, Nat.card_Ico,
        Nat.add_sub_cancel_left])
  rw [Finset.disjoint_union_left] at apps actions
  obtain ⟨fewer, app_action⟩ := actions
  rw [Finset.disjoint_union_left] at fewer
  simp only [Finset.disjoint_singleton_left] at bits apps fewer
  exact
    { classified_lt := classified_lt
      block_lt := block_lt
      app_pos := app_pos
      app_le := app_le
      action_pos := action_pos
      action_le := action_le
      classified_ne_block := fun same => bits (Finset.mem_singleton.mpr same)
      classified_app := apart_of_notMem_Ico apps.1
      block_app := apart_of_notMem_Ico apps.2
      classified_action := apart_of_notMem_Ico fewer.1
      block_action := apart_of_notMem_Ico fewer.2
      app_action := apart_of_disjoint_Ico app_pos action_pos app_action }

theorem default_valid : default.Valid :=
  valid_of_validate (by decide)

/-! ## Reading a verdict back -/

section Verdict

variable {layout : Layout}

/-- Testing a mark against a one-bit mask reads that bit. -/
theorem and_shiftLeft_one_ne_zero (mark : Mark) {bit : Nat} (bound : bit < 32) :
    (mark &&& 1#32 <<< bit != 0#32) = mark.getLsbD bit := by
  rw [Bool.eq_iff_iff, bne_iff_ne, ne_eq]
  constructor
  · intro nonzero
    by_contra clear
    apply nonzero
    apply BitVec.eq_of_getLsbD_eq
    intro other _
    simp only [BitVec.getLsbD_and, getLsbD_one_shiftLeft,
      BitVec.getLsbD_zero, Bool.and_eq_false_iff]
    by_cases same : other = bit
    · subst same
      exact .inl (by simpa using clear)
    · right
      right
      simpa using same
  · intro present zero
    have atBit := congrArg (BitVec.getLsbD · bit) zero
    simp only [BitVec.getLsbD_and, getLsbD_one_shiftLeft, present, bound,
      BitVec.getLsbD_zero, decide_true, Bool.and_true, Bool.true_eq_false]
      at atBit

theorem decode_classified (valid : layout.Valid) (mark : Mark) :
    (layout.decode mark).classified = mark.getLsbD layout.classifiedBit :=
  and_shiftLeft_one_ne_zero mark valid.classified_lt

theorem decode_block (valid : layout.Valid) (mark : Mark) :
    (layout.decode mark).block = mark.getLsbD layout.blockBit :=
  and_shiftLeft_one_ne_zero mark valid.block_lt

/-- A field of a mark, as the number its bits spell. -/
theorem testBit_field (mark : Mark) (shift bits bit : Nat) :
    ((mark &&& BitVec.ofNat 32 (2 ^ bits - 1) <<< shift) >>> shift).toNat.testBit
        bit =
      (decide (bit < bits) && decide (shift + bit < 32) &&
        mark.getLsbD (shift + bit)) := by
  rw [BitVec.testBit_toNat, BitVec.getLsbD_ushiftRight, BitVec.getLsbD_and,
    getLsbD_field]
  grind

/-- Two marks with the same qfappd bits decode alike. -/
theorem decode_congr {left right : Mark}
    (agree : ∀ bit < 32, layout.qfMask.getLsbD bit = true →
      left.getLsbD bit = right.getLsbD bit) :
    layout.decode left = layout.decode right := by
  have field : ∀ mask : Mark,
      (∀ bit < 32, mask.getLsbD bit = true →
        layout.qfMask.getLsbD bit = true) →
      left &&& mask = right &&& mask := by
    intro mask inside
    apply BitVec.eq_of_getLsbD_eq
    intro bit bound
    simp only [BitVec.getLsbD_and]
    cases present : mask.getLsbD bit with
    | true => rw [agree bit bound (inside bit bound present)]
    | false => simp
  have classified := field layout.classifiedMask (by
    intro bit _ inside
    simp [qfMask, inside])
  have block := field layout.blockMask (by
    intro bit _ inside
    simp [qfMask, inside])
  have app := field layout.appMask (by
    intro bit _ inside
    simp [qfMask, inside])
  have action := field layout.actionMask (by
    intro bit _ inside
    simp [qfMask, inside])
  simp only [decode, classified, block, app, action]

/-- The app id an encoded verdict carries. -/
def encodedAppId (layout : Layout) (appId : Nat) : Nat :=
  if appId > layout.maxAppId then 0 else appId

theorem getLsbD_encodeVerdict (appId : Nat) (block : Bool)
    (mark : Mark) (bit : Nat) (bound : bit < 32) :
    ((layout.encodeVerdict appId block).apply mark).getLsbD bit =
      (mark.getLsbD bit && !(layout.classifiedMask.getLsbD bit ||
          layout.blockMask.getLsbD bit || layout.appMask.getLsbD bit) ||
        (layout.classifiedMask.getLsbD bit ||
          !decide (bit < layout.appShift) &&
            (layout.encodedAppId appId).testBit (bit - layout.appShift) ||
          block && layout.blockMask.getLsbD bit)) := by
  have inBounds : bit - layout.appShift < 32 := by omega
  cases block <;>
    simp only [encodeVerdict, MaskedWrite.apply, encodedAppId,
      BitVec.getLsbD_or, BitVec.getLsbD_and, BitVec.getLsbD_not,
      BitVec.getLsbD_shiftLeft, BitVec.getLsbD_ofNat, bound, inBounds,
      decide_true, Bool.true_and, Bool.false_and, Bool.or_false,
      if_true, Bool.false_eq_true, if_false]

theorem testBit_encodedAppId (appId bit : Nat)
    (outside : layout.appBits ≤ bit) :
    (layout.encodedAppId appId).testBit bit = false := by
  apply Nat.testBit_lt_two_pow
  have fits : layout.encodedAppId appId < 2 ^ layout.appBits := by
    have positive : 0 < 2 ^ layout.appBits := Nat.two_pow_pos _
    have capped : layout.maxAppId ≤ 2 ^ layout.appBits - 1 := Nat.mod_le _ _
    unfold encodedAppId
    split <;> omega
  exact Nat.lt_of_lt_of_le fits (Nat.pow_le_pow_right (by omega) outside)

theorem testBit_encodedAppId_outside (appId : Nat) {bit : Nat}
    (outside : bit < layout.appShift ∨ layout.appShift + layout.appBits ≤ bit) :
    (!decide (bit < layout.appShift) &&
      (layout.encodedAppId appId).testBit (bit - layout.appShift)) = false := by
  rcases outside with below | above
  · simp [below]
  · rw [testBit_encodedAppId appId _ (by omega), Bool.and_false]

section Decoded

variable (valid : layout.Valid) (appId : Nat) (block : Bool) (mark : Mark)

include valid

theorem classified_encodeVerdict :
    (layout.decode
      ((layout.encodeVerdict appId block).apply mark)).classified = true := by
  rw [decode_classified valid,
    getLsbD_encodeVerdict _ _ _ _ valid.classified_lt]
  simp only [getLsbD_classifiedMask, valid.classified_lt, decide_true,
    Bool.and_true, Bool.true_or, Bool.or_true]

theorem block_encodeVerdict :
    (layout.decode
      ((layout.encodeVerdict appId block).apply mark)).block = block := by
  rw [decode_block valid, getLsbD_encodeVerdict _ _ _ _ valid.block_lt,
    testBit_encodedAppId_outside appId valid.block_app]
  simp only [getLsbD_classifiedMask, getLsbD_blockMask, valid.block_lt,
    valid.classified_ne_block.symm, decide_true, decide_false,
    Bool.and_true, Bool.and_false, Bool.or_true, Bool.true_or,
    Bool.not_true, Bool.false_or]

theorem appField_encodeVerdict :
    ((((layout.encodeVerdict appId block).apply mark) &&& layout.appMask) >>>
      layout.appShift).toNat = layout.encodedAppId appId := by
  apply Nat.eq_of_testBit_eq
  intro bit
  rw [appMask, testBit_field]
  by_cases inside : bit < layout.appBits
  · have bound : layout.appShift + bit < 32 := by
      have := valid.app_le
      omega
    have notClassified : layout.appShift + bit ≠ layout.classifiedBit := by
      have := valid.classified_app
      omega
    have notBlock : layout.appShift + bit ≠ layout.blockBit := by
      have := valid.block_app
      omega
    rw [getLsbD_encodeVerdict _ _ _ _ bound]
    have notBelow : ¬ layout.appShift + bit < layout.appShift := by omega
    have inApp : layout.appShift + bit < layout.appShift + layout.appBits := by
      omega
    simp only [getLsbD_classifiedMask, getLsbD_blockMask, getLsbD_appMask,
      notClassified, notBlock, notBelow, inApp, inside, bound,
      Nat.le_add_right, Nat.add_sub_cancel_left, decide_true, decide_false,
      Bool.and_false, Bool.and_true, Bool.or_true, Bool.not_true,
      Bool.not_false, Bool.false_or, Bool.or_false, Bool.true_and]
  · rw [testBit_encodedAppId appId bit (by omega)]
    simp [inside]

/-- The action's bits are not written. -/
theorem actionField_encodeVerdict :
    ((layout.encodeVerdict appId block).apply mark) &&& layout.actionMask =
      mark &&& layout.actionMask := by
  apply BitVec.eq_of_getLsbD_eq
  intro bit bound
  rw [BitVec.getLsbD_and, BitVec.getLsbD_and,
    getLsbD_encodeVerdict _ _ _ _ bound]
  by_cases inside : layout.actionShift ≤ bit ∧
      bit < layout.actionShift + layout.actionBits
  · have notClassified : bit ≠ layout.classifiedBit := by
      have := valid.classified_action
      omega
    have notBlock : bit ≠ layout.blockBit := by
      have := valid.block_action
      omega
    have notApp : bit < layout.appShift ∨
        layout.appShift + layout.appBits ≤ bit := by
      have := valid.app_action
      omega
    have notInApp : (decide (bit < 32) && decide (layout.appShift ≤ bit) &&
        decide (bit < layout.appShift + layout.appBits)) = false := by
      simp only [Bool.and_eq_false_iff, decide_eq_false_iff_not]
      omega
    rw [testBit_encodedAppId_outside appId notApp]
    simp only [getLsbD_classifiedMask, getLsbD_blockMask,
      getLsbD_appMask, notClassified, notBlock, decide_false]
    rw [notInApp]
    simp only [Bool.and_false, Bool.or_false, Bool.not_false, Bool.and_true]
  · have notInAction : layout.actionMask.getLsbD bit = false := by
      simp only [getLsbD_actionMask, Bool.and_eq_false_iff,
        decide_eq_false_iff_not]
      omega
    rw [notInAction, Bool.and_false, Bool.and_false]

/-- A verdict applied to any mark reads back as itself, with the action id the
mark already carried. -/
theorem decode_encodeVerdict :
    layout.decode ((layout.encodeVerdict appId block).apply mark) =
      { classified := true
        block := block
        appId := layout.encodedAppId appId
        actionId := (layout.decode mark).actionId } := by
  have small : layout.encodedAppId appId < 2 ^ 16 := by
    have capped : layout.maxAppId < 2 ^ 16 := Nat.mod_lt _ (by decide)
    unfold encodedAppId
    split <;> omega
  apply MarkState.ext
  · exact classified_encodeVerdict valid appId block mark
  · exact block_encodeVerdict valid appId block mark
  · rw [decode, appField_encodeVerdict valid, Nat.mod_eq_of_lt small]
  · simp only [decode, actionField_encodeVerdict valid]

end Decoded

end Verdict

end Layout

end QuartzFire.AppControl
