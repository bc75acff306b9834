import QuartzFire.AppControl.MarkCodec
import QuartzFire.Devices.Usage

/-!
# The published mark layout

qfdevd keeps its own copy of qfappd's mark layout, and of the checks on it.  The
two accept the same layouts, and read the same application from a mark.
-/

namespace QuartzFire.Devices

open AppControl

/-- The layout as it is published, with the fields accounting does not read. -/
structure PublishedLayout extends MarkLayout where
  blockBit : Nat
  actionShift : Nat
  actionBits : Nat
  deriving DecidableEq

namespace PublishedLayout

def mask (layout : PublishedLayout) : Mark :=
  1#32 <<< layout.classifiedBit ||| 1#32 <<< layout.blockBit |||
    MarkLayout.fieldMask layout.appBits <<< layout.appShift |||
    MarkLayout.fieldMask layout.actionBits <<< layout.actionShift

def validate (layout : PublishedLayout) : Bool :=
  if 31 < layout.classifiedBit ∨ 31 < layout.blockBit then false
  else if layout.appBits = 0 ∨ 32 < layout.appShift + layout.appBits then false
  else if layout.actionBits = 0 ∨ 32 < layout.actionShift + layout.actionBits
    then false
  else 2 + layout.appBits + layout.actionBits = layout.mask.bits.card

/-- The layout that qfappd publishes. -/
def ofLayout (layout : Layout) : PublishedLayout where
  classifiedBit := layout.classifiedBit
  blockBit := layout.blockBit
  appShift := layout.appShift
  appBits := layout.appBits
  actionShift := layout.actionShift
  actionBits := layout.actionBits

end PublishedLayout

/-! ## The two copies -/

theorem fieldMask_eq {bits : Nat} (narrow : bits ≤ 32) :
    MarkLayout.fieldMask bits = BitVec.ofNat 32 (2 ^ bits - 1) := by
  have positive : 0 < 2 ^ bits := Nat.two_pow_pos bits
  rw [MarkLayout.fieldMask]
  split
  · have all : bits = 32 := by omega
    subst all
    rfl
  · have small : 2 ^ bits < 2 ^ 32 := Nat.pow_lt_pow_right (by decide) (by omega)
    apply BitVec.eq_of_toNat_eq
    rw [BitVec.toNat_sub, BitVec.toNat_shiftLeft, Nat.shiftLeft_eq,
      BitVec.toNat_ofNat, BitVec.toNat_ofNat]
    omega

variable {layout : Layout}

theorem mask_ofLayout (app : layout.appBits ≤ 32)
    (action : layout.actionBits ≤ 32) :
    (PublishedLayout.ofLayout layout).mask = layout.qfMask := by
  rw [PublishedLayout.mask, PublishedLayout.ofLayout, fieldMask_eq app,
    fieldMask_eq action]
  rfl

theorem validate_ofLayout :
    (PublishedLayout.ofLayout layout).validate = true ↔ layout.Valid := by
  constructor
  · intro accepted
    rw [PublishedLayout.validate] at accepted
    split at accepted
    · cases accepted
    · rename_i bits
      split at accepted
      · cases accepted
      · rename_i app
        split at accepted
        · cases accepted
        · rename_i action
          simp only [PublishedLayout.ofLayout, not_or, not_lt] at bits app action
          rw [decide_eq_true_eq, mask_ofLayout (by omega) (by omega)] at accepted
          have counted : 2 + layout.appBits + layout.actionBits =
              layout.qfMask.bits.card := accepted
          apply Layout.valid_of_validate
          simp only [Layout.validate]
          rw [if_neg (by omega), if_neg (by omega), if_neg (by omega),
            if_neg (by omega), if_neg (by omega), if_neg (by omega),
            if_neg (not_not.mpr counted)]
          rfl
  · intro valid
    have counted := valid.card_bits
    obtain ⟨classified, block, app_pos, app_le, action_pos, action_le, _⟩ :=
      valid
    have same : (PublishedLayout.ofLayout layout).mask = layout.qfMask :=
      mask_ofLayout (by omega) (by omega)
    rw [PublishedLayout.validate, same, counted]
    simp only [PublishedLayout.ofLayout]
    rw [if_neg (by omega), if_neg (by omega), if_neg (by omega)]
    exact decide_eq_true trivial

/-- The application is read alike, of marks that are classified. -/
theorem appId_ofLayout (valid : layout.Valid) (mark : Mark) :
    (PublishedLayout.ofLayout layout).appId mark =
      if (layout.decode mark).classified then some (layout.decode mark).appId
      else none := by
  have narrow : layout.appBits ≤ 32 := by
    have := valid.app_le
    omega
  have field : (mark >>> layout.appShift &&&
      MarkLayout.fieldMask layout.appBits).toNat =
        ((mark &&& layout.appMask) >>> layout.appShift).toNat := by
    apply Nat.eq_of_testBit_eq
    intro bit
    rw [Layout.appMask, Layout.testBit_field, fieldMask_eq narrow,
      BitVec.testBit_toNat, BitVec.getLsbD_and, BitVec.getLsbD_ushiftRight,
      BitVec.getLsbD_ofNat, Nat.testBit_two_pow_sub_one]
    have inWord := valid.app_le
    by_cases inside : bit < layout.appBits
    · have bound : bit < 32 := by omega
      have shifted : layout.appShift + bit < 32 := by omega
      simp [inside, bound, shifted]
    · simp [inside]
  simp only [MarkLayout.appId, PublishedLayout.ofLayout, field, Layout.decode,
    Layout.classifiedMask, bne_iff_ne, ne_eq, ite_not]

/-- A verdict or an action that is written into a mark is read back, and no bit
of another field changes; the two daemons accept the same layouts and read the
same applications. -/
theorem mark_codec (layout : Layout) :
    (layout.validate = .ok () ↔ layout.Valid) ∧
    ((PublishedLayout.ofLayout layout).validate = true ↔
      layout.validate = .ok ()) ∧
    (layout.validate = .ok () →
      (∀ (mark : Mark) (appId : UInt16) (block : Bool),
        layout.decode ((layout.encodeVerdict appId.toNat block).apply mark) =
            { classified := true
              block := block
              appId := if appId.toNat < 2 ^ layout.appBits then appId.toNat
                else 0
              actionId := (layout.decode mark).actionId } ∧
          ∀ bit, ¬ layout.InVerdict bit →
            ((layout.encodeVerdict appId.toNat block).apply mark).getLsbD bit =
              mark.getLsbD bit) ∧
      (∀ (mark : Mark) (actionId : Nat), actionId ≤ layout.maxActionId →
        layout.decode ((layout.encodeAction actionId).apply mark) =
            { layout.decode mark with actionId := actionId } ∧
          ∀ bit, ¬ layout.InAction bit →
            ((layout.encodeAction actionId).apply mark).getLsbD bit =
              mark.getLsbD bit) ∧
      ∀ mark : Mark, (PublishedLayout.ofLayout layout).appId mark =
        if (layout.decode mark).classified then some (layout.decode mark).appId
        else none) := by
  refine ⟨Layout.validate_iff,
    validate_ofLayout.trans Layout.validate_iff.symm, fun accepted => ?_⟩
  have valid := Layout.valid_of_validate accepted
  refine ⟨fun mark appId block => ⟨?_, ?_⟩,
    fun mark actionId bound => ⟨?_, ?_⟩, appId_ofLayout valid⟩
  · rw [Layout.decode_encodeVerdict valid, Layout.encodedAppId_eq]
  · exact fun bit => Layout.getLsbD_encodeVerdict_outside _ _ _
  · exact Layout.decode_encodeAction valid bound mark
  · exact fun bit => Layout.getLsbD_encodeAction_outside bound mark

theorem default_mark_codec :
    Layout.default.validate = .ok () ∧
      (Layout.decode .default
          ((Layout.encodeVerdict .default 244 true).apply 0x0005BEEF#32) =
        { classified := true, block := true, appId := 244, actionId := 5 }) ∧
      (PublishedLayout.ofLayout .default).appId 0x87A5BEEF#32 = some 244 := by
  have accepted : Layout.default.validate = .ok () := by decide
  obtain ⟨verdict, _, reads⟩ := (mark_codec .default).2.2 accepted
  refine ⟨accepted, ?_, ?_⟩
  · exact (verdict 0x0005BEEF#32 244 true).1.trans (by decide)
  · exact (reads 0x87A5BEEF#32).trans (by decide)

end QuartzFire.Devices
