import QuartzFire.AppControl.Nftables

/-!
# Writes and what they leave alone

A layout is accepted exactly if its fields lie in the mark and are pairwise
disjoint.  Each of the two writes then changes the bits of its own fields only.
-/

namespace QuartzFire.AppControl

namespace Layout

variable {layout : Layout}

/-- The fields of a valid layout, counted one by one, fill their union. -/
theorem Valid.card_bits (valid : layout.Valid) :
    layout.qfMask.bits.card = 2 + layout.appBits + layout.actionBits := by
  have bits : Disjoint ({layout.classifiedBit} : Finset Nat)
      {layout.blockBit} :=
    Finset.disjoint_singleton.mpr valid.classified_ne_block
  have outside : ∀ {bit start width : Nat},
      (bit < start ∨ start + width ≤ bit) →
        Disjoint ({bit} : Finset Nat) (Finset.Ico start (start + width)) := by
    intro bit start width apart
    rw [Finset.disjoint_singleton_left, Finset.mem_Ico]
    omega
  have fields : Disjoint
      (Finset.Ico layout.appShift (layout.appShift + layout.appBits))
      (Finset.Ico layout.actionShift
        (layout.actionShift + layout.actionBits)) := by
    have apart := valid.app_action
    rw [Finset.disjoint_left]
    intro bit inside other
    rw [Finset.mem_Ico] at inside other
    omega
  rw [layout.qfMask_bits valid.classified_lt valid.block_lt valid.app_le
      valid.action_le,
    Finset.card_union_of_disjoint, Finset.card_union_of_disjoint,
    Finset.card_union_of_disjoint bits, Finset.card_singleton,
    Finset.card_singleton, Nat.card_Ico, Nat.card_Ico]
  · omega
  · rw [Finset.disjoint_union_left]
    exact ⟨outside valid.classified_app, outside valid.block_app⟩
  · rw [Finset.disjoint_union_left, Finset.disjoint_union_left]
    exact ⟨⟨outside valid.classified_action, outside valid.block_action⟩,
      fields⟩

theorem validate_of_valid (valid : layout.Valid) : layout.validate = .ok () := by
  have counted := valid.card_bits
  obtain ⟨classified, block, app_pos, app_le, action_pos, action_le, _⟩ := valid
  simp only [validate]
  rw [if_neg (by omega), if_neg (by omega), if_neg (by omega),
    if_neg (by omega), if_neg (by omega), if_neg (by omega),
    if_neg (by rw [counted]; exact fun differ => differ rfl)]
  rfl

/-- What `validate` accepts. -/
theorem validate_iff : layout.validate = .ok () ↔ layout.Valid :=
  ⟨valid_of_validate, validate_of_valid⟩

/-! ## The verdict -/

/-- A bit of one of the fields that a verdict writes. -/
def InVerdict (layout : Layout) (bit : Nat) : Prop :=
  bit = layout.classifiedBit ∨ bit = layout.blockBit ∨
    (layout.appShift ≤ bit ∧ bit < layout.appShift + layout.appBits)

def InAction (layout : Layout) (bit : Nat) : Prop :=
  layout.actionShift ≤ bit ∧ bit < layout.actionShift + layout.actionBits

theorem Valid.not_inVerdict (valid : layout.Valid) {bit : Nat}
    (inside : layout.InAction bit) : ¬ layout.InVerdict bit := by
  obtain ⟨first, last⟩ := inside
  have apart := valid.app_action
  have classified := valid.classified_action
  have block := valid.block_action
  rintro (rfl | rfl | inApp) <;> omega

/-- A verdict leaves every bit outside its fields as it was. -/
theorem getLsbD_encodeVerdict_outside (appId : Nat) (block : Bool) (mark : Mark)
    {bit : Nat} (outside : ¬ layout.InVerdict bit) :
    ((layout.encodeVerdict appId block).apply mark).getLsbD bit =
      mark.getLsbD bit := by
  by_cases bound : bit < 32
  · simp only [InVerdict, not_or] at outside
    obtain ⟨notClassified, notBlock, notApp⟩ := outside
    have beside : bit < layout.appShift ∨
        layout.appShift + layout.appBits ≤ bit := by omega
    have notInApp : layout.appMask.getLsbD bit = false := by
      simp only [getLsbD_appMask, Bool.and_eq_false_iff, decide_eq_false_iff_not]
      omega
    rw [getLsbD_encodeVerdict _ _ _ _ bound,
      testBit_encodedAppId_outside appId beside, notInApp]
    simp [notClassified, notBlock]
  · rw [BitVec.getLsbD_of_ge _ _ (by omega), BitVec.getLsbD_of_ge _ _ (by omega)]

/-- What is written of an app id of 16 bits. -/
theorem encodedAppId_eq (appId : UInt16) :
    layout.encodedAppId appId.toNat =
      if appId.toNat < 2 ^ layout.appBits then appId.toNat else 0 := by
  have small : appId.toNat < 2 ^ 16 := appId.toNat_lt
  rw [encodedAppId, maxAppId]
  by_cases wide : 16 ≤ layout.appBits
  · have all : (2 ^ layout.appBits - 1) % 2 ^ 16 = 2 ^ 16 - 1 := by
      obtain ⟨more, same⟩ := Nat.exists_eq_add_of_le wide
      have positive : 0 < 2 ^ more := Nat.two_pow_pos more
      rw [same, pow_add]
      omega
    have fits : appId.toNat < 2 ^ layout.appBits :=
      Nat.lt_of_lt_of_le small (Nat.pow_le_pow_right (by decide) wide)
    rw [all, if_neg (by omega), if_pos fits]
  · have narrow : 2 ^ layout.appBits ≤ 2 ^ 16 :=
      Nat.pow_le_pow_right (by decide) (by omega)
    have positive : 0 < 2 ^ layout.appBits := Nat.two_pow_pos _
    rw [Nat.mod_eq_of_lt (by omega)]
    split <;> split <;> omega

/-! ## The action -/

/-- An action's write leaves every bit outside its field as it was. -/
theorem getLsbD_encodeAction_outside {actionId : Nat}
    (bound : actionId ≤ layout.maxActionId) (mark : Mark) {bit : Nat}
    (outside : ¬ layout.InAction bit) :
    ((layout.encodeAction actionId).apply mark).getLsbD bit =
      mark.getLsbD bit := by
  by_cases inWord : bit < 32
  · rw [InAction, not_and_or] at outside
    have fits := lt_of_le_maxActionId bound
    have notWritten : (!(bit < layout.actionShift : Bool) &&
        actionId.testBit (bit - layout.actionShift)) = false := by
      by_cases below : bit < layout.actionShift
      · simp [below]
      · rw [Bool.and_eq_false_iff]
        right
        exact Nat.testBit_lt_two_pow (Nat.lt_of_lt_of_le fits
          (Nat.pow_le_pow_right (by omega) (by omega)))
    have notMasked : layout.actionMask.getLsbD bit = false := by
      simp only [getLsbD_actionMask, Bool.and_eq_false_iff,
        decide_eq_false_iff_not]
      omega
    have offset : bit - layout.actionShift < 32 := by omega
    simp only [encodeAction, MaskedWrite.apply, BitVec.getLsbD_or,
      BitVec.getLsbD_and, BitVec.getLsbD_not, notMasked,
      BitVec.getLsbD_shiftLeft, BitVec.getLsbD_ofNat, inWord, offset]
    simp only [decide_true, Bool.not_false, Bool.and_true, Bool.true_and]
    rw [notWritten, Bool.or_false]
  · rw [BitVec.getLsbD_of_ge _ _ (by omega), BitVec.getLsbD_of_ge _ _ (by omega)]

/-- What is read of a mark's verdict depends on the bits of its fields. -/
theorem decode_verdict_congr (valid : layout.Valid) {left right : Mark}
    (agree : ∀ bit, layout.InVerdict bit →
      left.getLsbD bit = right.getLsbD bit) :
    (layout.decode left).classified = (layout.decode right).classified ∧
      (layout.decode left).block = (layout.decode right).block ∧
      (layout.decode left).appId = (layout.decode right).appId := by
  refine ⟨?_, ?_, ?_⟩
  · rw [decode_classified valid, decode_classified valid]
    exact agree _ (.inl rfl)
  · rw [decode_block valid, decode_block valid]
    exact agree _ (.inr (.inl rfl))
  · have same : left &&& layout.appMask = right &&& layout.appMask := by
      apply BitVec.eq_of_getLsbD_eq
      intro bit _
      rw [BitVec.getLsbD_and, BitVec.getLsbD_and]
      cases inside : layout.appMask.getLsbD bit with
      | false => simp
      | true =>
          simp only [getLsbD_appMask, Bool.and_eq_true,
            decide_eq_true_eq] at inside
          rw [agree bit (.inr (.inr ⟨inside.1.2, inside.2⟩))]
    rw [decode, decode, same]

/-- An action's write reads back, with the verdict that the mark had. -/
theorem decode_encodeAction (valid : layout.Valid) {actionId : Nat}
    (bound : actionId ≤ layout.maxActionId) (mark : Mark) :
    layout.decode ((layout.encodeAction actionId).apply mark) =
      { layout.decode mark with actionId := actionId } := by
  obtain ⟨classified, block, appId⟩ := decode_verdict_congr valid
    (fun bit inside => getLsbD_encodeAction_outside bound mark
      fun inAction => valid.not_inVerdict inAction inside)
  apply MarkState.ext
  · exact classified
  · exact block
  · exact appId
  · exact decode_encodeAction_actionId valid bound mark

end Layout

end QuartzFire.AppControl
