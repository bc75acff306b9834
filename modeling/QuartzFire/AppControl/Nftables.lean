import QuartzFire.AppControl.Worker

/-!
# The rules of the `inet qfappd` table

The chains of the rendered table, as functions of the connection mark, the
packet mark and the packet.  A base chain that accepts hands the packet to the
next hook; a queued packet resumes there after the worker's verdict.
-/

namespace QuartzFire.AppControl

/-- `<mark> & mask == mask` -/
def Mark.hasAll (mark mask : Mark) : Bool := mark &&& mask == mask

inductive HookVerdict where
  | accept
  | drop
  | queue (mark : Mark)
  deriving DecidableEq, Repr

variable {Payload : Type}

/-- `qf_bindings`: the first matching binding writes its action id and queues
the packet; a packet that already carries a verdict matches none. -/
def bindingsChain (layout : Layout) (packetMark : Mark) (payload : Payload) :
    List (CompiledBinding Payload) → HookVerdict
  | [] => .accept
  | binding :: rest =>
      if packetMark &&& layout.classifiedMask = 0#32 ∧
          binding.matchSpec payload = true then
        .queue ((layout.encodeAction binding.actionId).apply packetMark)
      else bindingsChain layout packetMark payload rest

/-- `forward`: the fast paths, then the bindings for TCP and UDP. -/
def forwardChain (layout : Layout)
    (bindings : List (CompiledBinding Payload)) (isTcpUdp : Payload → Bool)
    (ctMark packetMark : Mark) (payload : Payload) : HookVerdict :=
  if ctMark.hasAll (layout.classifiedMask ||| layout.blockMask) then .drop
  else if ctMark.hasAll layout.classifiedMask then .accept
  else if isTcpUdp payload then
    bindingsChain layout packetMark payload bindings
  else .accept

/-- One conditional or of `qf_persist`. -/
def persistBit (layout : Layout) (packetMark ctMark : Mark) (bit : Nat) :
    Mark :=
  let mask := 1#32 <<< bit
  if layout.qfMask &&& mask != 0#32 ∧ packetMark.hasAll mask then
    ctMark ||| mask
  else ctMark

/-- `qf_persist`: clear qfappd's bits, then one conditional or for each. -/
def persistChain (layout : Layout) (packetMark ctMark : Mark) : Mark :=
  (List.range 32).reverse.foldl (persistBit layout packetMark)
    (ctMark &&& ~~~layout.qfMask)

/-- `forward_verdict`: persist a verdict, then drop on a block.  The new
connection mark, and whether the packet passes. -/
def verdictChain (layout : Layout) (ctMark packetMark : Mark) : Mark × Bool :=
  (if packetMark.hasAll layout.classifiedMask then
    persistChain layout packetMark ctMark else ctMark,
    !packetMark.hasAll (layout.classifiedMask ||| layout.blockMask))

section Tests

variable {layout : Layout}

theorem hasAll_shiftLeft_one (mark : Mark) {bit : Nat} (bound : bit < 32) :
    mark.hasAll (1#32 <<< bit) = mark.getLsbD bit := by
  rw [Mark.hasAll, Bool.eq_iff_iff, beq_iff_eq]
  constructor
  · intro covers
    have atBit := congrArg (BitVec.getLsbD · bit) covers
    simpa only [BitVec.getLsbD_and, Layout.getLsbD_one_shiftLeft, bound,
      decide_true, Bool.and_true] using atBit
  · intro present
    apply BitVec.eq_of_getLsbD_eq
    intro other inBounds
    rw [BitVec.getLsbD_and, Layout.getLsbD_one_shiftLeft]
    by_cases same : other = bit
    · rw [same, present, Bool.true_and]
    · simp only [same, decide_false, Bool.and_false]

theorem hasAll_or (mark left right : Mark) :
    mark.hasAll (left ||| right) = (mark.hasAll left && mark.hasAll right) := by
  simp only [Mark.hasAll]
  rw [Bool.eq_iff_iff, Bool.and_eq_true, beq_iff_eq, beq_iff_eq, beq_iff_eq]
  simp only [BitVec.eq_of_getLsbD_eq_iff, BitVec.getLsbD_and,
    BitVec.getLsbD_or]
  have absorbs : ∀ bit left right : Bool,
      (bit && (left || right)) = (left || right) ↔
        (bit && left) = left ∧ (bit && right) = right := by decide
  simp only [absorbs]
  exact forall₂_and

theorem hasAll_classifiedMask (valid : layout.Valid) (mark : Mark) :
    mark.hasAll layout.classifiedMask = (layout.decode mark).classified := by
  rw [Layout.decode_classified valid]
  exact hasAll_shiftLeft_one mark valid.classified_lt

/-- The block test reads exactly a classified block verdict. -/
theorem hasAll_both (valid : layout.Valid) (mark : Mark) :
    mark.hasAll (layout.classifiedMask ||| layout.blockMask) =
      ((layout.decode mark).classified && (layout.decode mark).block) := by
  rw [hasAll_or, hasAll_classifiedMask valid, Layout.decode_block valid]
  congr 1
  exact hasAll_shiftLeft_one mark valid.block_lt

/-! ## Persisting -/

theorem getLsbD_persistBit (packetMark ctMark : Mark) {bit : Nat}
    (bound : bit < 32) (other : Nat) :
    (persistBit layout packetMark ctMark bit).getLsbD other =
      (ctMark.getLsbD other || (Bool.and (other = bit : Bool)
        (layout.qfMask.getLsbD bit && packetMark.getLsbD bit))) := by
  rw [persistBit, Layout.and_shiftLeft_one_ne_zero _ bound,
    hasAll_shiftLeft_one _ bound]
  split
  · rename_i owned
    rw [BitVec.getLsbD_or, Layout.getLsbD_one_shiftLeft, owned.1, owned.2]
    by_cases same : other = bit
    · simp [same, bound]
    · simp [same]
  · rename_i notOwned
    rw [not_and_or, Bool.not_eq_true, Bool.not_eq_true] at notOwned
    rcases notOwned with foreign | clear
    · simp [foreign]
    · simp [clear]

/-- Folding the conditional ors over any bits below 32 copies exactly the owned
ones among them. -/
theorem getLsbD_foldl_persistBit (packetMark : Mark) (bits : List Nat)
    (bounds : ∀ bit ∈ bits, bit < 32) (ctMark : Mark) (other : Nat) :
    (bits.foldl (persistBit layout packetMark) ctMark).getLsbD other =
      (ctMark.getLsbD other || (Bool.and (other ∈ bits : Bool)
        (layout.qfMask.getLsbD other && packetMark.getLsbD other))) := by
  induction bits generalizing ctMark with
  | nil => simp
  | cons bit bits ih =>
      rw [List.foldl_cons, ih (fun bit member =>
        bounds bit (List.mem_cons_of_mem _ member)),
        getLsbD_persistBit _ _ (bounds bit List.mem_cons_self)]
      by_cases same : other = bit
      · subst same
        cases ctMark.getLsbD other <;>
          cases layout.qfMask.getLsbD other <;>
          cases packetMark.getLsbD other <;> simp
      · simp [same]

/-- A persisted connection mark decodes to the verdict the packet carried. -/
theorem decode_persistChain (packetMark ctMark : Mark) :
    layout.decode (persistChain layout packetMark ctMark) =
      layout.decode packetMark := by
  apply Layout.decode_congr
  intro bit bound owned
  rw [persistChain, getLsbD_foldl_persistBit _ _ (by simp),
    BitVec.getLsbD_and, BitVec.getLsbD_not, owned]
  simp [bound]

/-! ## What the chains do -/

theorem lt_of_le_maxActionId {actionId : Nat}
    (bound : actionId ≤ layout.maxActionId) :
    actionId < 2 ^ layout.actionBits := by
  have positive : 0 < 2 ^ layout.actionBits := Nat.two_pow_pos _
  have capped : layout.maxActionId ≤ 2 ^ layout.actionBits - 1 :=
    Nat.mod_le _ _
  omega

/-- The id a binding writes is the id the worker reads. -/
theorem decode_encodeAction_actionId (valid : layout.Valid) {actionId : Nat}
    (bound : actionId ≤ layout.maxActionId) (mark : Mark) :
    (layout.decode ((layout.encodeAction actionId).apply mark)).actionId =
      actionId := by
  have fits := lt_of_le_maxActionId bound
  have small : actionId < 2 ^ 8 :=
    Nat.lt_of_le_of_lt bound (Nat.mod_lt _ (by decide))
  have field : ((((layout.encodeAction actionId).apply mark) &&&
      layout.actionMask) >>> layout.actionShift).toNat = actionId := by
    apply Nat.eq_of_testBit_eq
    intro bit
    rw [Layout.actionMask, Layout.testBit_field]
    have inWord := valid.action_le
    by_cases inside : bit < layout.actionBits
    · have inField : layout.actionShift + bit <
          layout.actionShift + layout.actionBits := by omega
      have bit_lt : layout.actionShift + bit < 32 := by omega
      have notBelow : ¬ layout.actionShift + bit < layout.actionShift := by
        omega
      have offset : bit < 32 := by omega
      simp only [Layout.encodeAction, MaskedWrite.apply, BitVec.getLsbD_or,
        BitVec.getLsbD_and, BitVec.getLsbD_not, Layout.getLsbD_actionMask,
        BitVec.getLsbD_shiftLeft, BitVec.getLsbD_ofNat, inside, inField,
        bit_lt, notBelow, offset, Nat.le_add_right, Nat.add_sub_cancel_left,
        decide_true, decide_false, Bool.not_true, Bool.not_false,
        Bool.and_true, Bool.and_false, Bool.true_and, Bool.false_or]
    · have high : actionId.testBit bit = false :=
        Nat.testBit_lt_two_pow (Nat.lt_of_lt_of_le fits
          (Nat.pow_le_pow_right (by omega) (by omega)))
      simp [inside, high]
  rw [Layout.decode, field, Nat.mod_eq_of_lt small]

/-- A binding's write leaves the verdict bits alone. -/
theorem decode_encodeAction_classified (valid : layout.Valid)
    {actionId : Nat} (bound : actionId ≤ layout.maxActionId) (mark : Mark) :
    (layout.decode ((layout.encodeAction actionId).apply mark)).classified =
      (layout.decode mark).classified := by
  have inWord := valid.classified_lt
  have fits := lt_of_le_maxActionId bound
  have notWritten : (!(layout.classifiedBit < layout.actionShift : Bool) &&
      actionId.testBit (layout.classifiedBit - layout.actionShift)) =
        false := by
    rcases valid.classified_action with below | above
    · simp [below]
    · rw [Bool.and_eq_false_iff]
      right
      exact Nat.testBit_lt_two_pow (Nat.lt_of_lt_of_le fits
        (Nat.pow_le_pow_right (by omega) (by omega)))
  have notMasked : layout.actionMask.getLsbD layout.classifiedBit = false := by
    have apart := valid.classified_action
    simp only [Layout.getLsbD_actionMask, Bool.and_eq_false_iff,
      decide_eq_false_iff_not]
    omega
  rw [Layout.decode_classified valid, Layout.decode_classified valid]
  simp only [Layout.encodeAction, MaskedWrite.apply, BitVec.getLsbD_or,
    BitVec.getLsbD_and, BitVec.getLsbD_not, notMasked,
    BitVec.getLsbD_shiftLeft, BitVec.getLsbD_ofNat, inWord]
  have inField : layout.classifiedBit - layout.actionShift < 32 := by omega
  simp only [decide_true, Bool.not_false, Bool.and_true, Bool.true_and,
    inField]
  rw [notWritten, Bool.or_false]

/-- A packet is queued with its verdict bits as they were. -/
theorem decode_forwardChain_queue {Payload : Type} (valid : layout.Valid)
    {bindings : List (CompiledBinding Payload)}
    (bounds : ∀ binding ∈ bindings, binding.actionId ≤ layout.maxActionId)
    {isTcpUdp : Payload → Bool} {ctMark packetMark mark : Mark}
    {payload : Payload}
    (queued : forwardChain layout bindings isTcpUdp ctMark packetMark payload =
      .queue mark) :
    (layout.decode mark).classified = (layout.decode packetMark).classified :=
  by
  have fromBindings : ∀ bindings : List (CompiledBinding Payload),
      (∀ binding ∈ bindings, binding.actionId ≤ layout.maxActionId) →
      bindingsChain layout packetMark payload bindings = .queue mark →
      (layout.decode mark).classified =
        (layout.decode packetMark).classified := by
    intro bindings bounds
    induction bindings with
    | nil => simp [bindingsChain]
    | cons binding rest ih =>
        intro queued
        rw [bindingsChain] at queued
        split at queued
        · cases queued
          exact decode_encodeAction_classified valid
            (bounds binding List.mem_cons_self) packetMark
        · exact ih (fun other member =>
            bounds other (List.mem_cons_of_mem _ member)) queued
  unfold forwardChain at queued
  split at queued
  · cases queued
  split at queued
  · cases queued
  split at queued
  · exact fromBindings bindings bounds queued
  · cases queued

end Tests

end QuartzFire.AppControl
