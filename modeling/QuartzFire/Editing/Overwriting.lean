import QuartzFire.Editing.Fields

/-!
# Fields that are written over

A field that is pushed as if nothing were there, or that is not pushed at all,
ends as it is wanted exactly when what is wanted covers what was there.
-/

namespace QuartzFire.Editing

open ConfigTree
open Firewall (Cfg Path VyosCommand trimmed)

variable {Num : Type} {numerals : Numerals Num} {kinds : Kinds String}

namespace Push

/-- The same wish, with nothing on the live side. -/
def blank : Push Num → Push Num
  | .leaf path _ desired => .leaf path none desired
  | .number path _ desired => .number path none desired
  | .flag path _ desired => .flag path false desired
  | .names path _ desired => .names path [] desired
  | .values path _ desired => .values path [] desired

@[simp] theorem path_blank (push : Push Num) : push.blank.path = push.path := by
  cases push <;> rfl

/-- What is live is gone or replaced by what is desired. -/
def Overwrites : Push Num → Prop
  | .leaf _ live desired => desired.bind trimmed = none → live = none
  | .number _ live desired => desired = none → live = none
  | .flag _ live desired => live = true → desired = true
  | .names _ live desired | .values _ live desired =>
      ∀ text ∈ live, text ∈ wanted desired

/-- Nothing is desired. -/
def Empty : Push Num → Prop
  | .leaf _ _ desired => desired.bind trimmed = none
  | .number _ _ desired => desired = none
  | .flag _ _ desired => desired = false
  | .names _ _ desired | .values _ _ desired => wanted desired = []

instance (push : Push Num) : Decidable push.Empty :=
  match push with
  | .leaf _ _ desired =>
      inferInstanceAs (Decidable (desired.bind trimmed = none))
  | .number _ _ desired => inferInstanceAs (Decidable (desired = none))
  | .flag _ _ desired => inferInstanceAs (Decidable (desired = false))
  | .names _ _ desired | .values _ _ desired =>
      inferInstanceAs (Decidable (wanted desired = []))

/-- What is live is what is desired. -/
def Same : Push Num → Prop
  | .leaf _ live desired => live = desired.bind trimmed
  | .number _ live desired => live = desired
  | .flag _ live desired => live = desired
  | .names _ live desired | .values _ live desired =>
      ∀ text, text ∈ live ↔ text ∈ wanted desired

variable (numerals) in
/-- A number that is desired reads as itself. -/
def Whole : Push Num → Prop
  | .number _ _ desired => ∀ value, desired = some value →
      numerals.number (numerals.string value) = some value
  | _ => True

theorem Whole.bind {path : Path} {live desired : Option Num}
    (whole : Whole numerals (.number path live desired)) :
    (desired.bind fun value => numerals.number (numerals.string value)) =
      desired := by
  cases given : desired with
  | none => rfl
  | some value => exact whole value given

@[simp] theorem done_blank {push : Push Num} {cfg : Cfg} :
    push.blank.Done numerals cfg ↔ push.Done numerals cfg := by
  cases push <;> exact Iff.rfl

@[simp] theorem whole_blank {push : Push Num} :
    push.blank.Whole numerals ↔ push.Whole numerals := by
  cases push <;> exact Iff.rfl

@[simp] theorem empty_blank {push : Push Num} :
    push.blank.Empty ↔ push.Empty := by
  cases push <;> exact Iff.rfl

theorem overwrites_blank (push : Push Num) : push.blank.Overwrites := by
  cases push <;> simp [blank, Overwrites]

theorem live_congr {push : Push Num} {cfg other : Cfg}
    (same : subtree push.path cfg = subtree push.path other) :
    push.Live numerals cfg ↔ push.Live numerals other := by
  have same : ∀ path, path = push.path →
      subtree path cfg = subtree path other := by
    rintro _ rfl
    exact same
  cases push with
  | leaf path _ _ | number path _ _ | flag path _ _ | names path _ _
  | values path _ _ => rw [Live, Live, same path rfl]

/-- Nothing is read where nothing is. -/
theorem blank_live_of_absent {push : Push Num} {cfg : Cfg}
    (absent : subtree push.path cfg = none) :
    push.blank.Live numerals cfg := by
  have absent : ∀ path, path = push.path → subtree path cfg = none := by
    rintro _ rfl
    exact absent
  cases push with
  | leaf path _ _ | number path _ _ | flag path _ _ =>
      rw [blank, Live, absent path rfl]
      rfl
  | names path _ _ | values path _ _ =>
      simp [blank, Live, absent path rfl, leafValues]

/-- What pushes of the same wishes do does not depend on their live sides. -/
theorem forall_done_congr {pushes others : List (Push Num)} {cfg : Cfg}
    (same : pushes.map blank = others.map blank) :
    (∀ push ∈ pushes, push.Done numerals cfg) ↔
      ∀ push ∈ others, push.Done numerals cfg := by
  have through : ∀ pushes : List (Push Num),
      (∀ push ∈ pushes, push.Done numerals cfg) ↔
        ∀ push ∈ pushes.map blank, push.Done numerals cfg := by
    simp
  rw [through pushes, same, ← through others]

theorem same_iff_done {push : Push Num} {cfg : Cfg}
    (live : push.Live numerals cfg) (whole : push.Whole numerals) :
    push.Same ↔ push.Done numerals cfg := by
  cases push with
  | leaf path shown desired =>
      rw [Same, show shown = _ from live]
      exact Iff.rfl
  | number path shown desired =>
      rw [Done, Whole.bind whole, Same, show shown = _ from live]
  | flag path shown desired =>
      rw [Same, show shown = _ from live]
      exact Iff.rfl
  | names path shown desired =>
      exact forall_congr' fun name => by rw [live name]
  | values path shown desired =>
      exact forall_congr' fun text => by rw [live text]

/-- A field that is brought to what is desired reads as desired if it is a
number that reads as itself, or no number. -/
theorem same_iff_whole {push : Push Num} {cfg : Cfg}
    (live : push.Live numerals cfg) (done : push.Done numerals cfg) :
    push.Same ↔ push.Whole numerals := by
  cases push with
  | number path shown desired =>
      refine ⟨fun same => ?_, fun whole => (same_iff_done live whole).mpr done⟩
      have shown : desired = numberAt numerals (subtree path cfg) :=
        Eq.trans (Eq.symm same) live
      rw [Done, ← shown] at done
      rintro value rfl
      exact done.symm
  | leaf | flag | names | values =>
      exact iff_of_true ((same_iff_done live trivial).mpr done) trivial

/-- Where nothing was pushed and nothing is desired. -/
theorem done_iff_of_spared {push : Push Num} {cfg : Cfg}
    (live : push.Live numerals cfg) (empty : push.Empty)
    {commands : List VyosCommand} (spared : Spares push.path commands) :
    push.Done numerals (executeAll kinds commands cfg) ↔ push.Overwrites := by
  have kept : ∀ path, path = push.path →
      subtree path (executeAll kinds commands cfg) = subtree path cfg := by
    rintro _ rfl
    exact spared.subtree_eq cfg
  cases push with
  | leaf path shown desired =>
      rw [Done, kept path rfl, ← show shown = _ from live,
        show desired.bind trimmed = none from empty, Overwrites]
      simp [show desired.bind trimmed = none from empty]
  | number path shown desired =>
      have empty : desired = none := empty
      rw [Done, kept path rfl, ← show shown = _ from live, empty,
        Option.bind_none, Overwrites]
      simp
  | flag path shown desired =>
      have empty : desired = false := empty
      rw [Done, kept path rfl, ← show shown = _ from live, empty, Overwrites]
      simp
  | names path shown desired =>
      rw [Done, Overwrites, kept path rfl, show wanted desired = [] from empty]
      refine forall_congr' fun name => ?_
      rw [← live name]
      simp
  | values path shown desired =>
      rw [Done, Overwrites, kept path rfl, show wanted desired = [] from empty]
      refine forall_congr' fun text => ?_
      rw [← live text]
      simp

theorem multi_nil (path : Path) (desired : List String) :
    multi path [] desired =
      ((wanted desired).map fun text => .set (path ++ [text])) ++
        ([] : List String).map fun text => .delete (path ++ [text]) := by
  simp [multi]

/-- Values that are only added are the wanted ones if the wanted ones cover
what was there. -/
theorem multi_nil_iff {holds : String → Prop} {live desired : List String}
    (shown : ∀ text, text ∈ live ↔ holds text) :
    (∀ text, (text ∉ ([] : List String) ∧ (text ∈ wanted desired ∨
        holds text)) ↔ text ∈ wanted desired) ↔
      ∀ text ∈ live, text ∈ wanted desired := by
  refine forall_congr' fun text => ?_
  rw [shown text]
  simp

/-- A push as if nothing were there. -/
theorem blank_done_iff {push : Push Num} {blocks : List (Block String)}
    (separate : Separate blocks) (member : push.blank.block numerals ∈ blocks)
    (fits : push.Fits kinds) {cfg : Cfg} (conforms : Conforms kinds cfg)
    (live : push.Live numerals cfg) (whole : push.Whole numerals) :
    push.Done numerals (executeAll kinds (laid blocks) cfg) ↔
      push.Overwrites := by
  have inside : push.path ∈ (push.blank.block numerals).leaves := by
    simp [block]
  have made : ∀ path mark, path = push.path →
      Yields kinds path (subtree path cfg) mark
        (push.blank.commands numerals) →
          mark (subtree path (executeAll kinds (laid blocks) cfg)) := by
    rintro _ mark rfl yields
    exact yields.laid separate member inside (List.prefix_refl _) cfg
      conforms rfl
  cases push with
  | leaf path shown desired =>
      rw [Done, Overwrites]
      cases wants : desired.bind trimmed with
      | none =>
          rw [made path (· = subtree path cfg) rfl (by
            rw [blank, commands, leaf_same wants]
            exact .nil rfl), ← show shown = _ from live]
          simp
      | some text =>
          simp only [reduceCtorEq, false_implies, iff_true]
          refine made path (textAt · = some text) rfl ?_
          rw [blank, commands, leaf_set wants (by simp)]
          exact write_yields fits (trimmed_of_wants wants)
  | number path shown desired =>
      rw [Done, Overwrites, Whole.bind whole]
      cases desired with
      | none =>
          rw [made path (· = subtree path cfg) rfl (.nil rfl),
            ← show shown = _ from live]
          simp
      | some value =>
          simp only [reduceCtorEq, false_implies, iff_true]
          have wants : ((some value).map numerals.string).bind trimmed =
              some (numerals.string value) := numerals.bind_trimmed (some value)
          have written := made path (textAt · = some (numerals.string value))
            rfl (by
              rw [blank, commands, numLeaf, leaf_set wants (by simp)]
              exact write_yields fits (trimmed_of_wants wants))
          rw [numberAt, written, Option.bind_some, whole value rfl]
  | flag path shown desired =>
      rw [Done, Overwrites]
      cases desired with
      | false =>
          rw [made path (· = subtree path cfg) rfl (.nil rfl),
            ← show shown = _ from live]
          simp
      | true =>
          simp only [implies_true, iff_true]
          exact made path (·.isSome = true) rfl (raise_yields fits)
  | names path shown desired =>
      have collected := made path _ rfl (by
        rw [blank, commands, multi_nil]
        exact (ValueSet.ofNames fits.1.nodePath fits.2).exchange _ _)
      rw [Done]
      simp only [collected]
      exact multi_nil_iff live
  | values path shown desired =>
      obtain ⟨base, key, rfl, nodes, isMulti⟩ := FieldAt.split fits
      have collected := made (base ++ [key]) _ rfl (by
        rw [blank, commands, multi_nil]
        exact (ValueSet.ofMulti nodes isMulti).exchange _ _)
      rw [Done]
      simp only [collected]
      exact multi_nil_iff live

end Push

end QuartzFire.Editing
