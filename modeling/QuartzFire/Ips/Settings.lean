import Mathlib.Algebra.Group.Nat.Defs
import Mathlib.Data.List.Basic

/-!
# Intrusion prevention settings

The desired state of intrusion prevention: the WebUI stores it as one document,
the root helper reads it and applies it to the engine.
-/

namespace QuartzFire.Ips

inductive LevelAction where
  | allow
  | drop
  | disable
  deriving DecidableEq, Repr

/-- The policy of one threat level. -/
structure LevelPolicy where
  action : LevelAction
  alarm : Bool
  log : Bool
  deriving DecidableEq, Repr

inductive ScanMode where
  | full
  | fast
  deriving DecidableEq, Repr

structure IpsSettings where
  enabled : Bool
  scanMode : ScanMode
  critical : LevelPolicy
  high : LevelPolicy
  medium : LevelPolicy
  low : LevelPolicy
  information : LevelPolicy
  /-- Signature IDs that never block. -/
  exceptions : List Nat
  /-- `none` is the default source of signatures. -/
  updateUrl : Option String
  updateSeq : Nat
  deriving DecidableEq, Repr

/-- `IpsSettings::default` -/
def IpsSettings.default : IpsSettings where
  enabled := false
  scanMode := .full
  critical := ⟨.drop, true, true⟩
  high := ⟨.drop, true, true⟩
  medium := ⟨.drop, false, true⟩
  low := ⟨.drop, false, true⟩
  information := ⟨.allow, false, false⟩
  exceptions := []
  updateUrl := none
  updateSeq := 0

/-- The same settings but for the number of the last update request. -/
def IpsSettings.SameBut (settings other : IpsSettings) : Prop :=
  settings = { other with updateSeq := settings.updateSeq }

instance (settings other : IpsSettings) :
    Decidable (settings.SameBut other) :=
  decEq settings { other with updateSeq := settings.updateSeq }

namespace IpsSettings

variable {settings other third : IpsSettings}

theorem sameBut_seq (settings : IpsSettings) (number : Nat) :
    ({ settings with updateSeq := number }).SameBut settings := rfl

theorem SameBut.trans (first : settings.SameBut other)
    (second : other.SameBut third) : settings.SameBut third := by
  rw [SameBut] at *
  rw [first, second]

end IpsSettings

end QuartzFire.Ips
