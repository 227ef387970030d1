import InertialSense.TimeConversion.Model
import Mathlib.Tactic.Linarith
import Mathlib.Tactic.NormNum

/-! The absolute times: seconds of the Unix epoch, and Julian days. -/

namespace InertialSense.TimeConversion

def unixTime (gpsWeek towMs leapS : Nat) : Rat :=
  gpsWeek * 604800 + 315964800 - leapS + (towMs : Rat) / 1000

/-- The Julian date at the start of the Unix epoch. -/
def julianOfUnix (unixSeconds : Rat) : Rat := 2440587.5 + unixSeconds / 86400

/-- The Julian date is exact. -/
theorem gpsToJulian_eq {gpsWeek : Nat} (week : gpsWeek < 2 ^ 29) (towMs leapS : Nat) :
    gpsToJulian gpsWeek towMs leapS = julianOfUnix (unixTime gpsWeek towMs leapS) := by
  have days := @uint32_of_inside (gpsWeek * 7) (by omega) (by omega)
  have daysRat := congrArg (Int.cast : Int → Rat) days
  push_cast at daysRat
  unfold gpsToJulian julianOfUnix unixTime daysPerSecond
  simp only [daysRat]
  ring

section Instant

variable {gpsWeek towMs leapS : Nat} (week : gpsWeek ≤ 6000) (inWeek : towMs < 604800000)
  (leap : leapS < 256)
include week inWeek leap

/-- The sums stay in 32 bits; of the milliseconds only the count of the seconds is taken off. -/
theorem gpsToUnix_eq : gpsToUnix gpsWeek towMs leapS =
    gpsWeek * 604800 + (towMs / 1000 : Nat) + 315964800 - leapS +
      ((towMs : Rat) - (towMs / 1000 : Nat)) / 1000 := by
  unfold gpsToUnix
  have seconds : towMs / 1000 < 604800 := by omega
  have fewer : towMs / 1000 ≤ towMs := Nat.div_le_self _ _
  generalize towMs / 1000 = gpsTow at seconds fewer ⊢
  have time := @uint32_of_inside (gpsWeek * secondsPerWeek + gpsTow)
    (by unfold secondsPerWeek; omega) (by unfold secondsPerWeek; omega)
  have whole := @uint32_of_inside (gpsWeek * secondsPerWeek + gpsTow + gpsToUnixOffsetS - leapS)
    (by unfold secondsPerWeek gpsToUnixOffsetS; omega) (by unfold secondsPerWeek gpsToUnixOffsetS; omega)
  have rest := @uint32_of_inside (towMs - gpsTow) (by omega) (by omega)
  have wholeRat := congrArg (Int.cast : Int → Rat) whole
  have restRat := congrArg (Int.cast : Int → Rat) rest
  push_cast [secondsPerWeek, gpsToUnixOffsetS] at time wholeRat restRat
  simp only [secondsPerWeek, gpsToUnixOffsetS, time, wholeRat, restRat]
  ring

theorem gpsToUnix_exact_iff :
    gpsToUnix gpsWeek towMs leapS = unixTime gpsWeek towMs leapS ↔ towMs < 1000 := by
  rw [gpsToUnix_eq week inWeek leap]
  unfold unixTime
  constructor
  · intro exact
    have none : ((towMs / 1000 : Nat) : Rat) = 0 := by linarith
    have none : towMs / 1000 = 0 := by exact_mod_cast none
    omega
  · intro first
    rw [Nat.div_eq_of_lt first]
    push_cast
    ring

end Instant

/-- The Unix time and the Julian date of a GPS time are those of its instant if and only if it is in
the first second of the week. -/
theorem absolute_agree_iff (gpsWeek towMs leapS : Nat) (week : gpsWeek ≤ 6000)
    (inWeek : towMs < 604800000) (leap : leapS < 256) :
    (gpsToUnix gpsWeek towMs leapS = unixTime gpsWeek towMs leapS ∧
      gpsToJulian gpsWeek towMs leapS = julianOfUnix (gpsToUnix gpsWeek towMs leapS)) ↔
      towMs < 1000 := by
  constructor
  · rintro ⟨unix, -⟩
    exact (gpsToUnix_exact_iff week inWeek leap).mp unix
  · intro first
    have unix := (gpsToUnix_exact_iff week inWeek leap).mpr first
    exact ⟨unix, unix ▸ gpsToJulian_eq (by omega) towMs leapS⟩

theorem absolute_agree_first :
    (gpsToUnix 2345 999 18 = unixTime 2345 999 18 ∧
      gpsToJulian 2345 999 18 = julianOfUnix (gpsToUnix 2345 999 18)) :=
  (absolute_agree_iff 2345 999 18 (by decide) (by decide) (by decide)).mpr (by decide)

/-- One second into the first week, the fraction is 0.999 and not zero. -/
theorem unix_fraction :
    ¬ ∀ gpsWeek towMs leapS : Nat, gpsWeek ≤ 6000 → towMs < 604800000 → leapS < 256 →
      gpsToUnix gpsWeek towMs leapS = unixTime gpsWeek towMs leapS ∧
        gpsToJulian gpsWeek towMs leapS = julianOfUnix (gpsToUnix gpsWeek towMs leapS) := by
  intro claimed
  have second := (claimed 0 1000 0 (by decide) (by decide) (by decide)).1
  rw [gpsToUnix_exact_iff (by decide) (by decide) (by decide)] at second
  exact absurd second (by decide)

end InertialSense.TimeConversion
