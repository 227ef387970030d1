import InertialSense.Nmea.DeviceInfo
import InertialSense.Nmea.Gsv

/-! All sentence builders print drafts, so that one theorem says when they respect their buffer. -/

namespace InertialSense.Nmea

open Foundation

/-! ### `nmea_ASCE` -/

/-- The report of a port. -/
def RmcNmea.draft (nRMC : RmcNmea) : Draft where
  head := .named asceText
  pieces := nRMC.pairs.map fun pair => .text (pairText pair)

private theorem printPairs_eq (aSize : Nat) (pairs : List (Nat × UInt8)) (p : Printer) :
    printPairs aSize pairs (p.a, p.n) =
      (((pairs.map fun pair => Piece.text (pairText pair)).foldl (Printer.piece aSize) p).a,
        ((pairs.map fun pair => Piece.text (pairText pair)).foldl (Printer.piece aSize) p).n) := by
  induction pairs generalizing p with
  | nil => rfl
  | cons pair rest ih => exact ih (p.text aSize (pairText pair))

private theorem pieces_start (aSize : Nat) (pieces : List Piece) (p : Printer) :
    (pieces.foldl (Printer.piece aSize) p).start = p.start := by
  induction pieces generalizing p with
  | nil => rfl
  | cons piece rest ih => rw [List.foldl_cons, ih, Printer.piece_start]

theorem nmeaAsce_eq (a : Nat → UInt8) (aSize : Nat) (nRMC : RmcNmea) :
    nmeaAsce a aSize nRMC =
      ((printDrafts aSize a [nRMC.draft]).a, (printDrafts aSize a [nRMC.draft]).n) := by
  let named := Printer.text aSize ⟨a, 0, 0, []⟩ asceText
  have name : ssnprintf a 0 aSize asceText = (named.a, named.n) :=
    Prod.ext rfl (Nat.zero_add _).symm
  unfold nmeaAsce
  rw [name, printPairs_eq]
  exact (footer_eq aSize (pieces_start aSize _ named)).symm

/-! ### All builders -/

/-- A sentence builder with its arguments. -/
inductive Builder where
  | devInfo (info : DevInfo)
  | asce (nRMC : RmcNmea)
  | gsv (settings : GsvSettings) (gsat : Sats) (gsig : Sigs)
  /-- Another one, by what its formats make of its arguments. -/
  | other (draft : Draft)

/-- What a builder prints. -/
def Builder.drafts : Builder → List Draft
  | .devInfo info => [info.draft]
  | .asce nRMC => [nRMC.draft]
  | .gsv settings gsat gsig => gsvDrafts settings gsat gsig
  | .other draft => [draft]

/-- What a builder leaves in a buffer, and the length that it returns. -/
def Builder.built (builder : Builder) (aSize : Nat) (a : Nat → UInt8) : (Nat → UInt8) × Nat :=
  match builder with
  | .devInfo info => nmeaDevInfo a aSize info
  | .asce nRMC => nmeaAsce a aSize nRMC
  | .gsv settings gsat gsig => ((nmeaGsv settings gsat gsig aSize a).a, (nmeaGsv settings gsat gsig aSize a).n)
  | .other draft => ((printDrafts aSize a [draft]).a, (printDrafts aSize a [draft]).n)

theorem Builder.built_eq (builder : Builder) (aSize : Nat) (a : Nat → UInt8) :
    builder.built aSize a = ((printDrafts aSize a builder.drafts).a, (printDrafts aSize a builder.drafts).n) := by
  cases builder with
  | devInfo info => exact nmeaDevInfo_eq a aSize info
  | asce nRMC => exact nmeaAsce_eq a aSize nRMC
  | gsv settings gsat gsig =>
    change ((nmeaGsv settings gsat gsig aSize a).a, (nmeaGsv settings gsat gsig aSize a).n) = _
    rw [nmeaGsv_eq]
    rfl
  | other draft => rfl

/-- A builder respects its buffer if and only if all that it prints fits, or something that it prints
on the way ends exactly at the end of the buffer. -/
theorem builders_respect_iff (builder : Builder) (aSize : Nat) (a : Nat → UInt8) :
    builder.built aSize a = ((printDrafts aSize a builder.drafts).a, (printDrafts aSize a builder.drafts).n) ∧
      ((printDrafts aSize a builder.drafts).Respects aSize ↔
        Fits aSize (builder.drafts.flatMap Draft.lengths)) :=
  ⟨builder.built_eq aSize a, printDrafts_respects_iff aSize a builder.drafts⟩

/-- In a buffer of three bytes the report of no message returns seven. -/
theorem asce_covers_unwritten : ¬ ∀ (builder : Builder) (aSize : Nat) (a : Nat → UInt8),
    (printDrafts aSize a builder.drafts).Respects aSize := by
  intro respects
  have length := (respects (.asce ⟨0, fun _ => 0⟩) 3 fun _ => 0).length
  exact absurd length (by decide +kernel)

end InertialSense.Nmea
