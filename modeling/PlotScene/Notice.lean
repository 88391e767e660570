import PlotScene.LayerKind

/-!
# Notices

Data that cannot be used never stops a compilation: it is left out, and a notice says so.
-/

namespace PlotScene

inductive NoticeCode where
  | noLayersDetected
  | malformedStatisticRecord
  | invalidNumericObservation
  | unresolvedCiShape
  | paletteOverflow
  | unresolvedReference
deriving DecidableEq, Repr

def NoticeCode.text : NoticeCode → String
  | .noLayersDetected => "no_layers_detected"
  | .malformedStatisticRecord => "malformed_statistic_record"
  | .invalidNumericObservation => "invalid_numeric_observation"
  | .unresolvedCiShape => "unresolved_ci_shape"
  | .paletteOverflow => "palette_overflow"
  | .unresolvedReference => "unresolved_reference"

/-- A notice about a statistic also names its layer and the number of its group. -/
structure Notice where
  code : NoticeCode
  message : String
  layer : Option LayerKind := none
  group : Option Nat := none
deriving DecidableEq

end PlotScene
