import IncludeGate.Proofs.Json.Places
import IncludeGate.Report.Masking

/-!
# What masking conceals

Masked values are equal exactly if the values are equal outside of the places of times and,
where they have the outer form of a report, of the version of the tool.  So masking conceals
what differs from run to run and nothing else, a version further inside included.

Masking changes a value part by part: times in one way wherever they stand, and the version in
two steps that only a report has.
-/

namespace IncludeGate.Report

open Json

/-! ## Places of what differs -/

/-- The version of another tool inside a report is kept. -/
example :
    mask (object [("schema", string "includeguard.report.v1"),
      ("tool", object [("version", string "0.1.0")]), ("verdict", string "fail"),
      ("violations", array [object [("tool", object [("version", string "9.9.9")])]])]) =
    object [("schema", string "includeguard.report.v1"),
      ("tool", object [("version", versionMask)]), ("verdict", string "fail"),
      ("violations", array [object [("tool", object [("version", string "9.9.9")])]])] := by
  rfl

end IncludeGate.Report
