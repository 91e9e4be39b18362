import IncludeGate.Proofs.Json.Extension
import IncludeGate.Proofs.Timestamp.Writing
import IncludeGate.Report.Encoding

/-!
# Reports read back

A report is read back from its text, and also from the text of any document that extends it:
the members of its objects may be in another order, and there may be others.  So what was
read once is read again from what is written for it.
-/

namespace IncludeGate

open Json

/-! ## Parts of a report -/

/-- The fields of a location. -/
def Location.shape : Shape :=
  .record [("path", .fixed), ("line", .fixed), ("col", .fixed)]

theorem Location.stable : Stable shape toJson ofJson where
  plain location := by
    refine .object (by simp) ?_
    simp [stable_string.plain, stable_uInt32.plain]
  readBack location := by
    refine asRecord_bind_ok_iff.mpr ⟨?_, ?_⟩
    · simp [checkMembers, Field.of, stable_string.readBack, stable_uInt32.readBack]
    · simp [field, member?, stable_string.readBack, stable_uInt32.readBack]
  tolerates := by
    apply tolerates_record
    · refine testsOf_cons (by simp) (tolerates_fixed _) ?_
      refine testsOf_cons (by simp) (tolerates_fixed _) ?_
      refine testsOf_cons (by simp) (tolerates_fixed _) ?_
      exact testsOf_nil _
    · refine respects_bind (respects_field (by simp) (tolerates_fixed _)) fun path => ?_
      refine respects_bind (respects_field (by simp) (tolerates_fixed _)) fun line => ?_
      refine respects_bind (respects_field (by simp) (tolerates_fixed _)) fun column => ?_
      exact respects_pure _

theorem Location.asOption_toJson (location : Location) :
    asOption ofJson location.toJson = .ok (some location) :=
  stable.asOption_encode nofun

theorem Severity.stable :
    Stable .fixed (fun severity => string (reportName severity)) ofJson where
  plain _ := .string _
  readBack severity := by cases severity <;> rfl
  tolerates := tolerates_fixed _

/-- The fields of a diagnostic. -/
def Diagnostic.shape : Shape :=
  .record [("location", Location.shape), ("severity", .fixed), ("message", .fixed)]

theorem Diagnostic.stable : Stable shape toJson ofJson where
  plain diagnostic := by
    obtain ⟨_ | location, severity, message⟩ := diagnostic
    all_goals
      refine .object (by simp) ?_
      simp [stable_string.plain, Location.stable.plain]
  readBack diagnostic := by
    obtain ⟨_ | location, severity, message⟩ := diagnostic
    all_goals
      refine asRecord_bind_ok_iff.mpr ⟨?_, ?_⟩
      · simp [checkMembers, Field.of, stable_string.readBack, Severity.stable.readBack,
          Location.asOption_toJson]
      · simp [field, fieldD, member?, stable_string.readBack, Severity.stable.readBack,
          Location.asOption_toJson]
  tolerates := by
    apply tolerates_record
    · refine testsOf_cons (by simp) (tolerates_asOption Location.stable.tolerates) ?_
      refine testsOf_cons (by simp) (tolerates_fixed _) ?_
      refine testsOf_cons (by simp) (tolerates_fixed _) ?_
      exact testsOf_nil _
    · refine respects_bind
        (respects_fieldD (by simp) _ (tolerates_asOption Location.stable.tolerates))
        fun location => ?_
      refine respects_bind (respects_field (by simp) (tolerates_fixed _)) fun severity => ?_
      refine respects_bind (respects_field (by simp) (tolerates_fixed _)) fun message => ?_
      exact respects_pure _

/-- The fields of an edge. -/
def IncludeEdge.shape : Shape :=
  .record [("included", .fixed), ("includer", .fixed), ("location", Location.shape)]

theorem IncludeEdge.stable : Stable shape toJson ofJson where
  plain edge := by
    refine .object (by simp) ?_
    simp [stable_string.plain, Location.stable.plain]
  readBack edge := by
    refine asRecord_bind_ok_iff.mpr ⟨?_, ?_⟩
    · simp [checkMembers, Field.of, stable_string.readBack, Location.stable.readBack]
    · simp [field, member?, stable_string.readBack, Location.stable.readBack]
  tolerates := by
    apply tolerates_record
    · refine testsOf_cons (by simp) (tolerates_fixed _) ?_
      refine testsOf_cons (by simp) (tolerates_fixed _) ?_
      refine testsOf_cons (by simp) Location.stable.tolerates ?_
      exact testsOf_nil _
    · refine respects_bind (respects_field (by simp) (tolerates_fixed _)) fun included => ?_
      refine respects_bind (respects_field (by simp) (tolerates_fixed _)) fun includer => ?_
      refine respects_bind (respects_field (by simp) Location.stable.tolerates) fun location => ?_
      exact respects_pure _

/-- The fields of a violation. -/
def Violation.shape : Shape :=
  .record [("header", .fixed), ("evidence", .list IncludeEdge.shape)]

theorem Violation.stable : Stable shape toJson ofJson where
  plain violation := by
    refine .object (by simp) ?_
    simp [stable_string.plain, IncludeEdge.stable.list.plain]
  readBack violation := by
    refine asRecord_bind_ok_iff.mpr ⟨?_, ?_⟩
    · simp [checkMembers, Field.of, stable_string.readBack, IncludeEdge.stable.list.readBack]
    · simp [field, member?, stable_string.readBack, IncludeEdge.stable.list.readBack]
  tolerates := by
    apply tolerates_record
    · refine testsOf_cons (by simp) (tolerates_fixed _) ?_
      refine testsOf_cons (by simp) IncludeEdge.stable.list.tolerates ?_
      exact testsOf_nil _
    · refine respects_bind (respects_field (by simp) (tolerates_fixed _)) fun header => ?_
      refine respects_bind (respects_field (by simp) IncludeEdge.stable.list.tolerates)
        fun evidence => ?_
      exact respects_pure _

/-- The fields of a parse failure. -/
def ParseFailure.shape : Shape :=
  .record [("header", .fixed), ("diagnostics", .list Diagnostic.shape)]

theorem ParseFailure.stable : Stable shape toJson ofJson where
  plain failure := by
    refine .object (by simp) ?_
    simp [stable_string.plain, Diagnostic.stable.list.plain]
  readBack failure := by
    refine asRecord_bind_ok_iff.mpr ⟨?_, ?_⟩
    · simp [checkMembers, Field.of, stable_string.readBack, Diagnostic.stable.list.readBack]
    · simp [field, member?, stable_string.readBack, Diagnostic.stable.list.readBack]
  tolerates := by
    apply tolerates_record
    · refine testsOf_cons (by simp) (tolerates_fixed _) ?_
      refine testsOf_cons (by simp) Diagnostic.stable.list.tolerates ?_
      exact testsOf_nil _
    · refine respects_bind (respects_field (by simp) (tolerates_fixed _)) fun header => ?_
      refine respects_bind (respects_field (by simp) Diagnostic.stable.list.tolerates)
        fun diagnostics => ?_
      exact respects_pure _

theorem ParseFailure.asOption_toJson (failure : ParseFailure) :
    asOption ofJson failure.toJson = .ok (some failure) :=
  stable.asOption_encode nofun

/-- The fields of a tool. -/
def ToolMeta.shape : Shape :=
  .record [("name", .fixed), ("version", .fixed)]

theorem ToolMeta.stable : Stable shape toJson ofJson where
  plain tool := by
    refine .object (by simp) ?_
    simp [stable_string.plain]
  readBack tool := by
    refine asRecord_bind_ok_iff.mpr ⟨?_, ?_⟩
    · simp [checkMembers, Field.of, stable_string.readBack]
    · simp [field, member?, stable_string.readBack]
  tolerates := by
    apply tolerates_record
    · refine testsOf_cons (by simp) (tolerates_fixed _) ?_
      refine testsOf_cons (by simp) (tolerates_fixed _) ?_
      exact testsOf_nil _
    · refine respects_bind (respects_field (by simp) (tolerates_fixed _)) fun name => ?_
      refine respects_bind (respects_field (by simp) (tolerates_fixed _)) fun version => ?_
      exact respects_pure _

theorem Verdict.stable : Stable .fixed (fun verdict => string (reportName verdict)) ofJson where
  plain _ := .string _
  readBack verdict := by cases verdict <;> rfl
  tolerates := tolerates_fixed _

theorem Timestamp.stable : Stable .fixed toJson ofJson where
  plain _ := .string _
  readBack timestamp := by simp [toJson, ofJson]
  tolerates := tolerates_fixed _

/-! ## Reports -/

/-- The fields of a report. -/
def Report.shape : Shape :=
  .record [("schema", .fixed), ("tool", ToolMeta.shape), ("started_at", .fixed),
    ("finished_at", .fixed), ("verdict", .fixed), ("headers_checked", .fixed),
    ("parse_failure", ParseFailure.shape), ("violations", .list Violation.shape)]

theorem Report.stable : Stable shape toJson ofJson where
  plain report := by
    obtain ⟨schema, tool, startedAt, finishedAt, verdict, checked, _ | failure, violations⟩ :=
      report
    all_goals
      refine .object (by simp) ?_
      simp [stable_string.plain, stable_uInt32.plain, ToolMeta.stable.plain,
        Timestamp.stable.plain, ParseFailure.stable.plain, Violation.stable.list.plain]
  readBack report := by
    obtain ⟨schema, tool, startedAt, finishedAt, verdict, checked, _ | failure, violations⟩ :=
      report
    all_goals
      refine asRecord_bind_ok_iff.mpr ⟨?_, ?_⟩
      · simp [checkMembers, fields, Field.of, stable_string.readBack, stable_uInt32.readBack,
          ToolMeta.stable.readBack, Timestamp.stable.readBack, Verdict.stable.readBack,
          ParseFailure.asOption_toJson, Violation.stable.list.readBack]
      · simp [field, fieldD, member?, stable_string.readBack, stable_uInt32.readBack,
          ToolMeta.stable.readBack, Timestamp.stable.readBack, Verdict.stable.readBack,
          ParseFailure.asOption_toJson, Violation.stable.list.readBack]
  tolerates := by
    apply tolerates_record
    · refine testsOf_cons (by simp) (tolerates_fixed _) ?_
      refine testsOf_cons (by simp) ToolMeta.stable.tolerates ?_
      refine testsOf_cons (by simp) (tolerates_fixed _) ?_
      refine testsOf_cons (by simp) (tolerates_fixed _) ?_
      refine testsOf_cons (by simp) (tolerates_fixed _) ?_
      refine testsOf_cons (by simp) (tolerates_fixed _) ?_
      refine testsOf_cons (by simp) (tolerates_asOption ParseFailure.stable.tolerates) ?_
      refine testsOf_cons (by simp) Violation.stable.list.tolerates ?_
      exact testsOf_nil _
    · refine respects_bind (respects_field (by simp) (tolerates_fixed _)) fun schema => ?_
      refine respects_bind (respects_field (by simp) ToolMeta.stable.tolerates) fun tool => ?_
      refine respects_bind (respects_field (by simp) (tolerates_fixed _)) fun startedAt => ?_
      refine respects_bind (respects_field (by simp) (tolerates_fixed _)) fun finishedAt => ?_
      refine respects_bind (respects_field (by simp) (tolerates_fixed _)) fun verdict => ?_
      refine respects_bind (respects_field (by simp) (tolerates_fixed _)) fun headersChecked => ?_
      refine respects_bind
        (respects_fieldD (by simp) _ (tolerates_asOption ParseFailure.stable.tolerates))
        fun parseFailure => ?_
      refine respects_bind (respects_fieldD (by simp) _ Violation.stable.list.tolerates)
        fun violations => ?_
      exact respects_pure _

namespace Report

/-- A report is read from every document that extends its own. -/
theorem ofJson_of_extends {report : Report} {document : Json}
    (extended : Extends shape report.toJson document) : ofJson document = .ok report :=
  stable.decode_of_extends extended

/-- The text of a report holds its document. -/
theorem parse?_jsonText (report : Report) :
    Json.parse? report.jsonText.toList = some report.toJson := by
  rw [jsonText, String.toList_ofList, parse?_pretty (stable.plain report)]

/-- The report that a text holds. -/
def ofText? (text : List Char) : Option Report := do
  let document ← Json.parse? text
  (ofJson document).toOption

/-- A report is read from every text of a document that extends its own. -/
theorem ofText?_of_extends {report : Report} {document : Json} {text : List Char}
    (holds : Json.parse? text = some document)
    (extended : Extends shape report.toJson document) : ofText? text = some report := by
  rw [ofText?, holds, Option.bind_eq_bind, Option.bind_some, ofJson_of_extends extended]
  rfl

theorem ofText?_jsonText (report : Report) : ofText? report.jsonText.toList = some report :=
  ofText?_of_extends (parse?_jsonText report) (.same _ _)

/-- Every report has a text.  It is read back from each document that extends its own, whose
objects may have their members in any order and others besides, and from each text of such a
document.  So a report that was read from some text is read again from its own. -/
theorem readBack_of_extends :
    (∀ report : Report, Json.parse? report.jsonText.toList = some report.toJson) ∧
      (∀ (report : Report) (document : Json), Extends shape report.toJson document →
        ofJson document = .ok report ∧
          ∀ text, Json.parse? text = some document → ofText? text = some report) ∧
      ∀ text report, ofText? text = some report →
        ofText? report.jsonText.toList = some report :=
  ⟨parse?_jsonText,
    fun _ _ extended => ⟨ofJson_of_extends extended,
      fun _ holds => ofText?_of_extends holds extended⟩,
    fun _ report _ => ofText?_jsonText report⟩

/-- A report on one forbidden include. -/
def ofOneInclude : Report where
  schema := currentSchema
  tool := .current
  startedAt := .epoch
  finishedAt := .epoch
  verdict := .fail
  headersChecked := 2
  parseFailure := none
  violations := [⟨"/src/pub/a.h", [⟨"/src/priv/x.h", "/src/pub/a.h", ⟨"/src/pub/a.h", 3, 1⟩⟩]⟩]

/-- The members of that report, where the tool has been extended. -/
def ofOneIncludeKept : List (String × Json) :=
  [("schema", string currentSchema),
    ("tool", object [("build", integer 7), ("version", string "0.1.0"),
      ("name", string "includeguard")]),
    ("started_at", Timestamp.epoch.toJson), ("finished_at", Timestamp.epoch.toJson),
    ("verdict", string "fail"), ("headers_checked", integer 2),
    ("violations", array (ofOneInclude.violations.map Violation.toJson))]

/-- The same report with all members in reverse order and one member added. -/
def ofOneIncludeExtended : Json :=
  object (ofOneIncludeKept ++ [("host", object [("name", string "build-7")])]).reverse

theorem extends_ofOneInclude : Extends shape ofOneInclude.toJson ofOneIncludeExtended := by
  have tool : Extends ToolMeta.shape ToolMeta.current.toJson
      (object [("build", integer 7), ("version", string "0.1.0"),
        ("name", string "includeguard")]) := by
    refine @Extends.record _ _ [("name", string "includeguard"), ("version", string "0.1.0")]
      [("build", integer 7)] _ rfl ?_ (by simp) (List.reverse_perm [_, _, _])
    simp [Extends.same, ToolMeta.current]
  refine @Extends.record _ _ ofOneIncludeKept _ _ rfl ?_ (by simp) (List.reverse_perm _)
  simp [ofOneIncludeKept, ofOneInclude, tool, Verdict.reportName, Extends.same]

theorem isPlain_ofOneIncludeExtended : ofOneIncludeExtended.IsPlain := by
  have added : (object [("name", string "build-7")]).IsPlain := by
    refine .object (by simp) ?_
    simp [IsPlain.string]
  have number (value : UInt32) : (integer value.toNat).IsPlain := stable_uInt32.plain value
  have tool : (object [("build", integer 7), ("version", string "0.1.0"),
      ("name", string "includeguard")]).IsPlain := by
    refine .object (by simp) ?_
    simp [IsPlain.string, show (integer 7).IsPlain from number 7]
  refine .object (by simp [ofOneIncludeKept]) ?_
  simp [ofOneIncludeKept, IsPlain.string, Timestamp.stable.plain, Violation.stable.list.plain,
    added, tool, show (integer 2).IsPlain from number 2]

theorem ofOneInclude_readBack :
    Extends shape ofOneInclude.toJson ofOneIncludeExtended ∧
      ofText? ofOneIncludeExtended.pretty = some ofOneInclude ∧
      ofText? ofOneInclude.jsonText.toList = some ofOneInclude := by
  have text : ofText? ofOneIncludeExtended.pretty = some ofOneInclude :=
    (readBack_of_extends.2.1 _ _ extends_ofOneInclude).2 _
      (parse?_pretty isPlain_ofOneIncludeExtended)
  exact ⟨extends_ofOneInclude, text, readBack_of_extends.2.2 _ _ text⟩

end Report

end IncludeGate
