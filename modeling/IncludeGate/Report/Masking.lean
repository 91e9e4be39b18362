import IncludeGate.Json

/-!
# Masking what differs from run to run

Two runs on the same tree give the same report but for the times and, from one
release to the next, the version of the tool.  Masking replaces these by fixed
texts, so that reports can be compared: the times wherever they stand, the version
only in a value that has the outer form of a report.
-/

namespace IncludeGate.Report

open Json

/-- The keys of times. -/
def timeKeys : List String := ["started_at", "finished_at"]

/-- What stands for a time. -/
def timeMask : Json := string "__TIMESTAMP__"

/-- What stands for a version. -/
def versionMask : Json := string "__VERSION__"

mutual

/-- Mask the times in a value, at any depth. -/
def maskTimes : Json → Json
  | array items => array (maskTimesItems items)
  | object members => object (maskTimesMembers members)
  | value => value

/-- Mask the times in the items of an array. -/
def maskTimesItems : List Json → List Json
  | [] => []
  | item :: rest => maskTimes item :: maskTimesItems rest

/-- Mask the times among the members of an object and below them. -/
def maskTimesMembers : List (String × Json) → List (String × Json)
  | [] => []
  | (key, value) :: rest =>
      (key, if key ∈ timeKeys then timeMask else maskTimes value) :: maskTimesMembers rest

end

/-- Whether an object has the outer form of a report. -/
def isEnvelope (members : List (String × Json)) : Bool :=
  ["schema", "tool", "verdict"].all fun key => (member? key members).isSome

/-- Replace the value of a member, where there is one. -/
def replaceMember (key : String) (replace : Json → Json) (members : List (String × Json)) :
    List (String × Json) :=
  members.map fun (other, value) => (other, if other = key then replace value else value)

/-- Mask the version in the value of a tool. -/
def maskToolVersion : Json → Json
  | object members => object (replaceMember "version" (fun _ => versionMask) members)
  | value => value

/-- Mask the version in a value that has the outer form of a report. -/
def maskVersion : Json → Json
  | object members =>
      object (if isEnvelope members then replaceMember "tool" maskToolVersion members
        else members)
  | value => value

/-- Mask everything that differs from run to run. -/
def mask (value : Json) : Json :=
  maskTimes (maskVersion value)

end IncludeGate.Report
