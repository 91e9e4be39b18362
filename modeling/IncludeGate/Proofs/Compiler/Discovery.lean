import IncludeGate.Compiler.SystemIncludes
import IncludeGate.Proofs.Compiler.Replies
import IncludeGate.Proofs.SearchList.Listing
import IncludeGate.Proofs.Text.Utf8

/-!
# What a compiler tells of its directories

Asked for its include directories, a compiler leaves two streams and a status.  The streams are
read as one text, so a listing may be divided between them at any character, even inside a
delimiter.  The two delimiters alone decide whether there are flags; the status only tells two
failures apart.
-/

namespace IncludeGate

open SearchList

/-- What a program wrote to both streams, the output stream first. -/
def ProcessResult.allText (result : ProcessResult) : List Char :=
  Utf8.decodeLossy result.output ++ Utf8.decodeLossy result.errors

theorem ProcessResult.allText_encode {result : ProcessResult} {output errors : List Char}
    (written : result.output = Utf8.encode output)
    (alsoWritten : result.errors = Utf8.encode errors) : result.allText = output ++ errors := by
  rw [allText, written, alsoWritten, Utf8.decodeLossy_encode, Utf8.decodeLossy_encode]

namespace Compiler

/-- A reply tells the directories that a run has listed. -/
structure TellsDirectories (program : String) (result : ProcessResult)
    (reply : Except FrontendError (List String)) : Prop where
  /-- The directories of a listing are told in their order, wherever the listing is divided
  between the streams and however the run ended. -/
  listed : ∀ directories output errors, IsListing directories (output ++ errors) →
    result.output = Utf8.encode output → result.errors = Utf8.encode errors →
    reply = .ok (directories.flatMap fun directory => ["-isystem", directory])
  /-- There are flags if one delimiter comes after the other, and only then. -/
  ok_iff : (∃ flags, reply = .ok flags) ↔ HasListing result.allText
  /-- The flags are always those of a listing. -/
  entries : ∀ flags, reply = .ok flags → ∃ directories, IsListing directories result.allText ∧
    (∀ directory ∈ directories, IsEntry directory.toList) ∧
    flags = directories.flatMap fun directory => ["-isystem", directory]
  /-- Without a listing, a run that failed is told as a failure. -/
  failed : ¬ HasListing result.allText → result.status ≠ .exited 0 →
    reply = .error (result.failure program)
  /-- A successful run should have listed something. -/
  silent : ¬ HasListing result.allText → result.status = .exited 0 →
    reply = .error (.noSearchList program)

/-! ## Flags of a listing -/

variable {program : String} {result : ProcessResult}

theorem flagsOfListing_of_isListing {directories : List String}
    (isListing : IsListing directories result.allText) :
    flagsOfListing program result = .ok (flags directories) := by
  have read : directories? (result.outputText ++ result.errorText) = some directories :=
    directories?_eq_some_iff.mpr isListing
  rw [flagsOfListing, read]

theorem flagsOfListing_of_not_hasListing (absent : ¬ HasListing result.allText) :
    flagsOfListing program result =
      if result.status.isSuccess then .error (.noSearchList program)
      else .error (result.failure program) := by
  have unread : directories? (result.outputText ++ result.errorText) = none := by
    apply Option.eq_none_iff_forall_not_mem.mpr
    intro directories read
    exact absent (exists_isListing_iff.mp ⟨directories, directories?_eq_some_iff.mp read⟩)
  rw [flagsOfListing, unread]
  rfl

theorem exists_flagsOfListing_iff :
    (∃ flags, flagsOfListing program result = .ok flags) ↔ HasListing result.allText := by
  constructor
  · rintro ⟨flags, told⟩
    apply Classical.byContradiction
    intro absent
    rw [flagsOfListing_of_not_hasListing absent] at told
    split at told
    · contradiction
    · contradiction
  · intro hasListing
    obtain ⟨directories, isListing⟩ := exists_isListing_iff.mpr hasListing
    exact ⟨flags directories, flagsOfListing_of_isListing isListing⟩

theorem flagsOfListing_tells (program : String) (result : ProcessResult) :
    TellsDirectories program result (flagsOfListing program result) where
  listed := by
    intro directories output errors isListing written alsoWritten
    rw [← ProcessResult.allText_encode written alsoWritten] at isListing
    exact flagsOfListing_of_isListing isListing
  ok_iff := exists_flagsOfListing_iff
  entries := by
    intro told reply
    obtain ⟨directories, isListing⟩ :=
      exists_isListing_iff.mpr (exists_flagsOfListing_iff.mp ⟨told, reply⟩)
    rw [flagsOfListing_of_isListing isListing, Except.ok.injEq] at reply
    exact ⟨directories, isListing, isListing.isEntry, reply.symm⟩
  failed := by
    intro absent failed
    rw [flagsOfListing_of_not_hasListing absent,
      if_neg fun success => failed (ExitStatus.isSuccess_iff.mp success)]
  silent := by
    intro absent success
    rw [flagsOfListing_of_not_hasListing absent, if_pos (ExitStatus.isSuccess_iff.mpr success)]

/-- Whatever a compiler leaves when it is asked for its directories, the reply tells the
directories that are listed in it. -/
theorem systemFlags_tells {State : Type} (compiler : Compiler State) (program : String)
    (state : State) {result : ProcessResult}
    (ran : (compiler.run (listingRun program) state).1 = .ok result) :
    TellsDirectories program result (compiler.systemFlags program state).1 := by
  have started := start_of_ok (Prod.ext ran rfl)
  have reply : (compiler.systemFlags program state).1 = flagsOfListing program result := by
    simp only [systemFlags, started]
    rfl
  rw [reply]
  exact flagsOfListing_tells program result

/-- A compiler that always gives the same result. -/
def always (result : ProcessResult) : Compiler Unit :=
  .ofAnswers fun _ => .ok result

/-- The rows of a listing. -/
def mixedRows : List (List Char) :=
  ["\t/usr/include".toList, [' '], " /S/Frameworks (framework directory)".toList,
    "  /opt/a b \r".toList]

theorem shows_mixedRows : Shows ["/usr/include", "/opt/a b"] mixedRows := by
  have first : IsEntry "/usr/include".toList := by
    constructor <;> decide +kernel
  have second : IsEntry "/opt/a b".toList := by
    constructor <;> decide +kernel
  have last : Shows ["/opt/a b"] [[' ', ' '] ++ "/opt/a b".toList ++ [' ', '\r']] :=
    .directory (by decide) (by decide) second (by decide) (by decide) .nil
  have others : Shows ["/opt/a b"] (mixedRows.drop 1) :=
    .blank (by decide) (by decide)
      (.framework (by decide +kernel) (by decide +kernel) (by decide +kernel) last)
  have indented : Shows ["/usr/include", "/opt/a b"]
      ((['\t'] ++ "/usr/include".toList ++ []) :: mixedRows.drop 1) :=
    .directory (by decide) (by decide) first (by decide) (by decide) others
  exact indented

/-- The beginning of a listing, up to the middle of a delimiter. -/
def dividedOutput : String := "c++ 13\n#include <...> search st"

/-- The rest of that listing. -/
def dividedErrors : String :=
  "arts here:\n\t/usr/include\n \n /S/Frameworks (framework directory)\n  /opt/a b \r\n" ++
    "End of search list.\nno input\n"

theorem isListing_divided :
    IsListing ["/usr/include", "/opt/a b"] (dividedOutput.toList ++ dividedErrors.toList) := by
  have absent : ¬ opening <:+: "c++ 13\n".toList := by decide +kernel
  have written : dividedOutput.toList ++ dividedErrors.toList =
      "c++ 13\n".toList ++ opening ++ '\n' :: Text.unlines mixedRows ++ closing ++
        ".\nno input\n".toList := by
    decide +kernel
  rw [written]
  exact isListing_unlines shows_mixedRows absent ".\nno input\n".toList

/-- Delimiters in the wrong order. -/
def turnedErrors : String :=
  "End of search list.\n#include <...> search starts here:\n /usr/include\n"

theorem not_hasListing_turned (status : ExitStatus) :
    ¬ HasListing (⟨status, [], Utf8.ofString turnedErrors⟩ : ProcessResult).allText := by
  have text : (⟨status, [], Utf8.ofString turnedErrors⟩ : ProcessResult).allText =
      [] ++ turnedErrors.toList :=
    ProcessResult.allText_encode rfl rfl
  have unread : directories? ([] ++ turnedErrors.toList) = none := by decide +kernel
  rw [text]
  intro hasListing
  obtain ⟨directories, isListing⟩ := exists_isListing_iff.mpr hasListing
  exact Option.some_ne_none _ ((directories?_eq_some_iff.mpr isListing).symm.trans unread)

/-- A failing compiler tells its directories by a divided listing; without a listing, its status
makes the difference. -/
theorem systemFlags_divided :
    ((always ⟨.exited 1, Utf8.ofString dividedOutput, Utf8.ofString dividedErrors⟩).systemFlags
        "c++" ()).1 = .ok ["-isystem", "/usr/include", "-isystem", "/opt/a b"] ∧
    ((always ⟨.signaled 9, [], Utf8.ofString turnedErrors⟩).systemFlags "c++" ()).1 =
      .error (.failed "c++" (.signaled 9)
        "End of search list.\n#include <...> search starts here:\n /usr/include") ∧
    ((always ⟨.exited 0, [], Utf8.ofString turnedErrors⟩).systemFlags "c++" ()).1 =
      .error (.noSearchList "c++") := by
  have failure : (⟨.signaled 9, [], Utf8.ofString turnedErrors⟩ : ProcessResult).failure "c++" =
      .failed "c++" (.signaled 9)
        "End of search list.\n#include <...> search starts here:\n /usr/include" := by
    decide +kernel
  refine ⟨?_, ?_, ?_⟩
  · exact (systemFlags_tells (always _) "c++" () rfl).listed _ dividedOutput.toList
      dividedErrors.toList isListing_divided rfl rfl
  · exact ((systemFlags_tells (always _) "c++" () rfl).failed
      (not_hasListing_turned _) (by decide)).trans (congrArg Except.error failure)
  · exact (systemFlags_tells (always _) "c++" () rfl).silent (not_hasListing_turned _) rfl

end Compiler

end IncludeGate
