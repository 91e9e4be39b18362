import IncludeGate.Proofs.Path.Absolute
import IncludeGate.Proofs.Sequence
import IncludeGate.Proofs.Text.Utf8
import IncludeGate.Scan

/-!
# The headers of a scan

A scan finds the headers below each root, provided that every root is a directory.
The headers are listed here apart from their exceptions, and the candidates are shown
to be these headers, each with the exceptions for its place.

A root is looked for at its absolute form.  Without such a form it is no directory: an empty
path has none, and a relative one has none where the working directory is gone or is not UTF-8.
-/

namespace IncludeGate.Scan

variable {system : FileSystem} {settings : ScanSettings} {rules : RuleSet} {root : String}

theorem headersAt_file {directory name : String} {content : Bytes} {executable : Bool} :
    headersAt system settings directory name (.file content executable) =
      if system.isFile (Path.join directory name) && settings.hasExtension name then
        [⟨directory, name⟩]
      else
        [] := by
  unfold headersAt
  rfl

theorem headersAt_directory {directory name : String} {entries : List (Bytes × FileNode)} :
    headersAt system settings directory name (.directory entries) =
      if settings.isIgnored name then []
      else headersBelow system settings (Path.join directory name) entries := by
  unfold headersAt
  rfl

/-! ## Roots -/

/-- The path of a working directory that is still there and whose names are all UTF-8. -/
structure IsWorkingPath (system : FileSystem) (directory : String) : Prop where
  there : (system.node? system.workingDirectory).any FileNode.isDirectory = true
  names : ∃ names, system.workingDirectory = names.map Utf8.encode ∧
    directory = Path.absolute names

theorem mapM_decode?_eq_some_iff {octets : List Bytes} {texts : List (List Char)} :
    octets.mapM Utf8.decode? = some texts ↔ octets = texts.map Utf8.encode := by
  rw [Sequence.mapM_eq_some_iff]
  simp only [Utf8.decode?_eq_some_iff]
  rw [← List.forall₂_map_right_iff, List.forall₂_eq_eq_eq]

/-- A path is the absolute form of a root. -/
inductive IsAbsoluteForm (system : FileSystem) (root : String) : String → Prop where
  /-- An absolute root is its own absolute form. -/
  | absolute (rooted : Path.isAbsolute root = true) : IsAbsoluteForm system root root
  /-- Any other root begins at the working directory. -/
  | relative {directory : String} (filled : root ≠ "") (relative : Path.isAbsolute root = false)
      (working : IsWorkingPath system directory) :
      IsAbsoluteForm system root (Path.join directory root)

theorem absolutePath_eq_ok_iff {path : String} :
    absolutePath system root = .ok path ↔ IsAbsoluteForm system root path := by
  constructor
  · intro given
    unfold absolutePath at given
    split at given
    · contradiction
    rename_i filled
    split at given
    · rename_i rooted
      cases given
      exact .absolute rooted
    rename_i relative
    split at given
    · rename_i there
      split at given
      · rename_i names decoded
        cases given
        exact .relative (by simpa using filled) (by simpa using relative)
          ⟨there, names, mapM_decode?_eq_some_iff.mp decoded, rfl⟩
      · contradiction
    · contradiction
  · intro form
    cases form with
    | absolute rooted =>
        have filled : ¬ root.isEmpty = true := by
          intro empty
          rw [String.isEmpty_iff.mp empty] at rooted
          contradiction
        rw [absolutePath, if_neg filled, if_pos rooted]
    | relative filled relative working =>
        obtain ⟨there, names, spelled, rfl⟩ := working
        rw [absolutePath, if_neg (by simpa using filled), if_neg (by simp [relative]),
          if_pos there, mapM_decode?_eq_some_iff.mpr spelled]
        rfl

theorem IsAbsoluteForm.isAbsolute {path : String} (form : IsAbsoluteForm system root path) :
    Path.isAbsolute path = true := by
  cases form with
  | absolute rooted => exact rooted
  | relative filled relative working =>
      obtain ⟨-, names, -, rfl⟩ := working
      rw [Path.join, if_neg (by simp [relative])]
      split
      · simp [Path.isAbsolute]
      · simp [Path.isAbsolute]

/-- A root is a directory: its absolute form, folded lexically, leads to one. -/
def IsRoot (system : FileSystem) (root : String) : Prop :=
  ∃ path, IsAbsoluteForm system root path ∧
    system.isDirectory (Path.normalize path) = true

theorem isRoot_iff_of_absolutePath {path : String} (form : absolutePath system root = .ok path) :
    IsRoot system root ↔ system.isDirectory (Path.normalize path) = true := by
  constructor
  · rintro ⟨other, otherForm, isDirectory⟩
    cases form.symm.trans (absolutePath_eq_ok_iff.mpr otherForm)
    exact isDirectory
  · exact fun isDirectory => ⟨path, absolutePath_eq_ok_iff.mp form, isDirectory⟩

theorem not_isRoot_of_error {failure : Failure}
    (failed : absolutePath system root = .error failure) : ¬ IsRoot system root := by
  rintro ⟨path, form, -⟩
  exact nomatch failed.symm.trans (absolutePath_eq_ok_iff.mpr form)

instance (system : FileSystem) (root : String) : Decidable (IsRoot system root) :=
  match form : absolutePath system root with
  | .ok _ => decidable_of_iff _ (isRoot_iff_of_absolutePath form).symm
  | .error _ => .isFalse (not_isRoot_of_error form)

/-- The headers below a root, or none if it is no directory. -/
def headersOfRoot (system : FileSystem) (settings : ScanSettings) (root : String) :
    List HeaderFile :=
  match absolutePath system root with
  | .error _ => []
  | .ok path =>
      match system.directory? (Path.normalize path) with
      | some entries => headersBelow system settings (Path.normalize path) entries
      | none => []

/-- The headers below all roots, in the order of the scan. -/
def headers (system : FileSystem) (settings : ScanSettings) : List HeaderFile :=
  settings.roots.flatMap (headersOfRoot system settings)

theorem isDirectory_iff {path : String} :
    system.isDirectory path = true ↔ ∃ entries, system.directory? path = some entries := by
  rw [FileSystem.isDirectory, Option.isSome_iff_exists]

section Root

variable {path : String} {entries : List (Bytes × FileNode)}

theorem candidatesBelow_of_directory {directory : String}
    (found : system.directory? directory = some entries) :
    candidatesBelow system settings rules directory =
      .ok ((headersBelow system settings directory entries).map (HeaderFile.candidate rules)) := by
  rw [candidatesBelow, found]

theorem candidatesOfRoot_of_form (form : IsAbsoluteForm system root path) :
    candidatesOfRoot system settings rules root =
      candidatesBelow system settings rules (Path.normalize path) := by
  rw [candidatesOfRoot, absolutePath_eq_ok_iff.mpr form]
  rfl

theorem headersOfRoot_of_directory (form : IsAbsoluteForm system root path)
    (found : system.directory? (Path.normalize path) = some entries) :
    headersOfRoot system settings root =
      headersBelow system settings (Path.normalize path) entries := by
  unfold headersOfRoot
  rw [absolutePath_eq_ok_iff.mpr form]
  dsimp only
  rw [found]

theorem candidatesOfRoot_of_isRoot (isRoot : IsRoot system root) :
    candidatesOfRoot system settings rules root =
      .ok ((headersOfRoot system settings root).map (HeaderFile.candidate rules)) := by
  obtain ⟨path, form, directory⟩ := isRoot
  obtain ⟨entries, found⟩ := isDirectory_iff.mp directory
  rw [candidatesOfRoot_of_form form, headersOfRoot_of_directory form found,
    candidatesBelow_of_directory found]

theorem candidatesOfRoot_of_not_isRoot (noRoot : ¬ IsRoot system root) :
    ∃ failure, candidatesOfRoot system settings rules root = .error failure := by
  cases given : absolutePath system root with
  | error failure =>
      rw [candidatesOfRoot, given]
      exact ⟨failure, rfl⟩
  | ok path =>
      rw [isRoot_iff_of_absolutePath given, isDirectory_iff] at noRoot
      rw [candidatesOfRoot_of_form (absolutePath_eq_ok_iff.mp given), candidatesBelow]
      cases found : system.directory? (Path.normalize path) with
      | none => exact ⟨_, rfl⟩
      | some entries => exact absurd ⟨entries, found⟩ noRoot

-- The octet 0xFF is in no UTF-8 text, so no relative root can be told below it.
example :
    (candidatesOfRoot ⟨[([0xFF], .directory [])], [[0xFF]]⟩ ⟨["./x/"], .empty, [".h"]⟩
        ⟨.empty, []⟩ "./x/").mapError Failure.message =
      .error "directory is not valid UTF-8: /\uFFFD/x/" := by
  decide +kernel

end Root

/-! ## All roots -/

/-- If all roots are directories, the candidates are the headers below them. -/
theorem candidates_eq_ok (rules : RuleSet)
    (allRoots : ∀ root ∈ settings.roots, IsRoot system root) :
    candidates system settings rules =
      .ok ((headers system settings).map (HeaderFile.candidate rules)) := by
  have each : settings.roots.mapM (candidatesOfRoot system settings rules) =
      .ok (settings.roots.map fun root =>
        (headersOfRoot system settings root).map (HeaderFile.candidate rules)) :=
    Sequence.mapM_ok fun root member => candidatesOfRoot_of_isRoot (allRoots root member)
  simp only [candidates, each, Except.map, headers, List.flatMap_def, List.map_flatten,
    List.map_map, Function.comp_def]

/-- If some root is no directory, there are no candidates. -/
theorem candidates_eq_error (rules : RuleSet)
    (notAll : ¬ ∀ root ∈ settings.roots, IsRoot system root) :
    ∃ failure, candidates system settings rules = .error failure := by
  obtain ⟨root, noneAt⟩ := Classical.not_forall.mp notAll
  obtain ⟨member, noRoot⟩ := Classical.not_imp.mp noneAt
  have fails : ∃ failure, candidatesOfRoot system settings rules root = .error failure :=
    candidatesOfRoot_of_not_isRoot noRoot
  obtain ⟨failure, failed⟩ := Sequence.exists_mapM_error member fails
  rw [candidates, failed]
  exact ⟨failure, rfl⟩

end IncludeGate.Scan
