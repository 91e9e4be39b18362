import IncludeGate.Proofs.Path.Folding
import IncludeGate.Proofs.Scan.Exactness

/-!
# Spellings of a root

A root is taken as its absolute form, folded lexically.  So a scan does not depend on how its
root is spelled: neither on detours, nor on the number of slashes, nor on whether the path begins
at the working directory.  Two spellings can differ in one thing only: where a root has no
absolute form, the failure shows it as it was spelled.
-/

namespace IncludeGate.Scan

open IncludeGate.Path Text

variable {system : FileSystem} {root other form otherForm : String}

theorem candidatesOfRoot_congr (settings : ScanSettings) (rules : RuleSet)
    (isForm : IsAbsoluteForm system root form)
    (otherIsForm : IsAbsoluteForm system other otherForm)
    (same : normalize form = normalize otherForm) :
    candidatesOfRoot system settings rules root = candidatesOfRoot system settings rules other := by
  rw [candidatesOfRoot_of_form isForm, candidatesOfRoot_of_form otherIsForm, same]

/-- Whether a root has an absolute form depends on where it begins alone. -/
theorem exists_isAbsoluteForm_of_start (isForm : IsAbsoluteForm system root form)
    (filled : other ≠ "") (start : isAbsolute other = isAbsolute root) :
    ∃ otherForm, IsAbsoluteForm system other otherForm := by
  cases isForm with
  | absolute rooted => exact ⟨_, .absolute (start.trans rooted)⟩
  | relative _ relative working => exact ⟨_, .relative filled (start.trans relative) working⟩

section Detours

variable {front detour back : List Char}

theorem detoured_ne_empty : String.ofList (front ++ '/' :: detour ++ '/' :: back) ≠ "" := by
  intro empty
  simpa using congrArg String.toList empty

theorem exists_isAbsoluteForm_detour (isDetour : Detour detour)
    (spelled : root.toList = front ++ '/' :: back) (isForm : IsAbsoluteForm system root form) :
    ∃ detoured,
      IsAbsoluteForm system (String.ofList (front ++ '/' :: detour ++ '/' :: back)) detoured ∧
        normalize detoured = normalize form := by
  have start := isAbsolute_detour spelled detour
  cases isForm with
  | absolute rooted =>
      exact ⟨_, .absolute (start.trans rooted), normalize_detour isDetour spelled⟩
  | @relative directory filled relative working =>
      exact ⟨_, .relative detoured_ne_empty (start.trans relative) working,
        normalize_join_detour directory isDetour spelled⟩

/-- A detour in the spelling of a root does not change what a scan of it comes to. -/
theorem candidatesOfRoot_detour (settings : ScanSettings) (rules : RuleSet)
    (isDetour : Detour detour) (spelled : root.toList = front ++ '/' :: back)
    (isForm : IsAbsoluteForm system root form) :
    candidatesOfRoot system settings rules
        (String.ofList (front ++ '/' :: detour ++ '/' :: back)) =
      candidatesOfRoot system settings rules root := by
  obtain ⟨_, detoured, same⟩ := exists_isAbsoluteForm_detour isDetour spelled isForm
  exact candidatesOfRoot_congr settings rules detoured isForm same

/-- Without an absolute form of the root, a scan fails with and without the detour. -/
theorem toOption_candidatesOfRoot_detour (system : FileSystem) (settings : ScanSettings)
    (rules : RuleSet) (isDetour : Detour detour) (spelled : root.toList = front ++ '/' :: back) :
    (candidatesOfRoot system settings rules
        (String.ofList (front ++ '/' :: detour ++ '/' :: back))).toOption =
      (candidatesOfRoot system settings rules root).toOption := by
  cases given : absolutePath system root with
  | ok form =>
      exact congrArg Except.toOption
        (candidatesOfRoot_detour settings rules isDetour spelled (absolutePath_eq_ok_iff.mp given))
  | error failure =>
      cases detoured : absolutePath system
          (String.ofList (front ++ '/' :: detour ++ '/' :: back)) with
      | ok form =>
          have filled : root ≠ "" := by
            rintro rfl
            simp at spelled
          obtain ⟨path, isForm⟩ := exists_isAbsoluteForm_of_start
            (absolutePath_eq_ok_iff.mp detoured) filled (isAbsolute_detour spelled detour).symm
          cases given.symm.trans (absolutePath_eq_ok_iff.mpr isForm)
      | error otherFailure =>
          rw [candidatesOfRoot, candidatesOfRoot, given, detoured]
          rfl

end Detours

/-- The normal form of a path begins where the path begins, has no `.` in it, and has `..` only
at the beginning of a relative path.  It is its own normal form, also when another path is
joined to it, and detours do not change it.  And what a scan finds depends on the normal form of
the absolute form of its root alone; so does why it fails, if there is such a form. -/
theorem normalize_spelling (path : String) :
    currentName ∉ pieces (· == '/') (normalize path).toList ∧
      (isAbsolute path = true →
        isAbsolute (normalize path) = true ∧
          parentName ∉ pieces (· == '/') (normalize path).toList) ∧
      (isAbsolute path = false →
        isAbsolute (normalize path) = false ∧
          ∃ ups names, pieces (· == '/') (normalize path).toList =
            List.replicate ups parentName ++ names ∧ parentName ∉ names) ∧
      normalize (normalize path) = normalize path ∧
      (∀ inner, isAbsolute inner = false →
        normalize (Path.join path inner) = normalize (Path.join (normalize path) inner)) ∧
      (∀ front detour back, path.toList = front ++ '/' :: back → Detour detour →
        let detoured := String.ofList (front ++ '/' :: detour ++ '/' :: back)
        normalize detoured = normalize path ∧
        ∀ system settings rules,
          (candidatesOfRoot system settings rules detoured).toOption =
              (candidatesOfRoot system settings rules path).toOption ∧
            ∀ form, IsAbsoluteForm system path form →
              candidatesOfRoot system settings rules detoured =
                candidatesOfRoot system settings rules path) ∧
      (∀ (system : FileSystem) (settings : ScanSettings) (rules : RuleSet)
        (other form otherForm : String),
        IsAbsoluteForm system path form → IsAbsoluteForm system other otherForm →
        normalize form = normalize otherForm →
        candidatesOfRoot system settings rules path =
          candidatesOfRoot system settings rules other) := by
  refine ⟨currentName_not_mem_pieces path, ?_, ?_, normalize_normalize path, ?_, ?_, ?_⟩
  · intro rooted
    exact ⟨(isAbsolute_normalize path).trans rooted, parentName_not_mem_pieces rooted⟩
  · intro relative
    exact ⟨(isAbsolute_normalize path).trans relative, exists_pieces_eq relative⟩
  · intro inner relative
    exact normalize_join path relative
  · intro front detour back spelled isDetour
    refine ⟨normalize_detour isDetour spelled, ?_⟩
    intro system settings rules
    refine ⟨toOption_candidatesOfRoot_detour system settings rules isDetour spelled, ?_⟩
    intro form isForm
    exact candidatesOfRoot_detour settings rules isDetour spelled isForm
  · intro system settings rules other form otherForm isForm otherIsForm same
    exact candidatesOfRoot_congr settings rules isForm otherIsForm same

/-- A relative path that ends with a detour, a root with one through a directory that does not
exist, and a root that is spelled from the working directory. -/
theorem normalize_detouredRoot :
    normalize (Path.join "../w/./x/.." "y.h") = normalize (Path.join "../w" "y.h") ∧
      normalize "/x/../w" = normalize "/w" ∧
      candidatesOfRoot mixedTree mixedSettings mixedRules "/x/../w" =
        candidatesOfRoot mixedTree mixedSettings mixedRules "/w" ∧
      candidatesOfRoot mixedTree mixedSettings mixedRules "w//pub/.." =
        candidatesOfRoot mixedTree mixedSettings mixedRules "/w" := by
  have isDetour : Detour "x/..".toList :=
    .back ⟨by decide, by decide, by decide⟩ (by decide : ['x'] ≠ parentName)
  have spelled : "/w".toList = [] ++ '/' :: ['w'] := rfl
  have relative : normalize "../w/./x/.." = "../w" := by decide
  have rooted : IsAbsoluteForm mixedTree "/w" "/w" := .absolute (by decide)
  have below : IsAbsoluteForm mixedTree "w//pub/.." "/w//pub/.." :=
    absolutePath_eq_ok_iff.mp (by decide)
  obtain ⟨-, -, -, -, joined, -⟩ := normalize_spelling "../w/./x/.."
  obtain ⟨-, -, -, -, -, detours, spellings⟩ := normalize_spelling "/w"
  obtain ⟨folded, sameHeaders⟩ := detours _ _ _ spelled isDetour
  refine ⟨?_, folded, (sameHeaders _ _ _).2 _ rooted, ?_⟩
  · rw [joined "y.h" (by decide), relative]
  · exact (spellings _ _ _ _ _ _ rooted below (by decide)).symm

end IncludeGate.Scan
