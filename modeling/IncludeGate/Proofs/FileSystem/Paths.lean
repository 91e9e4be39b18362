import IncludeGate.Proofs.FileSystem.Walking
import IncludeGate.Proofs.Path.Absolute
import IncludeGate.Proofs.Text.Utf8

/-!
# Paths into a tree

The octets of an absolute path are cut at its slashes into the octets of its names.  So the
path that spells the way to a directory, and then the names of a place below it, leads to the
node at that place, provided that it is short enough for a path and that the node is no link.
-/

namespace IncludeGate

/-! ## Octets of paths -/

namespace Utf8

theorem slash_mem_encode_iff {text : List Char} : FileSystem.slash ∈ encode text ↔ '/' ∈ text := by
  rw [encode, List.mem_flatMap]
  constructor
  · rintro ⟨character, member, inside⟩
    have code := toNat_of_mem_encodeChar (by decide) inside
    have same : character = '/' := Char.toNat_inj.mp code
    exact same ▸ member
  · exact fun member => ⟨'/', member, List.mem_cons_self⟩

theorem encode_join (names : List (List Char)) :
    encode (Text.join '/' names) = Text.join FileSystem.slash (names.map encode) := by
  induction names with
  | nil => rfl
  | cons first names ih =>
      cases names with
      | nil => rfl
      | cons second names =>
          have slash : encode ('/' :: Text.join '/' (second :: names)) =
              FileSystem.slash :: encode (Text.join '/' (second :: names)) := rfl
          rw [Text.join, encode_append, slash, ih]
          rfl

end Utf8

namespace FileSystem

variable {system : FileSystem}

/-- The octets of an absolute path are its names between slashes. -/
theorem ofString_absolute (names : List (List Char)) :
    Utf8.ofString (Path.absolute names) = slash :: Text.join slash (names.map Utf8.encode) := by
  rw [Utf8.ofString, Path.toList_absolute, ← Utf8.encode_join]
  rfl

theorem components_join {names : List Bytes} (filled : ∀ name ∈ names, name ≠ [])
    (solid : ∀ name ∈ names, slash ∉ name) (nonempty : names ≠ []) :
    components (slash :: Text.join slash names) = names := by
  have cut : Text.pieces (· == slash) (slash :: Text.join slash names) = [] :: names := by
    rw [Text.pieces, if_pos (beq_self_eq_true slash), Text.pieces_join nonempty solid]
  have kept : names.filter (fun name => !name.isEmpty) = names :=
    List.filter_eq_self.mpr fun name member => by simp [filled name member]
  have ending : endsWithSlash (slash :: Text.join slash names) = false := by
    obtain ⟨front, last, rfl⟩ : ∃ front last, names = front ++ [last] := by
      simpa [nonempty] using List.eq_nil_or_concat names
    have inside : last ∈ front ++ [last] := List.mem_append_right _ List.mem_cons_self
    rw [endsWithSlash, beq_eq_false_iff_ne]
    exact Text.getLast?_cons_join_concat_ne front (filled last inside) (solid last inside)
  rw [components, cut, ending, List.filter_cons_of_neg (by simp), kept]
  simp

theorem components_absolute {names : List (List Char)} (nonempty : names ≠ [])
    (segments : ∀ name ∈ names, Path.IsSegment name) :
    components (Utf8.ofString (Path.absolute names)) = names.map Utf8.encode := by
  rw [ofString_absolute, components_join]
  · intro name member
    obtain ⟨segment, inside, rfl⟩ := List.mem_map.mp member
    exact Utf8.encode_ne_nil (segments segment inside).ne_nil
  · intro name member slash
    obtain ⟨segment, inside, rfl⟩ := List.mem_map.mp member
    exact (segments segment inside).noSlash (Utf8.slash_mem_encode_iff.mp slash)
  · simpa using nonempty

/-- A text whose octets are the name of an entry is a component that leads down. -/
theorem isSegment_of_isName {segment : List Char}
    (isName : FileNode.IsName (Utf8.encode segment)) : Path.IsSegment segment where
  ne_nil := by
    rintro rfl
    exact isName.ne_nil rfl
  ne_current := by
    rintro rfl
    exact isName.ne_current rfl
  noSlash := fun slash => isName.noSlash (Utf8.slash_mem_encode_iff.mpr slash)

/-! ## Finding what is below a directory -/

theorem checkPath_ok_iff {path : Bytes} :
    checkPath path = .ok () ↔ (0 : UInt8) ∉ path ∧ path ≠ [] ∧ path.length < pathLimit := by
  unfold checkPath
  split
  · rename_i zero
    simp_all
  split
  · simp_all
  split
  · rename_i long
    simp [Nat.not_lt.mpr long]
  · simp_all

theorem find_eq_ok_iff {path : String} {node : FileNode} :
    system.find path = .ok node ↔
      checkPath (Utf8.ofString path) = .ok () ∧
        ∃ place, system.walk .find maxLinks (system.startOf (Utf8.ofString path))
            (components (Utf8.ofString path)) = .ok (.existing place) ∧
          system.node? place = some node := by
  unfold find locate
  cases checkPath (Utf8.ofString path) with
  | error error => simp [bind, Except.bind]
  | ok checked =>
      cases led : system.walk .find maxLinks (system.startOf (Utf8.ofString path))
          (components (Utf8.ofString path)) with
      | error error => simp [bind, Except.bind]
      | ok destination =>
          cases destination with
          | free directory name => simp [bind, Except.bind]
          | existing place => cases here : system.node? place <;> simp [bind, Except.bind, here]

theorem isFile_iff {path : String} :
    system.isFile path = true ↔
      ∃ content executable, system.find path = .ok (.file content executable) := by
  unfold isFile
  split
  · rename_i content executable found
    exact iff_of_true rfl ⟨content, executable, found⟩
  · rename_i other
    exact iff_of_false Bool.false_ne_true fun ⟨content, executable, found⟩ =>
      other content executable found

section Below

variable {rootNames : List (List Char)} {entries : List (Bytes × FileNode)}

/-- Where the path of the root leads, taken name by name. -/
theorem exists_walk_of_find (segments : ∀ name ∈ rootNames, Path.IsSegment name)
    (found : system.find (Path.absolute rootNames) = .ok (.directory entries)) :
    ∃ place, system.walk .find maxLinks [] (rootNames.map Utf8.encode) = .ok (.existing place) ∧
      system.node? place = some (.directory entries) := by
  obtain ⟨-, place, led, here⟩ := find_eq_ok_iff.mp found
  have start : system.startOf (Utf8.ofString (Path.absolute rootNames)) = [] := by
    rw [ofString_absolute]
    rfl
  rw [start] at led
  by_cases empty : rootNames = []
  · subst empty
    -- The root of the system is written as a slash, after which nothing is followed.
    have stays : system.walk .find maxLinks [] (components (Utf8.ofString (Path.absolute []))) =
        .ok (.existing []) := by
      rw [ofString_absolute]
      rfl
    rw [stays] at led
    cases led
    exact ⟨[], rfl, here⟩
  · rw [components_absolute empty segments] at led
    exact ⟨place, led, here⟩

theorem zero_notMem_absolute_append {names : List (List Char)}
    (root : checkPath (Utf8.ofString (Path.absolute rootNames)) = .ok ())
    (noZero : ∀ name ∈ names, (0 : UInt8) ∉ Utf8.encode name) :
    (0 : UInt8) ∉ Utf8.ofString (Path.absolute (rootNames ++ names)) := by
  obtain ⟨rootZero, -, -⟩ := checkPath_ok_iff.mp root
  have other : (0 : UInt8) ≠ slash := by decide
  rw [ofString_absolute, List.mem_cons, Text.mem_join_iff other] at rootZero ⊢
  rintro (zero | ⟨piece, member, inside⟩)
  · exact other zero
  rw [List.map_append, List.mem_append] at member
  rcases member with member | member
  · exact rootZero (.inr ⟨piece, member, inside⟩)
  · obtain ⟨name, named, rfl⟩ := List.mem_map.mp member
    exact noZero name named inside

/-- A node below a directory is found under the path of the directory and the names that lead
to the node, if that path is not too long and the node is no link. -/
theorem find_below_iff (segments : ∀ name ∈ rootNames, Path.IsSegment name)
    (root : system.find (Path.absolute rootNames) = .ok (.directory entries))
    (isTree : (FileNode.directory entries).IsTree) {names : List (List Char)} (below : names ≠ [])
    {node : FileNode} (found : (FileNode.directory entries).at? (names.map Utf8.encode) = some node)
    (noLink : ∀ target, node ≠ .link target) {other : FileNode} :
    system.find (Path.absolute (rootNames ++ names)) = .ok other ↔
      (Utf8.ofString (Path.absolute (rootNames ++ names))).length < pathLimit ∧ node = other := by
  obtain ⟨place, led, here⟩ := exists_walk_of_find segments root
  have areNames : ∀ name ∈ names, FileNode.IsName (Utf8.encode name) := fun name member =>
    FileNode.isName_of_at? isTree found _ (List.mem_map_of_mem member)
  have allSegments : ∀ name ∈ rootNames ++ names, Path.IsSegment name :=
    List.forall_mem_append.mpr ⟨segments, fun name member =>
      isSegment_of_isName (areNames name member)⟩
  have cut : components (Utf8.ofString (Path.absolute (rootNames ++ names))) =
      rootNames.map Utf8.encode ++ names.map Utf8.encode := by
    rw [components_absolute (List.append_ne_nil_of_right_ne_nil _ below) allSegments,
      List.map_append]
  have start : system.startOf (Utf8.ofString (Path.absolute (rootNames ++ names))) = [] := by
    rw [ofString_absolute]
    rfl
  have noZero := zero_notMem_absolute_append (find_eq_ok_iff.mp root).1 fun name member =>
    (areNames name member).noZero
  have filled : Utf8.ofString (Path.absolute (rootNames ++ names)) ≠ [] := by
    rw [ofString_absolute]
    exact List.cons_ne_nil _ _
  obtain ⟨left, onward⟩ := walk_append here led
  have arrives : system.walk .find left place (names.map Utf8.encode) =
      .ok (.existing (place ++ names.map Utf8.encode)) := by
    have named : names.map Utf8.encode ≠ [] := by simpa using below
    cases left with
    | zero => exact follow_at isTree here named found noLink
    | succ left => exact follow_at isTree here named found noLink
  have there : system.node? (place ++ names.map Utf8.encode) = some node := by
    rw [node?_append, here, Option.bind_some, found]
  rw [find_eq_ok_iff, checkPath_ok_iff, start, cut, onward, arrives]
  simp [noZero, filled, there]

end Below

end FileSystem

end IncludeGate
