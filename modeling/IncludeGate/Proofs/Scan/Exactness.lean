import IncludeGate.Proofs.FileSystem.Paths
import IncludeGate.Proofs.Scan.Places

/-!
# Exactly the headers below a root

The candidates below a root are the headers there, each once and in order.  A header is a file
with one of the endings, or a link that leads to a file, in directories of which none is
ignored; links to directories are not followed, and neither the root nor a file is ever
ignored.

What a scan asks the system about a path is answered by the tree: the path of a place below the
root leads to the node at that place.  Only paths that are too long lead nowhere.
-/

namespace IncludeGate.Scan

open FileSystem

namespace Place

/-- A header as a candidate, with the exceptions for its path and the parent of that. -/
def candidate (rules : RuleSet) (root : String) (place : Place) : Candidate :=
  ⟨place.path root, rules.allowedFor ((Path.parent? (place.path root)).getD "") (place.path root)⟩

end Place

/-- Whether what is at a path counts as a file: a file does if the path is not too long, and a
link does if it leads to a file. -/
def CountsAsFile (system : FileSystem) (path : String) : FileNode → Prop
  | .file .. => (Utf8.ofString path).length < pathLimit
  | .link _ => system.isFile path = true
  | .directory _ | .special => False

/-- A header below a root. -/
structure IsHeader (system : FileSystem) (settings : ScanSettings) (root : String)
    (entries : List (Bytes × FileNode)) (place : Place) : Prop where
  /-- Directories lead to it, not links. -/
  real : ∃ node, (FileNode.directory entries).at? (place.names.map Utf8.ofString) = some node ∧
    CountsAsFile system (place.path root) node
  notIgnored : ∀ folder ∈ place.folders, settings.isIgnored folder = false
  ending : settings.hasExtension place.name = true

variable {system : FileSystem} {settings : ScanSettings} {root : String}
  {entries : List (Bytes × FileNode)}

/-! ## Paths of places -/

section Paths

variable {rootNames : List (List Char)} {place : Place}

theorem foldl_join_absolute {folders : List String}
    (segments : ∀ name ∈ rootNames, Path.IsSegment name)
    (below : ∀ folder ∈ folders, Path.IsSegment folder.toList) :
    folders.foldl Path.join (Path.absolute rootNames) =
      Path.absolute (rootNames ++ folders.map String.toList) := by
  induction folders generalizing rootNames with
  | nil => rw [List.map_nil, List.append_nil]; rfl
  | cons folder folders ih =>
      obtain ⟨here, others⟩ := List.forall_mem_cons.mp below
      have longer : ∀ name ∈ rootNames ++ [folder.toList], Path.IsSegment name :=
        List.forall_mem_append.mpr ⟨segments, List.forall_mem_singleton.mpr here⟩
      rw [List.foldl_cons, Path.join_absolute segments here, ih longer others, List.map_cons,
        List.append_assoc, List.singleton_append]

theorem isSegment_of_mem_append (segments : ∀ name ∈ rootNames, Path.IsSegment name)
    {names : List String} (below : ∀ name ∈ names, Path.IsSegment name.toList) :
    ∀ name ∈ rootNames ++ names.map String.toList, Path.IsSegment name := by
  refine List.forall_mem_append.mpr ⟨segments, fun segment member => ?_⟩
  obtain ⟨name, inside, rfl⟩ := List.mem_map.mp member
  exact below name inside

theorem path_absolute (segments : ∀ name ∈ rootNames, Path.IsSegment name)
    (below : ∀ name ∈ place.names, Path.IsSegment name.toList) :
    place.path (Path.absolute rootNames) =
      Path.absolute (rootNames ++ place.names.map String.toList) := by
  obtain ⟨folders, name⟩ := place
  obtain ⟨areFolders, isName⟩ := List.forall_mem_append.mp below
  rw [Place.path, Place.header, HeaderFile.path, foldl_join_absolute segments areFolders,
    Path.join_absolute (isSegment_of_mem_append segments areFolders)
      (isName name List.mem_cons_self), List.append_assoc, Place.names, List.map_append,
    List.map_singleton]

/-- The parent of the path of a place is the directory that the scan came to. -/
theorem parent?_path (segments : ∀ name ∈ rootNames, Path.IsSegment name)
    (below : ∀ name ∈ place.names, Path.IsSegment name.toList) :
    Path.parent? (place.path (Path.absolute rootNames)) =
      some (place.header (Path.absolute rootNames)).directory := by
  obtain ⟨folders, name⟩ := place
  obtain ⟨areFolders, isName⟩ := List.forall_mem_append.mp below
  rw [path_absolute segments below, Place.header, foldl_join_absolute segments areFolders,
    Place.names, List.map_append, List.map_singleton, ← List.append_assoc,
    Path.parent?_absolute (isSegment_of_mem_append segments areFolders)
      (isName name List.mem_cons_self)]

/-- Different places have different paths. -/
theorem eq_of_path_eq {other : Place} (segments : ∀ name ∈ rootNames, Path.IsSegment name)
    (below : ∀ name ∈ place.names, Path.IsSegment name.toList)
    (otherBelow : ∀ name ∈ other.names, Path.IsSegment name.toList)
    (same : place.path (Path.absolute rootNames) = other.path (Path.absolute rootNames)) :
    place = other := by
  rw [path_absolute segments below, path_absolute segments otherBelow] at same
  have names := Path.absolute_injective (by simp [Place.names]) (by simp [Place.names])
    (isSegment_of_mem_append segments below) (isSegment_of_mem_append segments otherBelow) same
  have names : place.names = other.names :=
    (List.map_inj_right fun _ _ => String.toList_inj.mp).mp (List.append_cancel_left names)
  obtain ⟨folders, name⟩ := place
  obtain ⟨otherFolders, otherName⟩ := other
  obtain ⟨rfl, last⟩ := List.append_inj' names rfl
  cases last
  rfl

end Paths

/-! ## Headers -/

section Headers

variable {rootNames : List (List Char)}

/-- Names that lead to a node are components of a path. -/
theorem isSegment_of_at? (isTree : (FileNode.directory entries).IsTree) {place : Place}
    {node : FileNode}
    (found : (FileNode.directory entries).at? (place.names.map Utf8.ofString) = some node) :
    ∀ name ∈ place.names, Path.IsSegment name.toList := fun _ member =>
  isSegment_of_isName (FileNode.isName_of_at? isTree found _ (List.mem_map_of_mem member))

/-- What the system says about the path of a place is what the tree has there. -/
theorem isFile_path_iff (segments : ∀ name ∈ rootNames, Path.IsSegment name)
    (rootFound : system.find (Path.absolute rootNames) = .ok (.directory entries))
    (isTree : (FileNode.directory entries).IsTree) {place : Place} {node : FileNode}
    (found : (FileNode.directory entries).at? (place.names.map Utf8.ofString) = some node) :
    node.isDirectory = false ∧ system.isFile (place.path (Path.absolute rootNames)) = true ↔
      CountsAsFile system (place.path (Path.absolute rootNames)) node := by
  have below := isSegment_of_at? isTree found
  have path := path_absolute segments below
  have there : (FileNode.directory entries).at?
      ((place.names.map String.toList).map Utf8.encode) = some node := by
    rw [List.map_map]
    exact found
  have reads (noLink : ∀ target, node ≠ .link target) (other : FileNode) :=
    @find_below_iff system rootNames entries segments rootFound isTree
      (place.names.map String.toList) (by simp [Place.names]) node there noLink other
  rw [← path] at reads
  cases node with
  | directory others => simp [CountsAsFile, FileNode.isDirectory]
  | link target => simp [CountsAsFile, FileNode.isDirectory]
  | file content executable =>
      refine (and_iff_right rfl).trans ?_
      rw [isFile_iff, CountsAsFile]
      constructor
      · rintro ⟨_, _, here⟩
        exact ((reads (by simp) _).mp here).1
      · exact fun short => ⟨content, executable, (reads (by simp) _).mpr ⟨short, rfl⟩⟩
  | special =>
      refine (and_iff_right rfl).trans ?_
      rw [isFile_iff, CountsAsFile, iff_false]
      rintro ⟨_, _, here⟩
      cases ((reads (by simp) _).mp here).2

theorem isFoundIn_iff_isHeader (segments : ∀ name ∈ rootNames, Path.IsSegment name)
    (rootFound : system.find (Path.absolute rootNames) = .ok (.directory entries))
    (isTree : (FileNode.directory entries).IsTree) {place : Place} :
    IsFoundIn system settings (Path.absolute rootNames) entries place ↔
      IsHeader system settings (Path.absolute rootNames) entries place := by
  constructor
  · rintro ⟨⟨node, found, noDirectory⟩, isFile, notIgnored, ending⟩
    have counts := (isFile_path_iff segments rootFound isTree found).mp ⟨noDirectory, isFile⟩
    exact ⟨⟨node, found, counts⟩, notIgnored, ending⟩
  · rintro ⟨⟨node, found, counts⟩, notIgnored, ending⟩
    obtain ⟨noDirectory, isFile⟩ := (isFile_path_iff segments rootFound isTree found).mpr counts
    exact ⟨⟨node, found, noDirectory⟩, isFile, notIgnored, ending⟩

end Headers

theorem Precedes.ne {left right : Place} (precedes : Precedes left right) : left ≠ right := by
  induction precedes with
  | files less =>
      intro same
      cases same
      exact List.lt_irrefl _ less
  | fileFirst => nofun
  | directories less =>
      intro same
      cases same
      exact List.lt_irrefl _ less
  | @inside folder left right _ ih =>
      intro same
      obtain ⟨leftFolders, leftName⟩ := left
      obtain ⟨rightFolders, rightName⟩ := right
      cases same
      exact ih rfl

theorem find_of_directory? {path : String} (found : system.directory? path = some entries) :
    system.find path = .ok (.directory entries) := by
  unfold directory? at found
  split at found
  · rename_i others here
    cases found
    exact here
  · contradiction

/-- A scan of a root gives exactly the headers below it, each once and in order, as candidates
with the exceptions for their paths.  The root is where its absolute form leads, folded
lexically; without such a form a scan fails. -/
theorem candidatesOfRoot_exact {path : String} (settings : ScanSettings) (rules : RuleSet)
    (form : IsAbsoluteForm system root path)
    (isDirectory : system.directory? (Path.normalize path) = some entries)
    (isTree : (FileNode.directory entries).IsTree) :
    ∃ places : List Place,
      candidatesOfRoot system settings rules root =
          .ok (places.map (Place.candidate rules (Path.normalize path))) ∧
        (∀ place, place ∈ places ↔
          IsHeader system settings (Path.normalize path) entries place) ∧
        places.Pairwise Precedes ∧
        (places.map (Place.path (Path.normalize path))).Nodup := by
  obtain ⟨rootNames, segments, rootPath⟩ :=
    Path.exists_absolute_of_normalize form.isAbsolute
  rw [candidatesOfRoot_of_form form, candidatesBelow_of_directory isDirectory]
  have rootFound := find_of_directory? isDirectory
  rw [rootPath] at rootFound ⊢
  obtain ⟨places, lists⟩ := @exists_lists system settings entries _ isTree
    (Path.absolute rootNames) rfl
  have below : ∀ place ∈ places, ∀ name ∈ place.names, Path.IsSegment name.toList := by
    intro place member
    obtain ⟨node, found, -⟩ := ((lists.mem_iff place).mp member).real
    exact isSegment_of_at? isTree found
  refine ⟨places, ?_, ?_, lists.ordered, ?_⟩
  · rw [lists.headers_eq, List.map_map, Except.ok.injEq]
    apply List.map_congr_left
    intro place member
    rw [Function.comp_apply, Place.candidate, parent?_path segments (below place member)]
    rfl
  · intro place
    rw [lists.mem_iff, isFoundIn_iff_isHeader segments rootFound isTree]
  · rw [List.nodup_iff_pairwise_ne, List.pairwise_map]
    refine lists.ordered.imp_of_mem fun leftMember rightMember precedes same => ?_
    exact precedes.ne (eq_of_path_eq segments (below _ leftMember) (below _ rightMember) same)

/-! ### A tree with links -/

/-- The entries of a directory that is to be ignored. -/
def builtEntries : List (Bytes × FileNode) :=
  [(Utf8.ofString "gen.h", .file [] false)]

/-- The entries of a directory with a link to a file above it and a link back to itself. -/
def linkingEntries : List (Bytes × FileNode) :=
  [(Utf8.ofString "loop", .link (Utf8.ofString "../pub")),
    (Utf8.ofString "z.h", .link (Utf8.ofString "../z.h"))]

/-- A header, directories, a name that is not UTF-8 and a pipe. -/
def mixedEntries : List (Bytes × FileNode) :=
  [(Utf8.ofString "build", .directory builtEntries), ([0xFF, 0x2E, 0x68], .file [] false),
    (Utf8.ofString "pipe.h", .special), (Utf8.ofString "pub", .directory linkingEntries),
    (Utf8.ofString "z.h", .file [] false)]

def mixedTree : FileSystem :=
  ⟨[(Utf8.ofString "w", .directory mixedEntries)], []⟩

def mixedSettings : ScanSettings :=
  ⟨["/w"], .ofList ["build"], [".h"]⟩

theorem isTree_mixedEntries : (FileNode.directory mixedEntries).IsTree := by
  have built : (FileNode.directory builtEntries).IsTree := by
    refine .directory (by decide) (by decide) ?_
    simp [builtEntries, FileNode.IsTree.file]
  have linking : (FileNode.directory linkingEntries).IsTree := by
    refine .directory (by decide) (by decide) ?_
    simp [linkingEntries, FileNode.IsTree.link]
  refine .directory (by decide) (by decide) ?_
  simp [mixedEntries, built, linking, FileNode.IsTree.file, FileNode.IsTree.special]

/-- What is private may be included in `pub`. -/
def mixedRules : RuleSet :=
  ⟨.ofList ["priv/"], [⟨"/pub", .ofList ["priv/"]⟩]⟩

/-- The link in `pub` is found, with the exception for it, and the file in the ignored
directory is not. -/
theorem candidatesOfRoot_mixedTree :
    ∃ places : List Place,
      candidatesOfRoot mixedTree mixedSettings mixedRules "/w" =
          .ok (places.map (Place.candidate mixedRules "/w")) ∧
        ⟨["pub"], "z.h"⟩ ∈ places ∧ ⟨["build"], "gen.h"⟩ ∉ places ∧
        Place.candidate mixedRules "/w" ⟨["pub"], "z.h"⟩ =
          ⟨"/w/pub/z.h", .ofList ["priv/"]⟩ ∧
        places.Pairwise Precedes := by
  have form : IsAbsoluteForm mixedTree "/w" "/w" := .absolute (by decide)
  have root : Path.normalize "/w" = "/w" := by decide
  have isDirectory : mixedTree.directory? (Path.normalize "/w") = some mixedEntries := rfl
  obtain ⟨places, listed, exact, ordered, -⟩ :=
    candidatesOfRoot_exact mixedSettings mixedRules form isDirectory isTree_mixedEntries
  rw [root] at listed exact
  have resolves : mixedTree.isFile (Place.path "/w" ⟨["pub"], "z.h"⟩) = true := by decide
  refine ⟨places, listed, (exact _).mpr ⟨?_, by decide, by decide⟩, ?_, by decide, ordered⟩
  · exact ⟨.link (Utf8.ofString "../z.h"), rfl, resolves⟩
  · intro member
    exact absurd ((exact _).mp member).notIgnored (by decide)

end IncludeGate.Scan
