import IncludeGate.Proofs.FileSystem.Walking
import IncludeGate.Proofs.Scan.Headers
import IncludeGate.Proofs.Text.Utf8

/-!
# The places that a scan finds

A place below a root is told by the names on the way to it.  A scan finds the places of files
with the ending of a header to which directories lead that are not ignored, and it finds them
in one order: files before directories, and both by name, at the first name in which two
places differ.

The entries of a directory are taken one by one.  What is found in one of them has the name of
that entry in front, so the order of the entries decides on the order of all that is found in
different ones; within one directory the order is the one below it.
-/

namespace IncludeGate.Scan

/-- The place of a file below a root: the directories on the way to it, the outermost one
first, and its name. -/
structure Place where
  folders : List String
  name : String
  deriving DecidableEq, Repr

namespace Place

/-- All names on the way, that of the file last. -/
def names (place : Place) : List String :=
  place.folders ++ [place.name]

/-- The place in the directory that holds the first directory on the way. -/
def inside (folder : String) (place : Place) : Place :=
  ⟨folder :: place.folders, place.name⟩

/-- The header at a place. -/
def header (root : String) (place : Place) : HeaderFile :=
  ⟨place.folders.foldl Path.join root, place.name⟩

/-- The path of the file at a place. -/
def path (root : String) (place : Place) : String :=
  (place.header root).path

/-- What decides on the order of two places that differ in their first name. -/
def rank : Place → Rank
  | ⟨[], name⟩ => ⟨false, Utf8.ofString name⟩
  | ⟨folder :: _, _⟩ => ⟨true, Utf8.ofString folder⟩

end Place

/-- At the first name in which two places differ, a file comes before a directory, and files
and directories come in the order of the octets of their names. -/
inductive Precedes : Place → Place → Prop where
  | files {left right : String} :
      Utf8.ofString left < Utf8.ofString right → Precedes ⟨[], left⟩ ⟨[], right⟩
  | fileFirst {left folder right : String} {folders : List String} :
      Precedes ⟨[], left⟩ ⟨folder :: folders, right⟩
  | directories {leftFolder left rightFolder right : String}
      {leftFolders rightFolders : List String} :
      Utf8.ofString leftFolder < Utf8.ofString rightFolder →
      Precedes ⟨leftFolder :: leftFolders, left⟩ ⟨rightFolder :: rightFolders, right⟩
  | inside {folder : String} {left right : Place} :
      Precedes left right → Precedes (left.inside folder) (right.inside folder)

/-- A place that a scan has to find. -/
structure IsFoundIn (system : FileSystem) (settings : ScanSettings) (root : String)
    (entries : List (Bytes × FileNode)) (place : Place) : Prop where
  /-- Directories lead there, not links. -/
  real : ∃ node, (FileNode.directory entries).at? (place.names.map Utf8.ofString) = some node ∧
    node.isDirectory = false
  isFile : system.isFile (place.path root) = true
  notIgnored : ∀ folder ∈ place.folders, settings.isIgnored folder = false
  ending : settings.hasExtension place.name = true

variable {system : FileSystem} {settings : ScanSettings} {root : String}
  {entries : List (Bytes × FileNode)}

theorem isFoundIn_file_iff {name : String} :
    IsFoundIn system settings root entries ⟨[], name⟩ ↔
      (∃ node, FileNode.child? (Utf8.ofString name) entries = some node ∧
        node.isDirectory = false) ∧
      system.isFile (Path.join root name) = true ∧ settings.hasExtension name = true := by
  have at_eq : (FileNode.directory entries).at? (Place.names ⟨[], name⟩ |>.map Utf8.ofString) =
      FileNode.child? (Utf8.ofString name) entries := by
    simp [Place.names, FileNode.at?]
  constructor
  · rintro ⟨real, isFile, -, ending⟩
    exact ⟨at_eq ▸ real, isFile, ending⟩
  · rintro ⟨real, isFile, ending⟩
    exact ⟨at_eq.symm ▸ real, isFile, List.forall_mem_nil _, ending⟩

/-- Only directories have something below them. -/
theorem at?_names_eq_some {node found : FileNode} {place : Place}
    (below : node.at? (place.names.map Utf8.ofString) = some found) :
    ∃ others, node = .directory others := by
  have names : ∃ first rest, place.names = first :: rest := by
    obtain ⟨_ | ⟨folder, folders⟩, name⟩ := place <;> exact ⟨_, _, rfl⟩
  obtain ⟨first, rest, names⟩ := names
  rw [names] at below
  cases node with
  | directory others => exact ⟨others, rfl⟩
  | _ => simp [FileNode.at?] at below

theorem isFoundIn_directory_iff {folder name : String} {folders : List String} :
    IsFoundIn system settings root entries ⟨folder :: folders, name⟩ ↔
      settings.isIgnored folder = false ∧
      ∃ others, FileNode.child? (Utf8.ofString folder) entries = some (.directory others) ∧
        IsFoundIn system settings (Path.join root folder) others ⟨folders, name⟩ := by
  have at_eq : (FileNode.directory entries).at?
        ((Place.names ⟨folder :: folders, name⟩).map Utf8.ofString) =
      (FileNode.child? (Utf8.ofString folder) entries).bind
        (·.at? ((Place.names ⟨folders, name⟩).map Utf8.ofString)) :=
    rfl
  constructor
  · rintro ⟨⟨node, real, noDirectory⟩, isFile, notIgnored, ending⟩
    obtain ⟨here, others⟩ := List.forall_mem_cons.mp notIgnored
    obtain ⟨child, found, below⟩ := Option.bind_eq_some_iff.mp (at_eq ▸ real)
    obtain ⟨inner, rfl⟩ := at?_names_eq_some below
    exact ⟨here, inner, found, ⟨node, below, noDirectory⟩, isFile, others, ending⟩
  · rintro ⟨here, others, found, ⟨node, below, noDirectory⟩, isFile, notIgnored, ending⟩
    refine ⟨⟨node, ?_, noDirectory⟩, isFile, List.forall_mem_cons.mpr ⟨here, notIgnored⟩, ending⟩
    rw [at_eq, found]
    exact below

/-! ## The entries of a directory -/

/-- The rank of an entry. -/
def rankOf (entry : Bytes × FileNode) : Rank :=
  ⟨entry.2.isDirectory, entry.1⟩

/-- The headers that an entry is or holds. -/
def headersOfEntry (system : FileSystem) (settings : ScanSettings) (root : String)
    (entry : Bytes × FileNode) : List HeaderFile :=
  match Utf8.decode? entry.1 with
  | some text => headersAt system settings root (String.ofList text) entry.2
  | none => []

theorem headersIn_eq_map :
    headersIn system settings root entries =
      entries.map fun entry => (rankOf entry, headersOfEntry system settings root entry) := by
  induction entries with
  | nil => rfl
  | cons entry entries ih =>
      rw [headersIn, ih]
      rfl

/-- The first name of a place that a scan finds is the name of an entry. -/
theorem exists_rankOf_eq {place : Place}
    (found : IsFoundIn system settings root entries place) :
    ∃ entry ∈ entries, rankOf entry = place.rank := by
  obtain ⟨_ | ⟨folder, folders⟩, name⟩ := place
  · obtain ⟨⟨node, here, noDirectory⟩, -⟩ := isFoundIn_file_iff.mp found
    exact ⟨_, FileNode.mem_of_child? here, by rw [rankOf, noDirectory]; rfl⟩
  · obtain ⟨-, others, here, -⟩ := isFoundIn_directory_iff.mp found
    exact ⟨_, FileNode.mem_of_child? here, rfl⟩

theorem Rank.le_iff {left right : Rank} :
    left.le right = true ↔
      left.isDirectory = right.isDirectory ∧ left.name ≤ right.name ∨
        left.isDirectory = false ∧ right.isDirectory = true := by
  obtain ⟨leftKind, left⟩ := left
  obtain ⟨rightKind, right⟩ := right
  cases leftKind <;> cases rightKind <;> simp [Rank.le]

theorem Rank.le_trans {first second third : Rank} (front : first.le second = true)
    (back : second.le third = true) : first.le third = true := by
  rw [Rank.le_iff] at front back ⊢
  rcases front with ⟨sameFront, front⟩ | ⟨file, directory⟩
  · rcases back with ⟨sameBack, back⟩ | ⟨file, directory⟩
    · exact .inl ⟨sameFront.trans sameBack, List.le_trans front back⟩
    · exact .inr ⟨sameFront.trans file, directory⟩
  · rcases back with ⟨same, -⟩ | ⟨-, last⟩
    · exact .inr ⟨file, same ▸ directory⟩
    · exact .inr ⟨file, last⟩

theorem Rank.le_total {left right : Rank} (notBefore : ¬ left.le right = true) :
    right.le left = true := by
  rw [Rank.le_iff] at notBefore ⊢
  obtain ⟨leftKind, left⟩ := left
  obtain ⟨rightKind, right⟩ := right
  by_cases same : leftKind = rightKind
  · have greater : ¬ left ≤ right := fun smaller => notBefore (.inl ⟨same, smaller⟩)
    exact .inl ⟨same.symm, List.le_of_lt (List.not_le.mp greater)⟩
  · cases leftKind <;> cases rightKind <;> simp at same notBefore ⊢

theorem precedes_of_rank {left right : Place} (before : left.rank.le right.rank = true)
    (different : left.rank.name ≠ right.rank.name) : Precedes left right := by
  have less (smaller : left.rank.name ≤ right.rank.name) : left.rank.name < right.rank.name :=
    (List.le_iff_lt_or_eq.mp smaller).resolve_right different
  obtain ⟨_ | ⟨leftFolder, leftFolders⟩, leftName⟩ := left
  · obtain ⟨_ | ⟨rightFolder, rightFolders⟩, rightName⟩ := right
    · rcases Rank.le_iff.mp before with ⟨-, smaller⟩ | ⟨-, directory⟩
      · exact .files (less smaller)
      · contradiction
    · exact .fileFirst
  · obtain ⟨_ | ⟨rightFolder, rightFolders⟩, rightName⟩ := right
    · rcases Rank.le_iff.mp before with ⟨same, -⟩ | ⟨file, -⟩ <;> contradiction
    · rcases Rank.le_iff.mp before with ⟨-, smaller⟩ | ⟨file, -⟩
      · exact .directories (less smaller)
      · contradiction

/-! ## Order within a directory -/

theorem exists_insertByRank {found : Bytes × FileNode → List HeaderFile}
    (entry : Bytes × FileNode) {sorted : List (Bytes × FileNode)}
    (ordered : sorted.Pairwise fun left right => (rankOf left).le (rankOf right) = true) :
    ∃ longer : List (Bytes × FileNode),
      insertByRank (rankOf entry, found entry)
          (sorted.map fun other => (rankOf other, found other)) =
        longer.map (fun other => (rankOf other, found other)) ∧
      longer.Perm (entry :: sorted) ∧
      longer.Pairwise fun left right => (rankOf left).le (rankOf right) = true := by
  induction sorted with
  | nil => exact ⟨[entry], rfl, .refl _, List.pairwise_singleton _ _⟩
  | cons first sorted ih =>
      obtain ⟨firstBefore, others⟩ := List.pairwise_cons.mp ordered
      by_cases before : (rankOf entry).le (rankOf first) = true
      · refine ⟨entry :: first :: sorted, ?_, .refl _, List.pairwise_cons.mpr ⟨?_, ordered⟩⟩
        · rw [List.map_cons, insertByRank, if_pos before]
          rfl
        · intro other member
          rcases List.mem_cons.mp member with rfl | member
          · exact before
          · exact Rank.le_trans before (firstBefore other member)
      · obtain ⟨longer, inserted, sameEntries, longerOrdered⟩ := ih others
        refine ⟨first :: longer, ?_, ?_, List.pairwise_cons.mpr ⟨?_, longerOrdered⟩⟩
        · rw [List.map_cons, insertByRank, if_neg before, inserted]
          rfl
        · exact (sameEntries.cons first).trans (.swap entry first sorted)
        · intro other member
          rcases List.mem_cons.mp (sameEntries.mem_iff.mp member) with rfl | member
          · exact Rank.le_total before
          · exact firstBefore other member

/-- A directory is scanned as if its entries were sorted by rank. -/
theorem exists_headersBelow (entries : List (Bytes × FileNode)) :
    ∃ sorted : List (Bytes × FileNode), sorted.Perm entries ∧
      (sorted.Pairwise fun left right => (rankOf left).le (rankOf right) = true) ∧
      headersBelow system settings root entries =
        sorted.flatMap (headersOfEntry system settings root) := by
  have sorts : ∃ sorted : List (Bytes × FileNode),
      (entries.map fun entry => (rankOf entry, headersOfEntry system settings root entry)).foldr
          insertByRank [] =
        sorted.map (fun entry => (rankOf entry, headersOfEntry system settings root entry)) ∧
      sorted.Perm entries ∧
      sorted.Pairwise fun left right => (rankOf left).le (rankOf right) = true := by
    induction entries with
    | nil => exact ⟨[], rfl, .refl _, .nil⟩
    | cons entry entries ih =>
        obtain ⟨sorted, folded, sameEntries, ordered⟩ := ih
        obtain ⟨longer, inserted, longerEntries, longerOrdered⟩ := exists_insertByRank entry ordered
        refine ⟨longer, ?_, longerEntries.trans (sameEntries.cons entry), longerOrdered⟩
        rw [List.map_cons, List.foldr_cons, folded, inserted]
  obtain ⟨sorted, folded, sameEntries, ordered⟩ := sorts
  refine ⟨sorted, sameEntries, ordered, ?_⟩
  rw [headersBelow, inOrder, headersIn_eq_map, folded, List.flatMap_map]

/-! ## Places of a scan -/

/-- The places are those that a scan has to find, each once and in order, and the headers are
the headers there. -/
structure Lists (system : FileSystem) (settings : ScanSettings) (root : String)
    (entries : List (Bytes × FileNode)) (headers : List HeaderFile) (places : List Place) :
    Prop where
  headers_eq : headers = places.map (Place.header root)
  mem_iff : ∀ place, place ∈ places ↔ IsFoundIn system settings root entries place
  ordered : places.Pairwise Precedes

/-- Of the entries of the root, only the one with the first name matters to a place. -/
theorem isFoundIn_congr {others : List (Bytes × FileNode)} {place : Place}
    (same : FileNode.child? place.rank.name entries = FileNode.child? place.rank.name others) :
    IsFoundIn system settings root entries place ↔
      IsFoundIn system settings root others place := by
  obtain ⟨_ | ⟨folder, folders⟩, name⟩ := place
  · have first : FileNode.child? (Utf8.ofString name) entries =
        FileNode.child? (Utf8.ofString name) others := same
    rw [isFoundIn_file_iff, isFoundIn_file_iff, first]
  · have first : FileNode.child? (Utf8.ofString folder) entries =
        FileNode.child? (Utf8.ofString folder) others := same
    rw [isFoundIn_directory_iff, isFoundIn_directory_iff, first]

theorem isFoundIn_cons_iff {entry : Bytes × FileNode}
    (distinct : ((entry :: entries).map (·.1)).Nodup) {place : Place} :
    IsFoundIn system settings root (entry :: entries) place ↔
      IsFoundIn system settings root [entry] place ∨
        IsFoundIn system settings root entries place := by
  rw [List.map_cons, List.nodup_cons] at distinct
  by_cases same : entry.1 = place.rank.name
  · have noOther : ¬ IsFoundIn system settings root entries place := by
      intro found
      obtain ⟨other, member, rank⟩ := exists_rankOf_eq found
      have name : other.1 = entry.1 := (congrArg Rank.name rank).trans same.symm
      exact distinct.1 (name ▸ List.mem_map_of_mem member)
    have first : FileNode.child? place.rank.name (entry :: entries) =
        FileNode.child? place.rank.name [entry] := by
      rw [FileNode.child?, FileNode.child?, if_pos same, if_pos same]
    rw [isFoundIn_congr first, or_iff_left noOther]
  · have notHere : ¬ IsFoundIn system settings root [entry] place := by
      intro found
      obtain ⟨other, member, rank⟩ := exists_rankOf_eq found
      rw [List.mem_singleton.mp member] at rank
      exact same (congrArg Rank.name rank)
    have rest : FileNode.child? place.rank.name (entry :: entries) =
        FileNode.child? place.rank.name entries := by
      rw [FileNode.child?, if_neg same]
    rw [isFoundIn_congr rest, or_iff_right notHere]

theorem Lists.perm {others : List (Bytes × FileNode)} {headers : List HeaderFile}
    {places : List Place} (lists : Lists system settings root others headers places)
    (order : others.Perm entries) (distinct : (entries.map (·.1)).Nodup) :
    Lists system settings root entries headers places where
  headers_eq := lists.headers_eq
  mem_iff place := by
    have othersDistinct : (others.map (·.1)).Nodup := (order.map _).nodup_iff.mpr distinct
    have same : FileNode.child? place.rank.name others =
        FileNode.child? place.rank.name entries := by
      ext node
      rw [FileNode.child?_eq_some_iff othersDistinct, FileNode.child?_eq_some_iff distinct,
        order.mem_iff]
    rw [lists.mem_iff, isFoundIn_congr same]
  ordered := lists.ordered

theorem lists_nil : Lists system settings root [] [] [] where
  headers_eq := rfl
  mem_iff place := by
    refine ⟨nofun, fun found => ?_⟩
    obtain ⟨entry, member, -⟩ := exists_rankOf_eq found
    contradiction
  ordered := .nil

theorem Lists.cons {entry : Bytes × FileNode} {first others : List HeaderFile}
    {firstPlaces otherPlaces : List Place}
    (here : Lists system settings root [entry] first firstPlaces)
    (rest : Lists system settings root entries others otherPlaces)
    (distinct : ((entry :: entries).map (·.1)).Nodup)
    (before : ∀ other ∈ entries, (rankOf entry).le (rankOf other) = true) :
    Lists system settings root (entry :: entries) (first ++ others)
      (firstPlaces ++ otherPlaces) where
  headers_eq := by rw [here.headers_eq, rest.headers_eq, List.map_append]
  mem_iff place := by
    rw [List.mem_append, here.mem_iff, rest.mem_iff, isFoundIn_cons_iff distinct]
  ordered := by
    refine List.pairwise_append.mpr ⟨here.ordered, rest.ordered, fun left leftMember right
      rightMember => ?_⟩
    obtain ⟨_, itself, leftRank⟩ := exists_rankOf_eq ((here.mem_iff left).mp leftMember)
    obtain ⟨other, member, rightRank⟩ := exists_rankOf_eq ((rest.mem_iff right).mp rightMember)
    rw [List.mem_singleton.mp itself] at leftRank
    apply precedes_of_rank
    · rw [← leftRank, ← rightRank]
      exact before other member
    · rw [← leftRank, ← rightRank]
      rw [List.map_cons, List.nodup_cons] at distinct
      exact fun same => distinct.1 (List.mem_map.mpr ⟨other, member, same.symm⟩)

/-! ### One entry -/

section Entry

variable {name : String} {node : FileNode}

theorem child?_singleton_eq_some_iff {other : String} {found : FileNode} :
    FileNode.child? (Utf8.ofString other) [(Utf8.ofString name, node)] = some found ↔
      name = other ∧ node = found := by
  rw [FileNode.child?]
  split
  · rename_i same
    rw [Option.some.injEq, and_iff_right (Utf8.ofString_injective same)]
  · rename_i different
    rw [FileNode.child?]
    refine iff_of_false (Option.some_ne_none found).symm fun same => different ?_
    rw [same.1]

/-- The places in a directory are those below it, with its name in front. -/
theorem Lists.inside {headers : List HeaderFile} {places : List Place}
    (lists : Lists system settings (Path.join root name) entries headers places)
    (notIgnored : settings.isIgnored name = false) :
    Lists system settings root [(Utf8.ofString name, .directory entries)] headers
      (places.map (Place.inside name)) where
  headers_eq := by
    rw [lists.headers_eq, List.map_map]
    rfl
  mem_iff place := by
    rw [List.mem_map]
    obtain ⟨_ | ⟨folder, folders⟩, file⟩ := place
    · rw [isFoundIn_file_iff]
      constructor
      · rintro ⟨other, -, equal⟩
        cases congrArg Place.folders equal
      · rintro ⟨⟨node, found, noDirectory⟩, -⟩
        obtain ⟨-, rfl⟩ := child?_singleton_eq_some_iff.mp found
        contradiction
    · rw [isFoundIn_directory_iff]
      constructor
      · rintro ⟨⟨_, _⟩, member, equal⟩
        cases equal
        exact ⟨notIgnored, entries, child?_singleton_eq_some_iff.mpr ⟨rfl, rfl⟩,
          (lists.mem_iff _).mp member⟩
      · rintro ⟨-, others, first, found⟩
        obtain ⟨rfl, equal⟩ := child?_singleton_eq_some_iff.mp first
        cases equal
        exact ⟨⟨folders, file⟩, (lists.mem_iff _).mpr found, rfl⟩
  ordered := by
    rw [List.pairwise_map]
    exact lists.ordered.imp Precedes.inside

/-- Nothing is found in an ignored directory. -/
theorem lists_ignored (ignored : settings.isIgnored name = true) :
    Lists system settings root [(Utf8.ofString name, .directory entries)] [] [] where
  headers_eq := rfl
  mem_iff place := by
    refine ⟨nofun, fun found => ?_⟩
    obtain ⟨_ | ⟨folder, folders⟩, file⟩ := place
    · obtain ⟨⟨node, first, noDirectory⟩, -⟩ := isFoundIn_file_iff.mp found
      obtain ⟨-, rfl⟩ := child?_singleton_eq_some_iff.mp first
      contradiction
    · obtain ⟨notIgnored, others, first, -⟩ := isFoundIn_directory_iff.mp found
      obtain ⟨rfl, -⟩ := child?_singleton_eq_some_iff.mp first
      rw [ignored] at notIgnored
      contradiction
  ordered := .nil

/-- An entry that is no directory can only be found itself. -/
theorem lists_leaf (noDirectory : node.isDirectory = false) :
    Lists system settings root [(Utf8.ofString name, node)]
      (if system.isFile (Path.join root name) && settings.hasExtension name then
        [⟨root, name⟩] else [])
      (if system.isFile (Path.join root name) && settings.hasExtension name then
        [⟨[], name⟩] else []) where
  headers_eq := by split <;> rfl
  mem_iff place := by
    have chosen : ∀ place : Place, place ∈
        (if system.isFile (Path.join root name) && settings.hasExtension name then
          [⟨[], name⟩] else [] : List Place) ↔
        place = ⟨[], name⟩ ∧ system.isFile (Path.join root name) = true ∧
          settings.hasExtension name = true := by
      intro place
      split <;> simp_all
    rw [chosen]
    obtain ⟨_ | ⟨folder, folders⟩, file⟩ := place
    · rw [isFoundIn_file_iff]
      simp only [child?_singleton_eq_some_iff]
      constructor
      · rintro ⟨equal, isFile, ending⟩
        cases equal
        exact ⟨⟨node, ⟨rfl, rfl⟩, noDirectory⟩, isFile, ending⟩
      · rintro ⟨⟨_, ⟨rfl, -⟩, -⟩, isFile, ending⟩
        exact ⟨rfl, isFile, ending⟩
    · constructor
      · rintro ⟨equal, -⟩
        cases congrArg Place.folders equal
      · intro found
        obtain ⟨-, others, first, -⟩ := isFoundIn_directory_iff.mp found
        obtain ⟨-, rfl⟩ := child?_singleton_eq_some_iff.mp first
        contradiction
  ordered := by
    split
    · exact List.pairwise_singleton _ _
    · exact .nil

end Entry

theorem lists_notUtf8 {octets : Bytes} {node : FileNode} (undecoded : Utf8.decode? octets = none) :
    Lists system settings root [(octets, node)] [] [] where
  headers_eq := rfl
  mem_iff place := by
    refine ⟨nofun, fun found => ?_⟩
    obtain ⟨entry, member, rank⟩ := exists_rankOf_eq found
    rw [List.mem_singleton.mp member] at rank
    have name : octets = place.rank.name := congrArg Rank.name rank
    obtain ⟨_ | ⟨folder, folders⟩, file⟩ := place <;>
    · rw [name, Place.rank, Utf8.decode?_ofString] at undecoded
      contradiction
  ordered := .nil

/-- The entries of a directory, one after another in the order of their ranks. -/
theorem exists_lists_of_entries (distinct : (entries.map (·.1)).Nodup)
    (each : ∀ entry ∈ entries, ∃ places,
      Lists system settings root [entry] (headersOfEntry system settings root entry) places) :
    ∃ places,
      Lists system settings root entries (headersBelow system settings root entries) places := by
  obtain ⟨sorted, order, ordered, headers⟩ :=
    @exists_headersBelow system settings root entries
  have sortedDistinct : (sorted.map (·.1)).Nodup := (order.map _).nodup_iff.mpr distinct
  have sortedEach : ∀ entry ∈ sorted, ∃ places,
      Lists system settings root [entry] (headersOfEntry system settings root entry) places :=
    fun entry member => each entry (order.mem_iff.mp member)
  have all : ∃ places, Lists system settings root sorted
      (sorted.flatMap (headersOfEntry system settings root)) places := by
    clear order headers
    induction sorted with
    | nil => exact ⟨[], lists_nil⟩
    | cons entry sorted ih =>
        obtain ⟨before, othersOrdered⟩ := List.pairwise_cons.mp ordered
        obtain ⟨here, others⟩ := List.forall_mem_cons.mp sortedEach
        obtain ⟨firstPlaces, first⟩ := here
        obtain ⟨otherPlaces, rest⟩ :=
          ih othersOrdered (List.nodup_cons.mp sortedDistinct).2 others
        exact ⟨_, first.cons rest sortedDistinct before⟩
  obtain ⟨places, lists⟩ := all
  -- What is found does not depend on the order of the entries, only the list of it does.
  rw [headers]
  exact ⟨places, lists.perm order distinct⟩

/-- A scan of a directory lists the places that it has to find. -/
theorem exists_lists {tree : FileNode} (isTree : tree.IsTree) (root : String)
    (isDirectory : tree = .directory entries) :
    ∃ places,
      Lists system settings root entries (headersBelow system settings root entries) places := by
  -- The path of the root varies: below an entry it is longer by the name of the entry.
  induction isTree generalizing entries root with
  | directory distinct areNames areTrees ih =>
      cases isDirectory
      refine exists_lists_of_entries distinct fun entry member => ?_
      obtain ⟨octets, node⟩ := entry
      rw [headersOfEntry]
      cases decoded : Utf8.decode? octets with
      | none => exact ⟨[], lists_notUtf8 decoded⟩
      | some text =>
          have name : octets = Utf8.ofString (String.ofList text) := by
            rw [Utf8.ofString, String.toList_ofList, Utf8.encode_of_decode? decoded]
          simp only [name]
          cases node with
          | directory others =>
              rw [headersAt_directory]
              split
              · rename_i ignored
                exact ⟨[], lists_ignored ignored⟩
              · rename_i notIgnored
                obtain ⟨places, lists⟩ := ih _ member (Path.join root (String.ofList text)) rfl
                exact ⟨_, lists.inside (Bool.eq_false_iff.mpr notIgnored)⟩
          | _ =>
              unfold headersAt
              exact ⟨_, lists_leaf rfl⟩
  | _ => contradiction

end IncludeGate.Scan
