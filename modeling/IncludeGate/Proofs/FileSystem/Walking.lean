import IncludeGate.FileSystem

/-!
# Walking down a tree

Following a path is following its components one after another: where a path leads
to a directory, a longer path goes on from there.  Below a directory, the names of
real directories lead from node to node, and the node at the end is found unless it
is a link.
-/

namespace IncludeGate

/-- Names that an entry of a directory may have. -/
structure FileNode.IsName (name : Bytes) : Prop where
  ne_nil : name ≠ []
  ne_current : name ≠ FileSystem.currentName
  ne_parent : name ≠ FileSystem.parentName
  noSlash : FileSystem.slash ∉ name
  noZero : (0 : UInt8) ∉ name
  length_le : name.length ≤ FileSystem.maxNameLength

instance (name : Bytes) : Decidable (FileNode.IsName name) :=
  decidable_of_iff
    (name ≠ [] ∧ name ≠ FileSystem.currentName ∧ name ≠ FileSystem.parentName ∧
      FileSystem.slash ∉ name ∧ (0 : UInt8) ∉ name ∧ name.length ≤ FileSystem.maxNameLength)
    ⟨fun ⟨filled, current, parent, noSlash, noZero, length⟩ =>
        ⟨filled, current, parent, noSlash, noZero, length⟩,
      fun ⟨filled, current, parent, noSlash, noZero, length⟩ =>
        ⟨filled, current, parent, noSlash, noZero, length⟩⟩

/-- Trees as a disk holds them: the entries of a directory have distinct names. -/
inductive FileNode.IsTree : FileNode → Prop where
  | file (content : Bytes) (executable : Bool) : IsTree (file content executable)
  | link (target : Bytes) : IsTree (link target)
  | special : IsTree special
  | directory {entries : List (Bytes × FileNode)} :
      (entries.map (·.1)).Nodup → (∀ entry ∈ entries, IsName entry.1) →
      (∀ entry ∈ entries, IsTree entry.2) → IsTree (directory entries)

namespace FileNode

theorem mem_of_child? {name : Bytes} {node : FileNode} {entries : List (Bytes × FileNode)}
    (found : child? name entries = some node) : (name, node) ∈ entries := by
  induction entries with
  | nil => contradiction
  | cons first entries ih =>
      obtain ⟨other, old⟩ := first
      rw [child?] at found
      split at found
      · rename_i same
        cases same
        cases found
        exact List.mem_cons_self
      · exact List.mem_cons_of_mem _ (ih found)

theorem child?_eq_some_iff {entries : List (Bytes × FileNode)}
    (distinct : (entries.map (·.1)).Nodup) {name : Bytes} {node : FileNode} :
    child? name entries = some node ↔ (name, node) ∈ entries := by
  constructor
  · exact mem_of_child?
  · intro member
    induction entries with
    | nil => contradiction
    | cons entry entries ih =>
        obtain ⟨first, old⟩ := entry
        rw [List.map_cons, List.nodup_cons] at distinct
        rcases List.mem_cons.mp member with equal | member
        · cases equal
          rw [child?, if_pos rfl]
        · have other : first ≠ name := by
            rintro rfl
            exact distinct.1 (List.mem_map.mpr ⟨_, member, rfl⟩)
          rw [child?, if_neg other, ih distinct.2 member]

/-- The way to a place is made of names of entries. -/
theorem isName_of_at? {tree node : FileNode} {names : List Bytes} (isTree : tree.IsTree)
    (found : tree.at? names = some node) : ∀ name ∈ names, IsName name := by
  induction names generalizing tree with
  | nil => nofun
  | cons name names ih =>
      cases isTree with
      | directory distinct areNames areTrees =>
          rw [at?] at found
          obtain ⟨child, first, rest⟩ := Option.bind_eq_some_iff.mp found
          have member := mem_of_child? first
          exact List.forall_mem_cons.mpr ⟨areNames _ member, ih (areTrees _ member) rest⟩
      | _ => simp [at?] at found

end FileNode

namespace FileSystem

variable {system : FileSystem}

/-! ## One step -/

/-- A name that is looked up. -/
structure IsOrdinary (name : Bytes) : Prop where
  notCurrent : ¬ (name = [] ∨ name = currentName)
  notParent : name ≠ parentName
  length_le : name.length ≤ maxNameLength

section Step

variable {onLink : List Bytes → List Bytes → Except SystemError Destination}
  {directory place rest : List Bytes} {name : Bytes}

theorem follow_current (current : name = [] ∨ name = currentName) :
    follow system .find onLink directory (name :: rest) =
      follow system .find onLink directory rest := by
  rw [follow, if_pos current]

theorem follow_parent (notCurrent : ¬ (name = [] ∨ name = currentName))
    (parent : name = parentName) :
    follow system .find onLink directory (name :: rest) =
      follow system .find onLink directory.dropLast rest := by
  rw [follow, if_neg notCurrent, if_pos parent]

theorem follow_directory (ordinary : IsOrdinary name) {entries : List (Bytes × FileNode)}
    (found : system.node? (directory ++ [name]) = some (.directory entries)) :
    follow system .find onLink directory (name :: rest) =
      follow system .find onLink (directory ++ [name]) rest := by
  simp [follow, ordinary.notCurrent, ordinary.notParent, Nat.not_lt.mpr ordinary.length_le, found]

theorem follow_link (ordinary : IsOrdinary name) {target : Bytes}
    (found : system.node? (directory ++ [name]) = some (.link target)) :
    follow system .find onLink directory (name :: rest) =
      onLink (if isAbsolute target then [] else directory) (components target ++ rest) := by
  simp [follow, ordinary.notCurrent, ordinary.notParent, Nat.not_lt.mpr ordinary.length_le, found]

/-- Without a directory or a link, a name is the end. -/
theorem follow_leaf (ordinary : IsOrdinary name) {node : FileNode}
    (found : system.node? (directory ++ [name]) = some node)
    (noDirectory : node.isDirectory = false) (noLink : ∀ target, node ≠ .link target) :
    follow system .find onLink directory (name :: rest) =
      if rest.isEmpty then .ok (.existing (directory ++ [name])) else .error .notADirectory := by
  cases node with
  | directory entries => contradiction
  | link target => exact absurd rfl (noLink target)
  | _ =>
      simp [follow, ordinary.notCurrent, ordinary.notParent, Nat.not_lt.mpr ordinary.length_le,
        found]

/-- The ways of getting somewhere by a name that is looked up. -/
theorem follow_cases (notCurrent : ¬ (name = [] ∨ name = currentName))
    (notParent : name ≠ parentName)
    (led : follow system .find onLink directory (name :: rest) = .ok (.existing place)) :
    IsOrdinary name ∧
      ((∃ entries, system.node? (directory ++ [name]) = some (.directory entries)) ∨
        (∃ target, system.node? (directory ++ [name]) = some (.link target)) ∨
        ∃ node, system.node? place = some node ∧ node.isDirectory = false) := by
  by_cases long : maxNameLength < name.length
  · simp [follow, notCurrent, notParent, long] at led
  have ordinary : IsOrdinary name := ⟨notCurrent, notParent, Nat.not_lt.mp long⟩
  refine ⟨ordinary, ?_⟩
  cases found : system.node? (directory ++ [name]) with
  | none =>
      simp only [follow, if_neg notCurrent, if_neg notParent, if_neg long, found, reduceCtorEq,
        false_and, if_false] at led
      split at led <;> cases led
  | some node =>
      cases node with
      | directory entries => exact .inl ⟨entries, rfl⟩
      | link target => exact .inr (.inl ⟨target, rfl⟩)
      | _ =>
          rw [follow_leaf ordinary found rfl nofun] at led
          split at led
          · cases led
            exact .inr (.inr ⟨_, found, rfl⟩)
          · contradiction

end Step

/-! ## Longer paths -/

theorem follow_append {onLink : List Bytes → List Bytes → Except SystemError Destination}
    {directory place front : List Bytes} {entries : List (Bytes × FileNode)}
    (isDirectory : system.node? place = some (.directory entries))
    (here : ∃ left, ∀ back,
      follow system .find onLink place back = walk system .find left place back)
    (onward : ∀ directory front, onLink directory front = .ok (.existing place) →
      ∃ left, ∀ back, onLink directory (front ++ back) = walk system .find left place back)
    (led : follow system .find onLink directory front = .ok (.existing place)) :
    ∃ left, ∀ back, follow system .find onLink directory (front ++ back) =
      walk system .find left place back := by
  induction front generalizing directory with
  | nil =>
      cases led
      exact here
  | cons name front ih =>
      simp only [List.cons_append]
      by_cases current : name = [] ∨ name = currentName
      · simp only [follow_current current] at led ⊢
        exact ih led
      by_cases parent : name = parentName
      · simp only [follow_parent current parent] at led ⊢
        exact ih led
      obtain ⟨ordinary, ⟨_, found⟩ | ⟨target, found⟩ | ⟨node, found, noDirectory⟩⟩ :=
        follow_cases current parent led
      · simp only [follow_directory ordinary found] at led ⊢
        exact ih led
      · simp only [follow_link ordinary found, ← List.append_assoc] at led ⊢
        exact onward _ _ led
      · rw [found] at isDirectory
        cases isDirectory
        contradiction

/-- Where a path leads to a directory, longer paths go on from there. -/
theorem walk_append {links : Nat} {directory place front : List Bytes}
    {entries : List (Bytes × FileNode)}
    (isDirectory : system.node? place = some (.directory entries))
    (led : system.walk .find links directory front = .ok (.existing place)) :
    ∃ left, ∀ back, system.walk .find links directory (front ++ back) =
      system.walk .find left place back := by
  -- A link starts anew with one link less, so the induction is on the links that are left.
  induction links generalizing directory front with
  | zero => exact follow_append isDirectory ⟨0, fun _ => rfl⟩ nofun led
  | succ links outer =>
      exact follow_append isDirectory ⟨links + 1, fun _ => rfl⟩ (fun _ _ => outer) led

/-! ## Places in a tree -/

theorem isOrdinary_of_isName {name : Bytes} (isName : FileNode.IsName name) :
    IsOrdinary name where
  notCurrent := by
    rintro (empty | current)
    · exact isName.ne_nil empty
    · exact isName.ne_current current
  notParent := isName.ne_parent
  length_le := isName.length_le

theorem node?_append (front back : List Bytes) :
    system.node? (front ++ back) = (system.node? front).bind (·.at? back) :=
  FileNode.at?_append _ front back

/-- From a directory, the names of a place below it lead there. -/
theorem follow_at {onLink : List Bytes → List Bytes → Except SystemError Destination}
    {directory names : List Bytes} {tree node : FileNode} (isTree : tree.IsTree)
    (here : system.node? directory = some tree) (below : names ≠ [])
    (found : tree.at? names = some node) (noLink : ∀ target, node ≠ .link target) :
    follow system .find onLink directory names = .ok (.existing (directory ++ names)) := by
  induction names generalizing directory tree with
  | nil => contradiction
  | cons name names ih =>
      cases isTree with
      | directory distinct areNames areTrees =>
          rw [FileNode.at?] at found
          obtain ⟨child, first, rest⟩ := Option.bind_eq_some_iff.mp found
          have member := FileNode.mem_of_child? first
          have ordinary := isOrdinary_of_isName (areNames _ member)
          have step : system.node? (directory ++ [name]) = some child := by
            simp [node?_append, here, FileNode.at?, first]
          cases names with
          | nil =>
              rw [FileNode.at?_nil, Option.some.injEq] at rest
              subst rest
              cases child with
              | directory entries =>
                  rw [follow_directory ordinary step]
                  rfl
              | link target => exact absurd rfl (noLink target)
              | _ =>
                  rw [follow_leaf ordinary step rfl noLink]
                  rfl
          | cons next names =>
              have onward := ih (areTrees _ member) step (List.cons_ne_nil _ _) rest
              cases child with
              | directory entries =>
                  rw [follow_directory ordinary step, onward, List.append_assoc]
                  rfl
              | _ => simp [FileNode.at?] at rest
      | _ => simp [FileNode.at?] at found

end FileSystem

end IncludeGate
