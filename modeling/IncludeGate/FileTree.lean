import IncludeGate.Text.Utf8

/-!
# File trees

What a disk holds: files, directories of named nodes, symbolic links and other
things that are neither.  A place in a tree is the list of the names that lead to
it from the root, outermost first; following names from node to node never follows
a link, so a place has at most one node.

Looking a name up takes the first entry that has it.  So the entries of a directory
are meant to have distinct names, and `putChild` keeps them distinct.
-/

namespace IncludeGate

/-- What a name in a directory stands for. -/
inductive FileNode where
  /-- A file, and whether it may be run as a program. -/
  | file (content : Bytes) (executable : Bool)
  | directory (entries : List (Bytes × FileNode))
  /-- A symbolic link to the path that its target spells. -/
  | link (target : Bytes)
  /-- A device, a pipe or a socket. -/
  | special
  deriving Repr

namespace FileNode

/-- Whether a node is a directory itself, and not merely a link to one. -/
def isDirectory : FileNode → Bool
  | directory _ => true
  | _ => false

/-- The node that a directory has under a name. -/
def child? (name : Bytes) : List (Bytes × FileNode) → Option FileNode
  | [] => none
  | (first, node) :: rest => if first = name then some node else child? name rest

/-- Put a node under a name, in place of the one that is there. -/
def putChild (name : Bytes) (node : FileNode) : List (Bytes × FileNode) → List (Bytes × FileNode)
  | [] => [(name, node)]
  | (first, old) :: rest =>
      if first = name then (name, node) :: rest else (first, old) :: putChild name node rest

@[simp] theorem child?_putChild_self (name : Bytes) (node : FileNode)
    (entries : List (Bytes × FileNode)) : child? name (putChild name node entries) = some node := by
  induction entries with
  | nil => simp [putChild, child?]
  | cons first rest ih =>
      by_cases same : first.1 = name <;> simp [putChild, child?, same, ih]

theorem child?_putChild_of_ne {name other : Bytes} (different : other ≠ name) (node : FileNode)
    (entries : List (Bytes × FileNode)) :
    child? other (putChild name node entries) = child? other entries := by
  induction entries with
  | nil => simp [putChild, child?, Ne.symm different]
  | cons first rest ih =>
      obtain ⟨first, old⟩ := first
      by_cases same : first = name
      · subst same
        simp [putChild, child?, Ne.symm different]
      · simp [putChild, child?, same, ih]

theorem mem_names_putChild {name other : Bytes} {node : FileNode}
    {entries : List (Bytes × FileNode)} :
    other ∈ (putChild name node entries).map (·.1) ↔
      other = name ∨ other ∈ entries.map (·.1) := by
  induction entries with
  | nil => simp [putChild]
  | cons first rest ih =>
      obtain ⟨first, old⟩ := first
      by_cases same : first = name
      · simp [putChild, same]
      · simp only [putChild, if_neg same, List.map_cons, List.mem_cons, ih]
        exact or_left_comm

/-- Distinct names stay distinct. -/
theorem nodup_names_putChild {name : Bytes} {node : FileNode}
    {entries : List (Bytes × FileNode)} (distinct : (entries.map (·.1)).Nodup) :
    ((putChild name node entries).map (·.1)).Nodup := by
  induction entries with
  | nil => simp [putChild]
  | cons first rest ih =>
      obtain ⟨first, old⟩ := first
      simp only [List.map_cons, List.nodup_cons] at distinct
      by_cases same : first = name
      · subst same
        simpa [putChild] using distinct
      · simp only [putChild, if_neg same, List.map_cons, List.nodup_cons, mem_names_putChild]
        exact ⟨fun member => member.elim same distinct.1, ih distinct.2⟩

/-- The node at a place below a node. -/
def at? : FileNode → List Bytes → Option FileNode
  | node, [] => some node
  | directory entries, name :: rest => (child? name entries).bind (at? · rest)
  | _, _ :: _ => none

@[simp] theorem at?_nil (node : FileNode) : node.at? [] = some node := by
  cases node <;> rfl

/-- Going on from a place is going to the longer place. -/
theorem at?_append (node : FileNode) (front back : List Bytes) :
    node.at? (front ++ back) = (node.at? front).bind (·.at? back) := by
  induction front generalizing node with
  | nil => simp
  | cons name front ih =>
      cases node with
      | directory entries =>
          simp only [List.cons_append, at?]
          cases child? name entries with
          | none => rfl
          | some child => simpa using ih child
      | _ => rfl

/-- Put a node at a place.  Where the directory that should hold it does not
exist, nothing changes. -/
def insert : FileNode → List Bytes → FileNode → FileNode
  | _, [], node => node
  | directory entries, [name], node => directory (putChild name node entries)
  | directory entries, name :: next :: rest, node =>
      match child? name entries with
      | some child => directory (putChild name (insert child (next :: rest) node) entries)
      | none => directory entries
  | other, _ :: _, _ => other

end FileNode

end IncludeGate
