import IncludeGate.IncludeGraph
import IncludeGate.Proofs.Linemarker.Writing

/-!
# Reading stretches of preprocessed text

What a stretch of preprocessed text does depends on the files that are open before it:
it finds edges and leaves files open.  `Reads` says both of a list of lines.  It is
shown once for each kind of line and composes along the text, so that results about
whole texts follow the way in which the texts are built.

The counter of a file stands still at the greatest line number, so counters are
compared through `counter`, which does the same.
-/

namespace IncludeGate.IncludeGraph

open Text

/-! ## Lines and markers -/

/-- A line that is no marker. -/
structure TextLine where
  characters : List Char
  oneLine : '\n' ∉ characters
  noMarker : Linemarker.parse? characters = none

/-- The name of a file, as opposed to a pseudo file. -/
structure FileName where
  text : String
  real : isPseudoFile text = false

/-- What a marker does to the open files. -/
inductive Move where
  | stay
  | enter
  | leave
  deriving DecidableEq, Repr

/-- What a marker may add about a file. -/
inductive Remark where
  | systemHeader
  | foreignLinkage
  deriving DecidableEq, Repr

def Move.flags : Move → List UInt8
  | stay => []
  | enter => [1]
  | leave => [2]

def Remark.flag : Remark → UInt8
  | systemHeader => 3
  | foreignLinkage => 4

/-- What a marker does to the open files.  One that enters a file does nothing else. -/
def moveOf (marker : Linemarker) : Move :=
  if marker.entersFile then .enter else if marker.returnsToFile then .leave else .stay

/-- The marker that makes a line of a file the next one. -/
def marker (move : Move) (line : UInt32) (file : String) (remarks : List Remark) :
    Linemarker :=
  ⟨line, file, move.flags ++ remarks.map Remark.flag⟩

/-- The names that stand for no file and not for the unit either. -/
def IsPseudo (unit name : String) : Prop :=
  isPseudoFile name = true ∧ name ≠ unit

/-- Whether includes of a file count: those of the unit do, and those of files. -/
def IsReadable (unit name : String) : Prop :=
  name = unit ∨ isPseudoFile name = false

instance (unit name : String) : Decidable (IsReadable unit name) :=
  inferInstanceAs (Decidable (_ ∨ _))

/-- The edge of a marker that enters a file while another one is being read. -/
def edgeFrom (includer : Frame) (marker : Linemarker) : IncludeEdge :=
  ⟨marker.file, includer.file, ⟨includer.file, includer.nextLine, 0⟩⟩

/-! ## Steps of the reader -/

@[simp] theorem file_marker (move : Move) (line : UInt32) (file : String)
    (remarks : List Remark) : (marker move line file remarks).file = file := rfl

@[simp] theorem entersFile_marker (move : Move) (line : UInt32) (file : String)
    (remarks : List Remark) :
    (marker move line file remarks).entersFile = decide (move = .enter) := by
  have other : ∀ remark ∈ remarks, remark.flag ≠ 1 := by
    intro remark _
    cases remark <;> decide
  cases move with
  | enter => simp [Linemarker.entersFile, marker, Move.flags]
  | stay | leave => simpa [Linemarker.entersFile, marker, Move.flags] using other

@[simp] theorem returnsToFile_marker (move : Move) (line : UInt32) (file : String)
    (remarks : List Remark) :
    (marker move line file remarks).returnsToFile = decide (move = .leave) := by
  have other : ∀ remark ∈ remarks, remark.flag ≠ 2 := by
    intro remark _
    cases remark <;> decide
  cases move with
  | leave => simp [Linemarker.returnsToFile, marker, Move.flags]
  | stay | enter => simpa [Linemarker.returnsToFile, marker, Move.flags] using other

variable {unit file : String} {line : UInt32} {remarks : List Remark}
variable {frames below : List Frame} {top inner outer : Frame}

@[simp] theorem moveOf_marker (move : Move) (line : UInt32) (file : String)
    (remarks : List Remark) : moveOf (marker move line file remarks) = move := by
  cases move <;> simp [moveOf]

section Moves

variable {mark : Linemarker}

theorem moveOf_eq_enter_iff : moveOf mark = .enter ↔ mark.entersFile = true := by
  cases enters : mark.entersFile <;> cases returns : mark.returnsToFile <;>
    simp [moveOf, enters, returns]

theorem moveOf_eq_leave_iff :
    moveOf mark = .leave ↔ mark.entersFile = false ∧ mark.returnsToFile = true := by
  cases enters : mark.entersFile <;> cases returns : mark.returnsToFile <;>
    simp [moveOf, enters, returns]

theorem moveOf_eq_stay_iff :
    moveOf mark = .stay ↔ mark.entersFile = false ∧ mark.returnsToFile = false := by
  cases enters : mark.entersFile <;> cases returns : mark.returnsToFile <;>
    simp [moveOf, enters, returns]

theorem advance_of_enter (enters : moveOf mark = .enter) :
    advance frames (some mark) = ⟨mark.file, mark.line⟩ :: frames := by
  rw [moveOf_eq_enter_iff] at enters
  cases frames <;> simp only [advance, enters, if_true]

theorem advance_of_leave (leaves : moveOf mark = .leave) :
    advance (inner :: outer :: below) (some mark) = ⟨mark.file, mark.line⟩ :: below := by
  obtain ⟨enters, returns⟩ := moveOf_eq_leave_iff.mp leaves
  simp only [advance, enters, returns]
  rfl

theorem advance_of_stay (stays : moveOf mark = .stay) :
    advance (top :: below) (some mark) = ⟨mark.file, mark.line⟩ :: below := by
  obtain ⟨enters, returns⟩ := moveOf_eq_stay_iff.mp stays
  simp only [advance, enters, returns]
  cases below <;> rfl

end Moves

theorem advance_enter :
    advance frames (some (marker .enter line file remarks)) = ⟨file, line⟩ :: frames :=
  advance_of_enter (moveOf_marker ..)

theorem advance_leave :
    advance (inner :: outer :: below) (some (marker .leave line file remarks)) =
      ⟨file, line⟩ :: below :=
  advance_of_leave (moveOf_marker ..)

theorem advance_stay :
    advance (top :: below) (some (marker .stay line file remarks)) =
      ⟨file, line⟩ :: below :=
  advance_of_stay (moveOf_marker ..)

theorem advance_start :
    advance [] (some (marker .stay line file remarks)) = [⟨file, line⟩] := by
  simp only [advance, entersFile_marker]
  rfl

/-- A marker makes its file the current one, whatever else it does. -/
theorem advance_some (frames : List Frame) (marker : Linemarker) :
    ∃ below, advance frames (some marker) = ⟨marker.file, marker.line⟩ :: below := by
  rcases frames with _ | ⟨top, _ | ⟨outer, below⟩⟩
  all_goals
    simp only [advance]
    repeat' split
    all_goals exact ⟨_, rfl⟩

/-- A marker gives an edge if it enters a file from the unit or from a file. -/
theorem edge?_some (unit : String) (frames : List Frame) (marker : Linemarker) :
    edge? unit frames (some marker) =
      if marker.entersFile = true ∧ IsReadable unit (current unit frames).file ∧
          isPseudoFile marker.file = false then
        some (edgeFrom (current unit frames) marker)
      else none := by
  have counts : (marker.entersFile &&
      ((current unit frames).file == unit || !isPseudoFile (current unit frames).file) &&
      !isPseudoFile marker.file) = true ↔
        marker.entersFile = true ∧ IsReadable unit (current unit frames).file ∧
          isPseudoFile marker.file = false := by
    simp [IsReadable, and_assoc]
  rw [edge?]
  simp only [counts]
  rfl

/-- Only a marker that enters a file gives an edge. -/
theorem edge?_of_moveOf_ne {mark : Linemarker} (other : moveOf mark ≠ .enter) :
    edge? unit frames (some mark) = none := by
  rw [edge?_some, if_neg]
  rintro ⟨enters, -⟩
  exact other (moveOf_eq_enter_iff.mpr enters)

theorem edge?_of_ne_enter {move : Move} (other : move ≠ .enter) :
    edge? unit frames (some (marker move line file remarks)) = none :=
  edge?_of_moveOf_ne (by rwa [moveOf_marker])

/-- A pseudo file is entered without an edge. -/
theorem edge?_to_pseudo {move : Move} (pseudo : isPseudoFile file = true) :
    edge? unit frames (some (marker move line file remarks)) = none := by
  simp [edge?_some, pseudo]

/-- A file that is entered from a pseudo file gives no edge. -/
theorem edge?_from_pseudo {name : String} {reached : UInt32} {move : Move}
    (pseudo : IsPseudo unit name) :
    edge? unit (⟨name, reached⟩ :: below) (some (marker move line file remarks)) = none := by
  simp [edge?_some, current, IsReadable, pseudo.1, pseudo.2]

/-- A file that is entered from the unit or from another file gives an edge. -/
theorem edge?_enter {child : FileName} (readable : IsReadable unit top.file) :
    edge? unit (top :: below) (some (marker .enter line child.text remarks)) =
      some ⟨child.text, top.file, ⟨top.file, top.nextLine, 0⟩⟩ := by
  rw [edge?_some, if_pos ⟨by simp, readable, child.real⟩]
  rfl

/-! ## Reading whole stretches -/

theorem framesAfter_append (frames : List Frame) (first second : List (Option Linemarker)) :
    framesAfter frames (first ++ second) = framesAfter (framesAfter frames first) second :=
  List.foldl_append

/-- Reading lines, given the open files, finds edges and leaves files open. -/
structure Reads (unit : String) (before : List Frame) (output : List (List Char))
    (found : List IncludeEdge) (after : List Frame) : Prop where
  edges : edgesFrom unit before (output.map Linemarker.parse?) = found
  frames : framesAfter before (output.map Linemarker.parse?) = after
  oneLine : ∀ line ∈ output, '\n' ∉ line

namespace Reads

variable {before between after : List Frame} {first second : List (List Char)}
variable {found further : List IncludeEdge}

theorem nil : Reads unit before [] [] before :=
  ⟨rfl, rfl, fun _ member => absurd member List.not_mem_nil⟩

theorem append (left : Reads unit before first found between)
    (right : Reads unit between second further after) :
    Reads unit before (first ++ second) (found ++ further) after where
  edges := by rw [List.map_append, edgesFrom_append, left.edges, left.frames, right.edges]
  frames := by rw [List.map_append, framesAfter_append, left.frames, right.frames]
  oneLine := by
    intro line member
    rcases List.mem_append.mp member with early | late
    · exact left.oneLine line early
    · exact right.oneLine line late

/-- Reading one line. -/
theorem single {line : List Char} {marker : Option Linemarker} {after : List Frame}
    (oneLine : '\n' ∉ line) (parsed : Linemarker.parse? line = marker)
    (finds : (edge? unit before marker).toList = found)
    (moves : advance before marker = after) : Reads unit before [line] found after where
  edges := by simp [edgesFrom, parsed, finds]
  frames := by simp [parsed, moves]
  oneLine := by
    intro other member
    exact List.mem_singleton.mp member ▸ oneLine

theorem text (line : TextLine) (top : Frame) (below : List Frame) :
    Reads unit (top :: below) [line.characters] []
      (⟨top.file, lineAfter top.nextLine⟩ :: below) :=
  single line.oneLine line.noMarker rfl rfl

theorem enter {text : List Char} {child : FileName}
    (written : (marker .enter line child.text remarks).WrittenAs text)
    (readable : IsReadable unit top.file) :
    Reads unit (top :: below) [text] [⟨child.text, top.file, ⟨top.file, top.nextLine, 0⟩⟩]
      (⟨child.text, line⟩ :: top :: below) :=
  single written.oneLine written.parse? (by rw [edge?_enter readable]; rfl) advance_enter

theorem leave {text : List Char}
    (written : (marker .leave line file remarks).WrittenAs text) :
    Reads unit (inner :: outer :: below) [text] [] (⟨file, line⟩ :: below) :=
  single written.oneLine written.parse? (by rw [edge?_of_ne_enter (by decide)]; rfl)
    advance_leave

theorem stay {text : List Char}
    (written : (marker .stay line file remarks).WrittenAs text) :
    Reads unit (top :: below) [text] [] (⟨file, line⟩ :: below) :=
  single written.oneLine written.parse? (by rw [edge?_of_ne_enter (by decide)]; rfl)
    advance_stay

/-- The first marker of a text opens its file. -/
theorem start {text : List Char}
    (written : (marker .stay line file remarks).WrittenAs text) :
    Reads unit [] [text] [] [⟨file, line⟩] :=
  single written.oneLine written.parse? (by rw [edge?_of_ne_enter (by decide)]; rfl)
    advance_start

/-- Lines of text move the current file on and find nothing. -/
theorem texts (fillers : List TextLine) (top : Frame) (below : List Frame) :
    ∃ line, Reads unit (top :: below) (fillers.map TextLine.characters) []
      (⟨top.file, line⟩ :: below) := by
  induction fillers generalizing top with
  | nil => exact ⟨top.nextLine, nil⟩
  | cons filler fillers ih =>
      obtain ⟨line, rest⟩ := ih ⟨top.file, lineAfter top.nextLine⟩
      exact ⟨line, (text filler top below).append rest⟩

end Reads

/-! ## Line counters -/

/-- The counter of a file whose next line has the given number. -/
def counter (number : Nat) : UInt32 :=
  UInt32.ofNat (min number (UInt32.size - 1))

theorem counter_of_lt {number : Nat} (fits : number < UInt32.size) :
    counter number = UInt32.ofNat number := by
  rw [counter, Nat.min_eq_left (Nat.le_sub_one_of_lt fits)]

theorem counter_toNat (line : UInt32) : counter line.toNat = line := by
  rw [counter_of_lt line.toNat_lt, UInt32.ofNat_toNat]

theorem lineAfter_counter (number : Nat) : lineAfter (counter number) = counter (number + 1) := by
  have bound : min number (UInt32.size - 1) < UInt32.size :=
    Nat.lt_of_le_of_lt (Nat.min_le_right number (UInt32.size - 1)) (by decide)
  have value : (counter number).toNat = min number (UInt32.size - 1) :=
    UInt32.toNat_ofNat_of_lt' bound
  unfold lineAfter
  split
  · rename_i fits
    rw [value] at fits
    have small : number + 1 < UInt32.size := by
      simp only [UInt32.size] at fits ⊢
      omega
    rw [counter_of_lt small, counter_of_lt (Nat.lt_of_succ_lt small), UInt32.ofNat_add]
    rfl
  · rename_i overflow
    rw [value] at overflow
    have large : UInt32.size - 1 ≤ number := by
      simp only [UInt32.size] at overflow ⊢
      omega
    rw [counter, counter, Nat.min_eq_right large, Nat.min_eq_right (Nat.le_succ_of_le large)]

end IncludeGate.IncludeGraph
