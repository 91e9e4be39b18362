/-!
# Questions put one after another

Frontends and compilers are both asked a question at a time, and an answer may depend
on everything asked before.  The answers to a list of questions and the state behind
them say what such a dialogue comes to, whoever conducts it, and a record of the questions
changes neither.
-/

namespace IncludeGate.Dialogue

variable {Question Answer State : Type} (ask : Question → State → Answer × State)

/-- The answers to questions that are put one after another. -/
def answers : List Question → State → List Answer
  | [], _ => []
  | question :: rest, state =>
      (ask question state).1 :: answers rest (ask question state).2

/-- The state after questions that are put one after another. -/
def stateAfter : List Question → State → State
  | [], state => state
  | question :: rest, state => stateAfter rest (ask question state).2

/-- The questions up to the first whose answer ends the dialogue. -/
def asked (ends : Answer → Bool) (questions : List Question) (state : State) :
    List Question :=
  questions.take ((answers ask questions state).findIdx ends + 1)

theorem answers_cons (question : Question) (rest : List Question) (state : State) :
    answers ask (question :: rest) state =
      (ask question state).1 :: answers ask rest (ask question state).2 := rfl

theorem stateAfter_nil (state : State) : stateAfter ask [] state = state := rfl

theorem stateAfter_cons (question : Question) (rest : List Question) (state : State) :
    stateAfter ask (question :: rest) state =
      stateAfter ask rest (ask question state).2 := rfl

theorem length_answers (questions : List Question) (state : State) :
    (answers ask questions state).length = questions.length := by
  induction questions generalizing state with
  | nil => rfl
  | cons question rest ih => rw [answers_cons, List.length_cons, List.length_cons, ih]

theorem stateAfter_append (first second : List Question) (state : State) :
    stateAfter ask (first ++ second) state =
      stateAfter ask second (stateAfter ask first state) := by
  induction first generalizing state with
  | nil => rfl
  | cons question rest ih => exact ih (ask question state).2

theorem answers_append (first second : List Question) (state : State) :
    answers ask (first ++ second) state =
      answers ask first state ++ answers ask second (stateAfter ask first state) := by
  induction first generalizing state with
  | nil => rfl
  | cons question rest ih =>
      rw [List.cons_append, answers_cons, answers_cons, stateAfter_cons, List.cons_append,
        ih (ask question state).2]

theorem getElem?_answers (first : List Question) (question : Question)
    (rest : List Question) (state : State) :
    (answers ask (first ++ question :: rest) state)[first.length]? =
      some (ask question (stateAfter ask first state)).1 := by
  rw [answers_append, List.getElem?_append_right (Nat.le_of_eq (length_answers ..)),
    length_answers, Nat.sub_self]
  rfl

/-- Where the state counts for nothing, neither does the order of the questions. -/
theorem answers_of_stateless {ask : Question → State → Answer × State}
    {answer : Question → Answer}
    (stateless : ∀ question state, (ask question state).1 = answer question)
    (questions : List Question) (state : State) :
    answers ask questions state = questions.map answer := by
  induction questions generalizing state with
  | nil => rfl
  | cons question rest ih => rw [answers_cons, stateless, ih, List.map_cons]

/-! ## Dialogues that end -/

section Ends

variable {ask} {ends : Answer → Bool} {first : List Question} {state : State}

/-- A dialogue whose answers never end it asks everything. -/
theorem findIdx_of_never_ends (goesOn : ∀ answer ∈ answers ask first state, ends answer = false) :
    (answers ask first state).findIdx ends = first.length := by
  rw [List.findIdx_eq_length_of_false goesOn, length_answers]

/-- A dialogue ends at the first question whose answer ends it. -/
theorem findIdx_of_ends {question : Question}
    (goesOn : ∀ answer ∈ answers ask first state, ends answer = false)
    (final : ends (ask question (stateAfter ask first state)).1 = true)
    (rest : List Question) :
    (answers ask (first ++ question :: rest) state).findIdx ends = first.length := by
  rw [answers_append, List.findIdx_append, findIdx_of_never_ends goesOn, length_answers,
    if_neg (Nat.lt_irrefl _), answers_cons, List.findIdx_cons, final]
  exact Nat.zero_add _

theorem asked_of_never_ends
    (goesOn : ∀ answer ∈ answers ask first state, ends answer = false) :
    asked ask ends first state = first := by
  rw [asked, findIdx_of_never_ends goesOn]
  exact List.take_of_length_le (Nat.le_succ _)

theorem asked_of_ends {question : Question}
    (goesOn : ∀ answer ∈ answers ask first state, ends answer = false)
    (final : ends (ask question (stateAfter ask first state)).1 = true)
    (rest : List Question) :
    asked ask ends (first ++ question :: rest) state = first ++ [question] := by
  rw [asked, findIdx_of_ends goesOn final, List.append_cons]
  apply List.take_left'
  rw [List.length_append, List.length_singleton]

theorem asked_cons_of_ends {question : Question}
    (final : ends (ask question state).1 = true) (rest : List Question) :
    asked ask ends (question :: rest) state = [question] := by
  rw [asked, answers_cons, List.findIdx_cons, final]
  rfl

theorem asked_cons_of_not_ends {question : Question}
    (goesOn : ends (ask question state).1 = false) (rest : List Question) :
    asked ask ends (question :: rest) state =
      question :: asked ask ends rest (ask question state).2 := by
  rw [asked, answers_cons, List.findIdx_cons, goesOn]
  rfl

end Ends

/-! ## Records -/

/-- The same dialogue with the questions kept, the latest one last. -/
def recorded (question : Question) (state : State × List Question) :
    Answer × State × List Question :=
  ((ask question state.1).1, (ask question state.1).2, state.2 ++ [question])

theorem answers_recorded (questions : List Question) (state : State × List Question) :
    answers (recorded ask) questions state = answers ask questions state.1 := by
  induction questions generalizing state with
  | nil => rfl
  | cons question rest ih =>
      rw [answers_cons, answers_cons, ih]
      rfl

theorem stateAfter_recorded (questions : List Question) (state : State)
    (seen : List Question) :
    stateAfter (recorded ask) questions (state, seen) =
      (stateAfter ask questions state, seen ++ questions) := by
  induction questions generalizing state seen with
  | nil => rw [stateAfter_nil, stateAfter_nil, List.append_nil]
  | cons question rest ih =>
      rw [stateAfter_cons, stateAfter_cons]
      change stateAfter (recorded ask) rest (_, seen ++ [question]) = _
      rw [ih, List.append_assoc, List.singleton_append]

end IncludeGate.Dialogue
