import BlockWatch.Poll.Script
import Mathlib.Data.List.Basic
import Mathlib.Data.List.Induction

/-!
# Replayed scripts

A script that was polled so many times is told by its answers and that number alone: what is left of
the answers, and the last height among those that were given. A poll changes the script of its own
node and no other. So in whatever order nodes are polled, the answer to a poll follows from its
index among the polls of that node, and the others might as well not have been polled.
-/

namespace BlockWatch

/-! ## One script -/

namespace Script

/-- The last height among answers. -/
def lastHeight? (answers : List Report) : Option UInt64 :=
  (answers.filterMap Except.toOption).getLast?

/-- The answer to the poll of a node with an index, counted from 0: the answer of the script with
that index, if there is one, and otherwise its last height. -/
def answerAt (answers : List Report) (node : String) (index : ℕ) : Report :=
  match answers[index]?, lastHeight? answers with
  | some answer, _ => answer
  | none, some height => .ok height
  | none, none => .error (.transport node "connection refused")

/-- The script with these answers, after so many polls. -/
def polled (answers : List Report) (count : ℕ) : Script :=
  ⟨answers.drop count, lastHeight? (answers.take count), count⟩

theorem lastHeight?_concat (answers : List Report) (answer : Report) :
    lastHeight? (answers ++ [answer]) = answer.toOption.or (lastHeight? answers) := by
  rw [lastHeight?, List.filterMap_append, List.getLast?_append]
  cases answer <;> rfl

/-- A poll gives the answer with the next index. -/
theorem poll_polled (answers : List Report) (node : String) (count : ℕ) :
    (polled answers count).poll node =
      (answerAt answers node count, polled answers (count + 1)) := by
  rcases Nat.lt_or_ge count answers.length with hmore | hdone
  · have hdrop : answers.drop count = answers[count] :: answers.drop (count + 1) :=
      List.drop_eq_getElem_cons hmore
    have htake : answers.take (count + 1) = answers.take count ++ [answers[count]] :=
      (List.take_append_getElem hmore).symm
    have hanswer : answerAt answers node count = answers[count] := by
      rw [answerAt, List.getElem?_eq_getElem hmore]
    rw [hanswer, polled, polled, hdrop, htake, lastHeight?_concat]
    cases answers[count] <;> rfl
  · -- All answers were given, so the last height so far is that of the whole script.
    have hnone : answers[count]? = none := List.getElem?_eq_none hdone
    rw [answerAt, hnone, polled, polled, List.drop_eq_nil_of_le hdone,
      List.drop_eq_nil_of_le (Nat.le_succ_of_le hdone), List.take_of_length_le hdone,
      List.take_of_length_le (Nat.le_succ_of_le hdone)]
    cases lastHeight? answers <;> rfl

end Script

/-! ## Many scripts -/

namespace Scripts

theorem find_put (scripts : Scripts) (ordinal : ℕ) (script : Script) :
    (scripts.put ordinal script).find ordinal = script := by
  simp [find, put]

theorem find_put_of_ne (scripts : Scripts) {ordinal other : ℕ} (h : other ≠ ordinal)
    (script : Script) : (scripts.put ordinal script).find other = scripts.find other := by
  have hkept (entry : ℕ × Script) :
      decide ((entry.1 != ordinal) = true ∧ (entry.1 == other) = true) = (entry.1 == other) := by
    grind
  simp only [find, put, List.find?_cons, List.find?_filter, hkept, beq_false_of_ne h.symm]

/-- Scripts for ordinals, given one after the other. -/
def ofAssignments (assignments : List (ℕ × List Report)) : Scripts :=
  assignments.foldl (fun scripts assignment ↦ scripts.withScript assignment.1 assignment.2) {}

/-- The answers that were last given to an ordinal. An ordinal without a script has none. -/
def assigned (assignments : List (ℕ × List Report)) (ordinal : ℕ) : List Report :=
  ((assignments.filter (·.1 = ordinal)).map (·.2)).getLast?.getD []

theorem ofAssignments_concat (assignments : List (ℕ × List Report)) (last : ℕ × List Report) :
    ofAssignments (assignments ++ [last]) =
      (ofAssignments assignments).withScript last.1 last.2 :=
  List.foldl_concat ..

theorem assigned_concat (assignments : List (ℕ × List Report)) (last : ℕ × List Report)
    (ordinal : ℕ) : assigned (assignments ++ [last]) ordinal =
      if last.1 = ordinal then last.2 else assigned assignments ordinal := by
  split_ifs with h <;> simp [assigned, h]

theorem find_ofAssignments (assignments : List (ℕ × List Report)) (ordinal : ℕ) :
    (ofAssignments assignments).find ordinal = .polled (assigned assignments ordinal) 0 := by
  induction assignments using List.reverseRecOn with
  | nil => rfl
  | append_singleton assignments last ih =>
    rw [ofAssignments_concat, assigned_concat, withScript]
    split_ifs with h
    · rw [h, find_put]
      rfl
    · rw [find_put_of_ne _ (Ne.symm h), ih]

/-! ## Sessions of polls -/

theorem find_poll (scripts : Scripts) (node : Node) :
    (scripts.poll node).2.find node.ordinal = ((scripts.find node.ordinal).poll node.name).2 :=
  find_put scripts node.ordinal _

theorem find_poll_of_ne (scripts : Scripts) {node : Node} {ordinal : ℕ}
    (h : node.ordinal ≠ ordinal) : (scripts.poll node).2.find ordinal = scripts.find ordinal :=
  find_put_of_ne scripts h.symm _

/-- Polls nodes one after the other. Every node that is polled is kept with its answer. -/
def pollAll (scripts : Scripts) : List Node → List (Node × Report) × Scripts
  | [] => ([], scripts)
  | node :: rest =>
    let (answer, next) := scripts.poll node
    let (exchanges, last) := pollAll next rest
    ((node, answer) :: exchanges, last)

theorem pollAll_cons (scripts : Scripts) (node : Node) (rest : List Node) :
    scripts.pollAll (node :: rest) =
      ((node, (scripts.poll node).1) :: ((scripts.poll node).2.pollAll rest).1,
        ((scripts.poll node).2.pollAll rest).2) :=
  rfl

/-- How many polls are of an ordinal. -/
def pollsOf (ordinal : ℕ) (polls : List Node) : ℕ := polls.countP (·.ordinal = ordinal)

theorem pollsOf_cons (ordinal : ℕ) (node : Node) (polls : List Node) :
    pollsOf ordinal (node :: polls) = pollsOf ordinal [node] + pollsOf ordinal polls := by
  rw [← List.singleton_append, pollsOf, List.countP_append]
  rfl

/-- The scripts with these answers, each after so many polls. -/
def Replays (answers : ℕ → List Report) (counts : ℕ → ℕ) (scripts : Scripts) : Prop :=
  ∀ ordinal, scripts.find ordinal = .polled (answers ordinal) (counts ordinal)

section

variable {answers : ℕ → List Report} {counts : ℕ → ℕ} {scripts : Scripts}

/-- A poll gives the next answer of its ordinal, and is counted for it. -/
theorem Replays.poll (h : scripts.Replays answers counts) (node : Node) :
    (scripts.poll node).1 = Script.answerAt (answers node.ordinal) node.name (counts node.ordinal) ∧
      (scripts.poll node).2.Replays answers
        fun ordinal ↦ counts ordinal + pollsOf ordinal [node] := by
  have hpoll := Script.poll_polled (answers node.ordinal) node.name (counts node.ordinal)
  rw [← h node.ordinal] at hpoll
  refine ⟨congrArg Prod.fst hpoll, fun ordinal ↦ ?_⟩
  by_cases hsame : node.ordinal = ordinal
  · subst hsame
    have hone : pollsOf node.ordinal [node] = 1 := by simp [pollsOf]
    simp only [find_poll, hpoll, hone]
  · have hnone : pollsOf ordinal [node] = 0 := by simp [pollsOf, hsame]
    simp only [find_poll_of_ne scripts hsame, hnone]
    exact h ordinal

/-- The answers to the polls of any nodes in any order, and the scripts after them. -/
theorem Replays.pollAll (h : scripts.Replays answers counts) (polls : List Node) :
    (scripts.pollAll polls).1 = polls.mapIdx (fun index node ↦
        (node, Script.answerAt (answers node.ordinal) node.name
          (counts node.ordinal + pollsOf node.ordinal (polls.take index)))) ∧
      (scripts.pollAll polls).2.Replays answers
        fun ordinal ↦ counts ordinal + pollsOf ordinal polls := by
  induction polls generalizing scripts counts with
  | nil => exact ⟨rfl, h⟩
  | cons node rest ih =>
    obtain ⟨hanswer, hnext⟩ := h.poll node
    obtain ⟨hanswers, hlast⟩ := ih hnext
    simp only [Nat.add_assoc, ← pollsOf_cons] at hanswers hlast
    rw [pollAll_cons, List.mapIdx_cons]
    refine ⟨?_, hlast⟩
    rw [hanswer, hanswers]
    rfl

/-- The exchanges with an ordinal are those of a session in which no other is polled. -/
theorem filter_pollAll {others : Scripts} {ordinal : ℕ}
    (h : scripts.find ordinal = others.find ordinal) (polls : List Node) :
    (scripts.pollAll polls).1.filter (·.1.ordinal = ordinal) =
      (others.pollAll (polls.filter (·.ordinal = ordinal))).1 := by
  induction polls generalizing scripts others with
  | nil => rfl
  | cons node rest ih =>
    rw [pollAll_cons]
    by_cases hsame : node.ordinal = ordinal
    · subst hsame
      have hanswer : (scripts.poll node).1 = (others.poll node).1 :=
        congrArg (fun script : Script ↦ (script.poll node.name).1) h
      have hnext : (scripts.poll node).2.find node.ordinal =
          (others.poll node).2.find node.ordinal := by
        rw [find_poll, find_poll, h]
      rw [List.filter_cons_of_pos (by simp), List.filter_cons_of_pos (by simp), pollAll_cons,
        hanswer, ih hnext]
    · have hnext : (scripts.poll node).2.find ordinal = others.find ordinal := by
        rw [find_poll_of_ne scripts hsame, h]
      rw [List.filter_cons_of_neg (by simpa using hsame),
        List.filter_cons_of_neg (by simpa using hsame), ih hnext]

end

/-- Scripts are replayed faithfully, in whatever order nodes are polled. The poll of a node with an
index among the polls of its ordinal gives the answer with that index in the last script that the
ordinal was given; once there is none left, the last height of that script, and without any height a
failure of the transport. Polls of other ordinals make no difference, and those of an ordinal are
counted. -/
theorem pollAll_ofAssignments (assignments : List (ℕ × List Report)) (polls : List Node) :
    let scripts := ofAssignments assignments
    (scripts.pollAll polls).1 = polls.mapIdx (fun index node ↦
        (node, Script.answerAt (assigned assignments node.ordinal) node.name
          (pollsOf node.ordinal (polls.take index)))) ∧
      ∀ ordinal,
        (scripts.pollAll polls).1.filter (·.1.ordinal = ordinal) =
            (scripts.pollAll (polls.filter (·.ordinal = ordinal))).1 ∧
          (scripts.pollAll polls).2.pollCount ordinal = pollsOf ordinal polls := by
  intro scripts
  have hstart : scripts.Replays (assigned assignments) fun _ ↦ 0 := find_ofAssignments assignments
  obtain ⟨hanswers, hlast⟩ := hstart.pollAll polls
  simp only [Nat.zero_add] at hanswers hlast
  refine ⟨hanswers, fun ordinal ↦ ⟨filter_pollAll rfl polls, ?_⟩⟩
  rw [pollCount, hlast ordinal]
  rfl

end Scripts

end BlockWatch
