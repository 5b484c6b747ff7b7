import MazeRobot.Proofs.Alarms
import MazeRobot.Proofs.FunctionRemoval
import MazeRobot.Proofs.Simulations

/-! # Functions that are never called

Lint warns about a function that is never called. Nothing is lost without it: the program from which
it is taken out gives the same commands. The machine of the shorter program skips the visits of the
definitions, and knows one function less, which no call asks for.

* `Program.reports_uncalled_iff`: what the warning says in terms of the text.
* `Machine.Spares`, `Machine.simulation_spares`: the shorter program keeps up.
* `Session.runs_without_uncalled`: both programs are reported alike. -/

namespace MazeRobot

/-! ## What the warning says -/

/-- The last letter of a message, by which the warnings about functions differ. -/
def Diagnostic.final? (d : Diagnostic) : Option Char := d.message.toList.getLast?

/-- A text ends with the last letter of its ending. -/
theorem getLast?_toList_append (text : String) {ending : String} (some : ending.toList ≠ []) :
    (text ++ ending).toList.getLast? = ending.toList.getLast? := by
  rw [String.toList_append, List.getLast?_append_of_ne_nil _ some]

/-- A text that ends in a natural number ends in a digit. -/
theorem isDigit_of_getLast?_append_repr {text : String} {n : Nat} {c : Char}
    (last : (text ++ n.repr).toList.getLast? = some c) : c.isDigit = true := by
  have digits : n.repr.toList ≠ [] := by
    rw [Nat.toList_repr]
    exact Nat.toDigits_ne_nil
  rw [getLast?_toList_append text digits, Nat.toList_repr] at last
  exact Nat.isDigit_of_mem_toDigits (by decide) (by decide) (List.mem_of_getLast? last)

/-- A text that ends in an integer ends in a digit. -/
theorem isDigit_of_getLast?_append_int {text : String} {n : Int} {c : Char}
    (last : (text ++ toString n).toList.getLast? = some c) : c.isDigit = true := by
  cases n with
  | ofNat n => exact isDigit_of_getLast?_append_repr last
  | negSucc n =>
    have sign : text ++ toString (Int.negSucc n) = text ++ "-" ++ (n + 1).repr :=
      String.append_assoc.symm
    rw [sign] at last
    exact isDigit_of_getLast?_append_repr last

/-- A warning of `repeatedDefinitions` ends in the number of a line. -/
theorem isDigit_of_mem_repeatedDefinitions {seen fs : List FunctionDef} {d : Diagnostic} {c : Char}
    (member : d ∈ repeatedDefinitions seen fs) (last : d.final? = some c) : c.isDigit = true := by
  induction fs generalizing seen with
  | nil => cases member
  | cons f fs ih =>
    rw [repeatedDefinitions] at member
    cases found : seen.find? (·.name = f.name) with
    | none =>
      rw [found] at member
      exact ih member
    | some first =>
      rw [found] at member
      rcases List.mem_cons.mp member with rfl | later
      · exact isDigit_of_getLast?_append_int last
      · exact ih later

/-- A warning of `lintCall` is about an undefined function or ends in the number of arguments. -/
theorem Survey.isDigit_of_mem_lintCall {survey : Survey} {name : String} {arguments : List Expr}
    {line : Int} {d : Diagnostic} {c : Char} (member : d ∈ survey.lintCall name arguments line)
    (letter : d.initial? = some 'f') (last : d.final? = some c) : c.isDigit = true := by
  rw [lintCall] at member
  cases found : survey.function? name with
  | none =>
    rw [found] at member
    cases List.mem_singleton.mp member
    simp [toString] at letter
  | some f =>
    rw [found] at member
    obtain ⟨-, warned⟩ := List.mem_ite_nil_right.mp member
    cases List.mem_singleton.mp warned
    exact isDigit_of_getLast?_append_repr last

/-- Of the warnings of `lintFunction`, the one that the function is never called is told by its
first and its last letter. -/
theorem Survey.uncalled_of_mem_lintFunction {survey : Survey} {f : FunctionDef} {d : Diagnostic}
    (member : d ∈ survey.lintFunction f) (letter : d.initial? = some 'f')
    (last : d.final? = some 'd') :
    f.name ∉ survey.called ∧ d.message = s!"function '{f.name}' is never called" := by
  rw [lintFunction] at member
  rcases List.mem_append.mp member with first | unused
  · rcases List.mem_append.mp first with empty | uncalled
    · obtain ⟨-, warned⟩ := List.mem_ite_nil_right.mp empty
      cases List.mem_singleton.mp warned
      have ending : (Diagnostic.warning f.line 0
          s!"function '{f.name}' has an empty body").final? = some 'y' :=
        (getLast?_toList_append _ (by decide +kernel)).trans (by decide +kernel)
      rw [ending] at last
      cases last
    · obtain ⟨notCalled, warned⟩ := List.mem_ite_nil_left.mp uncalled
      cases List.mem_singleton.mp warned
      exact ⟨notCalled, rfl⟩
  · obtain ⟨parameter, -, rfl⟩ := List.mem_map.mp unused
    simp [toString] at letter

/-- **`lint` warns that a function is never called exactly if it is defined and not called.** -/
theorem Program.reports_uncalled_iff (program : Program) (name : String) :
    program.lint.Reports s!"function '{name}' is never called" ↔
      (∃ f ∈ Node.definitions program.nodes, f.name = name) ∧
        name ∉ Node.calledNames program.nodes := by
  have first : (∃ f ∈ program.survey.functions, f.name = name) ↔ _ :=
    exists_mem_firstDefinitions_iff (Node.definitions program.nodes) [] (by simp)
  constructor
  · rintro ⟨d, member, message⟩
    have letter : d.initial? = some 'f' := by simp [Diagnostic.initial?, message, toString]
    have last : d.final? = some 'd' := by
      rw [Diagnostic.final?, message]
      exact (getLast?_toList_append _ (by decide +kernel)).trans (by decide +kernel)
    have noDigit : ¬ 'd'.isDigit = true := by decide
    rcases List.mem_append.mp member with other | about
    · rcases List.mem_append.mp other with again | inside
      · exact absurd (isDigit_of_mem_repeatedDefinitions again last) noDigit
      · -- No warning about a statement has both of these letters.
        have read : ∀ {parameters expr}, d ∉ program.survey.lintExpr parameters expr := by
          intro parameters expr warned
          obtain ⟨name', line, -, -, -, other, -⟩ := Survey.mem_lintExpr warned
          simp [Diagnostic.initial?, other, toString] at letter
        cases Survey.arises_of_mem_lintBody program.body inside with
        | read here warned => exact absurd warned read
        | inner defined here warned => exact absurd warned read
        | call here warned =>
          exact absurd (Survey.isDigit_of_mem_lintCall warned letter last) noDigit
        | shape other => simp [letter] at other
    · obtain ⟨f, sorted, warned⟩ := List.mem_flatMap.mp about
      obtain ⟨uncalled, same⟩ := Survey.uncalled_of_mem_lintFunction warned letter last
      cases eq_of_append_eq (message.symm.trans same)
      exact ⟨first.mp ⟨f, List.mem_mergeSort.mp sorted, rfl⟩, uncalled⟩
  · rintro ⟨defined, uncalled⟩
    obtain ⟨f, member, rfl⟩ := first.mpr defined
    refine ⟨.warning f.line 0 s!"function '{f.name}' is never called", ?_, rfl⟩
    have warned : Diagnostic.warning f.line 0 s!"function '{f.name}' is never called" ∈
        program.survey.lintFunction f := by
      have notCalled : f.name ∉ program.survey.called := uncalled
      simp [Survey.lintFunction, notCalled]
    exact List.mem_append_right _
      (List.mem_flatMap.mpr ⟨f, List.mem_mergeSort.mpr member, warned⟩)

/-! ## Runs without a function -/

namespace Machine

variable {name : String} {limits : Limits} {store' : Store} {depth' : Nat} {top : Frame}
  {pushed : List Frame}

/-- A machine of a run, and a machine that stands at the same place of the program without a
function. -/
structure Spares (name : String) (start m m' : Machine) : Prop where
  /-- The first machine belongs to the run. -/
  reached : start.Reaches m
  /-- The second machine stands at the same place, as far as that is left. -/
  here : m'.At (m.frames.filterMap (Frame.without? name)) (m.store.without name) m.callDepth
    m.limits

namespace Spares

variable {start m m' : Machine} {below : List Frame}

/-- The place of a machine that `Spares` a function, told by the innermost frame of the other
one. -/
theorem here_of_frames (spares : Spares name start m m') (frames : m.frames = top :: below) :
    m'.At ((top.without? name).toList ++ below.filterMap (Frame.without? name))
      (m.store.without name) m.callDepth m.limits := by
  rw [← Frame.filterMap_without?_cons, ← frames]
  exact spares.here

/-- A machine that `Spares` a function `KeepsUp` with a visit that goes on. -/
theorem keepsUp_moved (spares : Spares name start m m') (running : m.robot.done = false)
    (frames : m.frames = top :: below)
    (other : ∀ arguments implicit line, top ≠ .stmt (.call name arguments implicit line))
    {next : Machine} (visit : m.visit? = some (.moved next))
    (rule : Moves m.limits m.store m.callDepth top pushed store' depth')
    (there : next.At (pushed ++ below) store' depth' m.limits) :
    KeepsUp (Spares name start) Text.SameButHint m' (.moved next) := by
  have here := spares.here_of_frames frames
  have reached := spares.reached.moved running visit
  have place {next' : Machine} (there' : next'.At (pushed.filterMap (Frame.without? name) ++
      below.filterMap (Frame.without? name)) (store'.without name) depth' m.limits) :
      Spares name start next next' := by
    refine ⟨reached, ?_⟩
    rw [there.frames, there.store, there.depth, there.limits, List.filterMap_append]
    exact there'
  rcases rule.without other with ⟨same, store, depth⟩ | ⟨top', left, rule'⟩
  · -- Nothing happens without the function, so the second machine stands still.
    refine .inl (place ?_)
    rw [same, store, depth]
    exact here
  · rw [left] at here
    obtain ⟨next', visit', there'⟩ := rule'.exists_visit here
    exact .inr ⟨next', visit', place there'⟩

/-- A machine that `Spares` a function keeps up with a command. -/
theorem keepsUp_command (spares : Spares name start m m') (running : m.robot.done = false)
    {kind : Command} {line : Int} (frames : m.frames = .stmt (.command kind line) :: below)
    (visit : m.visit? = some (.command kind line { m with frames := below })) :
    KeepsUp (Spares name start) Text.SameButHint m'
      (.command kind line { m with frames := below }) := by
  have here := spares.here_of_frames frames
  have visit' : m'.visit? = some (.command kind line
      { m' with frames := below.filterMap (Frame.without? name) }) :=
    visit?_of_frames here.frames
  refine ⟨_, visit', spares.reached.command running visit, rfl, ?_, here.depth, here.limits⟩
  show Store.mk (m'.robot.perform kind).1 m'.store.functions m'.store.scopes = _
  rw [here.robot_eq, here.store]
  rfl

/-- A machine that `Spares` a function `KeepsUp` with a fault. -/
theorem keepsUp_failed (spares : Spares name start m m') {stmt : Stmt} {fault : Fault}
    (frames : m.frames = .stmt stmt :: below)
    (other : ∀ arguments implicit line, stmt ≠ .call name arguments implicit line)
    (faults : Faults m.limits m.store m.callDepth stmt fault) :
    KeepsUp (Spares name start) Text.SameButHint m' (.failed fault { m with frames := below }) := by
  have here := spares.here_of_frames frames
  obtain ⟨left, fault', faults', alike⟩ := faults.without other
  rw [left] at here
  exact ⟨fault', _, faults'.exists_visit here, here.robot_eq, alike⟩

end Spares

/-- **The machine of a program without a function that is not called keeps up**: `Spares` is a
`Simulation`. -/
theorem simulation_spares {robot : Robot} {tracing : Bool} {program : Program}
    (uncalled : name ∉ Node.calledNames program.nodes) :
    Simulation (Spares name (load robot limits tracing program)) Text.SameButHint where
  refl := .refl
  robot spares := spares.here.robot_eq
  budget spares := by rw [spares.here.limits]
  ended spares none := by rw [spares.here.frames, none, List.filterMap_nil]
  visit := by
    intro m m' v spares running visit
    obtain ⟨top, below, frames, rule⟩ := visit?_cases visit
    -- What the run comes to stands in the program, so it is no call of the function.
    have other : ∀ arguments implicit line,
        top ≠ .stmt (.call name arguments implicit line) := by
      rintro arguments implicit line rfl
      have inside : Node.stmt (.call name arguments implicit line) ∈ program.nodes := by
        apply spares.reached.confined.nodes
        rw [frames]
        exact List.mem_append_left _ List.mem_cons_self
      exact uncalled (List.mem_filterMap.mpr ⟨_, inside, rfl⟩)
    cases v with
    | moved next =>
      obtain ⟨pushed, store', depth', rule, there⟩ := rule
      exact spares.keepsUp_moved running frames other visit rule there
    | command kind line next =>
      obtain ⟨rfl, rfl⟩ := rule
      exact spares.keepsUp_command running frames visit
    | failed fault next =>
      obtain ⟨stmt, rfl, faults, rfl⟩ := rule
      refine spares.keepsUp_failed frames (fun arguments implicit line same => ?_) faults
      exact other arguments implicit line (congrArg Frame.stmt same)

end Machine

/-! ## Sessions without a function -/

namespace Session

/-- A session for a program `without` a function `Follows` one for the whole program. -/
theorem follows_without (program : Program) (name : String) (level : Level) (limits : Limits)
    (tracing tracing' : Bool) :
    (ofProgram program level limits tracing).Follows
      (Machine.Spares name (.load level.robot limits tracing program)) Text.SameButHint
      (ofProgram (program.without name) level limits tracing') := by
  refine ⟨rfl, .refl .refl _, fun _ => ⟨.start, rfl, ?_, rfl, rfl⟩⟩
  have functions := FunctionDef.foldl_insert_withoutAll name program.body []
  show Store.mk level.robot (((Stmt.withoutAll name program.body).filterMap
    Stmt.definition?).foldl (fun fs f => f.insert fs) (FunctionDef.withoutAll name [])) .initial = _
  rw [functions]
  rfl

/-- **A function that `lint` reports as never called can be taken out.** The program `without` it
has no definition of it left, at any depth. As long as no step of the whole program fails for lack
of budget, both programs are reported alike at every level and with all limits: the same commands
with the same lines, outcomes, positions and headings, and the same failure apart from the candidate
that it suggests. -/
theorem runs_without_uncalled {program : Program} (name : String)
    (reported : program.lint.Reports s!"function '{name}' is never called") :
    (∀ f ∈ Node.definitions (program.without name).nodes, f.name ≠ name) ∧
      ∀ (level : Level) (limits : Limits) (tracing tracing' : Bool),
        (ofProgram program level limits tracing).Affordable →
          ∀ n, List.Forall₂ (StepReport.Follows Text.SameButHint)
            ((ofProgram program level limits tracing).reports n)
            ((ofProgram (program.without name) level limits tracing').reports n) := by
  obtain ⟨-, uncalled⟩ := (program.reports_uncalled_iff name).mp reported
  refine ⟨fun f => Program.name_ne_of_mem_definitions_without, ?_⟩
  intro level limits tracing tracing' affordable n
  exact (follows_without program name level limits tracing tracing').reports
    (Machine.simulation_spares uncalled) affordable n

/-- A source that defines a function twice, once inside a loop and with another definition inside
it, and calls a function with a similar name. -/
def strayWalkSource : List UInt8 := Text.utf8
  ("(repeat 1 (function walk () (function stroll () (forward))) (forward))\n" ++
    "(function walk () (turn left))\n(walks)")

/-- The program of that source. -/
def strayWalk : Program :=
  ⟨[.loop (.number 1 1) [.define "walk" [] [.define "stroll" [] [.command .forward 1] 1] 1,
        .command .forward 1] 1,
      .define "walk" [] [.command .turnLeft 2] 2, .call "walks" [] true 3], 1⟩

/-- `strayWalk` is affordable: its first step gives a command and its second one fails. -/
theorem affordable_strayWalk : (ofProgram strayWalk corridor {} false).Affordable :=
  affordable_of_terminal (n := 2) (by decide +kernel) (by decide +kernel)

/-- `strayWalk` calls a function that is misspelled. Without the function that is not called it
fails in the same way, but the failure suggests nothing. -/
theorem runs_without_uncalled_strayWalk :
    Program.parse strayWalkSource = .ok strayWalk ∧
      strayWalk.lint.Reports "function 'walk' is never called" ∧
      strayWalk.without "walk" =
        ⟨[.loop (.number 1 1) [.command .forward 1] 1, .call "walks" [] true 3], 1⟩ ∧
      ((ofProgram strayWalk corridor {} false).stepped 2).robot.failure? =
        some "Unknown function 'walks' at line 3 (did you mean 'walk'?)" ∧
      ((ofProgram (strayWalk.without "walk") corridor {} false).stepped 2).robot.failure? =
        some "Unknown function 'walks' at line 3" ∧
      ∀ n, List.Forall₂ (StepReport.Follows Text.SameButHint)
        ((ofProgram strayWalk corridor {} false).reports n)
        ((ofProgram (strayWalk.without "walk") corridor {} false).reports n) := by
  have reported : strayWalk.lint.Reports "function 'walk' is never called" := by
    refine (strayWalk.reports_uncalled_iff "walk").mpr ⟨?_, by decide +kernel⟩
    exact ⟨⟨"walk", [], [.command .turnLeft 2], 2⟩, by decide +kernel, rfl⟩
  refine ⟨eq_ok_of_toOption (by decide +kernel), reported, by decide +kernel, by decide +kernel,
    by decide +kernel, ?_⟩
  exact (runs_without_uncalled "walk" reported).2 corridor {} false false affordable_strayWalk

end Session

end MazeRobot
