import MazeRobot.Proofs.Alarms
import MazeRobot.Proofs.Arguments
import MazeRobot.Proofs.Simulations
import MazeRobot.Proofs.WellFormed

/-! # Parameters that are never used

Lint warns about a parameter that the body of its function does not read, definitions inside the
body left aside. Such a parameter has no influence: a call may pass any other number for it, and
nothing that is reported about the run changes, not even where the run fails or uses up its budget.
The bodies of inner definitions do not see the parameter, since a call sees its own scope and the
global one only.

* `Program.reports_unused_iff`: what the warning says in terms of the text.
* `Machine.Disregards`, `Machine.inStep_disregards`: machines with another argument make the same
  visits.
* `Session.reports_eq_of_unused`: both programs are reported the same. -/

namespace MazeRobot

/-! ## What the warning says -/

/-- There is no blank in a text that `IsName`. -/
theorem IsName.notMem_blank {name : String} (isName : IsName name) : ' ' ∉ name.toList := by
  intro member
  have other := isName.forall_mem (p := (· != ' ')) (by decide +kernel) ' ' member
  exact absurd other (by decide)

/-- A message about a name without blanks and another text tells both. -/
theorem eq_and_eq_of_unused_eq {parameter another name owner : String}
    (plain : ' ' ∉ parameter.toList) (plain' : ' ' ∉ another.toList)
    (same : s!"parameter '{parameter}' in '{name}' is never used" =
      s!"parameter '{another}' in '{owner}' is never used") :
    parameter = another ∧ name = owner := by
  have lists := congrArg String.toList same
  have quoted : "' in '".toList = "'".toList ++ ' ' :: "in '".toList := by decide +kernel
  simp only [toString, String.toList_append, List.append_assoc, List.append_cancel_left_eq,
    quoted, List.cons_append] at lists
  rw [← List.append_assoc, ← List.append_assoc another.toList] at lists
  have unquoted : ' ' ∉ "'".toList := by decide +kernel
  -- The first blank stands at the same place on both sides.
  have place := congrArg (List.idxOf ' ') lists
  rw [List.idxOf_append_of_notMem (List.not_mem_append plain unquoted),
    List.idxOf_append_of_notMem (List.not_mem_append plain' unquoted), List.idxOf_cons_self,
    List.idxOf_cons_self] at place
  obtain ⟨first, second⟩ := List.append_inj lists (by simpa using place)
  rw [List.append_cancel_right_eq] at first
  rw [List.cons_inj_right, List.append_cancel_left_eq, List.append_cancel_right_eq] at second
  exact ⟨String.toList_injective first, String.toList_injective second⟩

/-- What is among the `firstDefinitions` is a definition of the program. -/
theorem mem_of_mem_firstDefinitions {f : FunctionDef} {seen fs : List FunctionDef}
    (member : f ∈ firstDefinitions seen fs) : f ∈ fs := by
  induction fs generalizing seen with
  | nil => cases member
  | cons first fs ih =>
    rw [firstDefinitions] at member
    split at member
    · exact List.mem_cons_of_mem _ (ih member)
    · rcases List.mem_cons.mp member with rfl | later
      · exact List.mem_cons_self
      · exact List.mem_cons_of_mem _ (ih later)

/-- `AllWellFormed` holds of statements in a row exactly if it holds of the first and the others. -/
theorem Stmt.allWellFormed_append {stmts others : List Stmt} :
    AllWellFormed (stmts ++ others) ↔ AllWellFormed stmts ∧ AllWellFormed others := by
  induction stmts with
  | nil => simp [AllWellFormed]
  | cons stmt stmts ih => simp [AllWellFormed, ih, and_assoc]

/-- What stands at a site of statements that are `AllWellFormed` is so. -/
theorem Site.allWellFormed_of_fill {stmts : List Stmt} (site : Site)
    (formed : Stmt.AllWellFormed (site.fill stmts)) : Stmt.AllWellFormed stmts := by
  induction site with
  | here before after =>
    exact (Stmt.allWellFormed_append.mp (Stmt.allWellFormed_append.mp formed).1).2
  | inside before shell inner after ih =>
    have around := (Stmt.allWellFormed_append.mp formed).2.1
    cases shell with
    | block line => exact around.elim
    | loop count line => exact ih around.2
    | branch condition line => exact ih around.2
    | define name parameters line => exact ih around.2.2.2

/-- The parameters of functions in a program that is `WellFormed` are names. -/
theorem Program.WellFormed.isName_of_mem_parameters {program : Program}
    (formed : program.WellFormed) {f : FunctionDef} (defined : f ∈ Node.definitions program.nodes)
    {parameter : String} (member : parameter ∈ f.parameters) : IsName parameter := by
  obtain ⟨site, place⟩ := Program.exists_site (Node.mem_definitions.mp defined) nofun
  rw [Program.WellFormed, place] at formed
  exact (site.allWellFormed_of_fill formed).1.2.1 parameter member

/-- A name is among the `ownReads` of a function exactly if a variable of that name stands in its
own body. -/
theorem Survey.mem_ownReads {f : FunctionDef} {name : String} :
    name ∈ ownReads f ↔ ∃ line, Node.expr (.var name line) ∈ Stmt.ownNodesAll f.body := by
  have own : ownReads f = Node.readNames (Stmt.ownNodesAll f.body) := rfl
  rw [own, Node.readNames, List.mem_filterMap]
  constructor
  · rintro ⟨node, member, reads⟩
    split at reads
    · cases reads
      exact ⟨_, member⟩
    · cases reads
  · rintro ⟨line, member⟩
    exact ⟨_, member, rfl⟩

/-- Of the warnings of `lintFunction`, those about a parameter are told by their first letter. -/
theorem Survey.unused_of_mem_lintFunction {survey : Survey} {f : FunctionDef} {d : Diagnostic}
    (member : d ∈ survey.lintFunction f) (letter : d.initial? = some 'p') :
    ∃ parameter ∈ f.parameters, parameter ∉ ownReads f ∧
      d.message = s!"parameter '{parameter}' in '{f.name}' is never used" := by
  rw [lintFunction] at member
  rcases List.mem_append.mp member with first | unused
  · rcases List.mem_append.mp first with empty | uncalled
    · obtain ⟨-, warned⟩ := List.mem_ite_nil_right.mp empty
      cases List.mem_singleton.mp warned
      simp [toString] at letter
    · obtain ⟨-, warned⟩ := List.mem_ite_nil_left.mp uncalled
      cases List.mem_singleton.mp warned
      simp [toString] at letter
  · obtain ⟨parameter, unread, rfl⟩ := List.mem_map.mp unused
    obtain ⟨own, notRead⟩ := List.mem_filter.mp unread
    exact ⟨parameter, own, by simpa using notRead, rfl⟩

/-- `lintFunction` warns of each parameter that is not among the `ownReads` of a function. -/
theorem Survey.reports_of_unread (survey : Survey) {f : FunctionDef} {parameter : String}
    (own : parameter ∈ f.parameters) (unread : parameter ∉ ownReads f) :
    Diagnostics.Reports (survey.lintFunction f)
      s!"parameter '{parameter}' in '{f.name}' is never used" := by
  refine ⟨.warning f.line 0 s!"parameter '{parameter}' in '{f.name}' is never used", ?_, rfl⟩
  refine List.mem_append_right _ (List.mem_map.mpr ⟨parameter, ?_, rfl⟩)
  exact List.mem_filter.mpr ⟨own, by simpa using unread⟩

/-- **`lint` warns that a parameter is never used exactly if the first definition of the function
has it and does not read it.** -/
theorem Program.reports_unused_iff {program : Program} (formed : program.WellFormed)
    {parameter : String} (isName : IsName parameter) (name : String) :
    program.lint.Reports s!"parameter '{parameter}' in '{name}' is never used" ↔
      ∃ f ∈ program.survey.functions, f.name = name ∧ parameter ∈ f.parameters ∧
        parameter ∉ Survey.ownReads f := by
  constructor
  · rintro ⟨d, member, message⟩
    have letter : d.initial? = some 'p' := by simp [Diagnostic.initial?, message, toString]
    rcases List.mem_append.mp member with other | about
    · rcases List.mem_append.mp other with again | inside
      · simp [initial?_of_mem_repeatedDefinitions again] at letter
      · -- No warning about a statement starts with this letter.
        have read : ∀ {parameters expr}, d ∉ program.survey.lintExpr parameters expr := by
          intro parameters expr warned
          obtain ⟨name', line, -, -, -, other, -⟩ := Survey.mem_lintExpr warned
          simp [Diagnostic.initial?, other, toString] at letter
        cases Survey.arises_of_mem_lintBody program.body inside with
        | read here warned => exact absurd warned read
        | inner defined here warned => exact absurd warned read
        | call here warned =>
          rcases Survey.mem_lintCall warned with ⟨-, other, -⟩ | other
          · simp [Diagnostic.initial?, other, toString] at letter
          · simp [other] at letter
        | shape other => simp [letter] at other
    · obtain ⟨f, sorted, warned⟩ := List.mem_flatMap.mp about
      have surveyed : f ∈ program.survey.functions := List.mem_mergeSort.mp sorted
      obtain ⟨parameter', own, unread, same⟩ := Survey.unused_of_mem_lintFunction warned letter
      have isName' :=
        formed.isName_of_mem_parameters (mem_of_mem_firstDefinitions surveyed) own
      obtain ⟨rfl, rfl⟩ := eq_and_eq_of_unused_eq isName.notMem_blank isName'.notMem_blank
        (message.symm.trans same)
      exact ⟨f, surveyed, rfl, own, unread⟩
  · rintro ⟨f, surveyed, rfl, own, unread⟩
    obtain ⟨d, warned, message⟩ := program.survey.reports_of_unread own unread
    exact ⟨d, List.mem_append_right _
      (List.mem_flatMap.mpr ⟨f, List.mem_mergeSort.mpr surveyed, warned⟩), message⟩

/-! ## Machines -/

/-- A function that hides a name in its calls, with no other name and no other function hidden. -/
def FunctionDef.Hides (f : FunctionDef) (parameter : String) (g : FunctionDef) (name : String) :
    Prop :=
  g = f ∧ name = parameter

/-- Of a name that is defined once there is one function among the `definitions`. -/
theorem eq_of_mem_definitions {nodes : List Node} {f g : FunctionDef}
    (once : (Node.definitions nodes).filter (·.name = f.name) = [f])
    (defined : g ∈ Node.definitions nodes) (named : g.name = f.name) : g = f := by
  have found : g ∈ (Node.definitions nodes).filter (·.name = f.name) :=
    List.mem_filter.mpr ⟨defined, decide_eq_true named⟩
  rw [once] at found
  exact List.mem_singleton.mp found

namespace Machine

/-- Machines that differ in the numbers which some calls of a function pass for a parameter. The
first machine belongs to a run from a given start. -/
structure Disregards (start : Machine) (f : FunctionDef) (index : Nat) (parameter : String)
    (m m' : Machine) : Prop where
  /-- The frames are the same up to these numbers. -/
  frames : List.Forall₂ (Frame.Rephrased f.name index) m.frames m'.frames
  /-- So are the stores, apart from the parameter in the calls of the function. -/
  store : ∃ calls, start.Calls m calls ∧
    m.store.SameBut (Stmt.Rephrases f.name index) (f.Hides parameter) calls m'.store
  /-- As many calls are active. -/
  depth : m'.callDepth = m.callDepth
  /-- The limits are the same. -/
  limits : m'.limits = m.limits

/-- Stacks whose frames are `Rephrased` run a node on the same line. -/
theorem findSome?_line?_eq {name : String} {index : Nat} {frames frames' : List Frame}
    (both : List.Forall₂ (Frame.Rephrased name index) frames frames') :
    frames'.findSome? Frame.line? = frames.findSome? Frame.line? := by
  induction both with
  | nil => rfl
  | cons first _ ih => rw [List.findSome?_cons, List.findSome?_cons, first.line?_eq, ih]

section Runs

variable {robot : Robot} {limits : Limits} {tracing : Bool} {program : Program} {f : FunctionDef}
  {index : Nat} {parameter : String} {m m' : Machine}

/-- Nothing on top of the stack reads a parameter that the innermost of the `Calls` hides. -/
theorem Calls.visible {calls : List FunctionDef} {top : Frame} {below : List Frame}
    (followed : (load robot limits tracing program).Calls m calls)
    (frames : m.frames = top :: below) (unread : parameter ∉ Survey.ownReads f) :
    Visible (f.Hides parameter) calls top.ownNodes := by
  rintro name line member g innermost ⟨rfl, rfl⟩
  have lexical := followed.tracked.lexical
  rw [frames] at lexical
  have inside := lexical.top_subset member
  -- A frame stands in the own text of the function being called, definitions in it left aside.
  rw [Option.mem_def.mp innermost] at inside
  exact unread (Survey.mem_ownReads.mpr ⟨line, inside⟩)

/-- There is no other function of that name in the store of a machine with `Calls`. -/
theorem Calls.only {calls : List FunctionDef}
    (followed : (load robot limits tracing program).Calls m calls)
    (once : (Node.definitions program.nodes).filter (·.name = f.name) = [f]) :
    ∀ g ∈ m.store.functions, g.name = f.name → g = f :=
  fun g known => eq_of_mem_definitions once (followed.tracked.confined.functions g known)

/-- **Machines of which one `Disregards` a parameter that is not read make the same visits.** -/
theorem visitsAlike_disregards
    (once : (Node.definitions program.nodes).filter (·.name = f.name) = [f])
    (unread : parameter ∉ Survey.ownReads f) (position : f.parameters[index]? = some parameter)
    (on : Disregards (load robot limits tracing program) f index parameter m m')
    (running : m.robot.done = false) {v : Visit} (visit : m.visit? = some v) :
    VisitsAlike (Disregards (load robot limits tracing program) f index parameter) m' v := by
  obtain ⟨calls, followed, same⟩ := on.store
  obtain ⟨top, below, frames, rule⟩ := visit?_cases visit
  have alike := on.frames
  rw [frames] at alike
  obtain ⟨top', below', rephrased, under, stack⟩ := List.forall₂_cons_left_iff.mp alike
  have here' : m'.At (top' :: below') m'.store m.callDepth m.limits :=
    ⟨stack, rfl, on.depth, on.limits⟩
  -- What is on top of the stack reads no hidden name, so both machines go by the same rule.
  have visible := followed.visible frames unread
  have only := followed.only once
  cases v with
  | moved next =>
    obtain ⟨pushed, store, depth, rule, there⟩ := rule
    have kept : m.limits = limits := followed.reaches.limits_eq
    have nested := followed.tracked.nested
    rw [frames, ← kept] at nested
    obtain ⟨pushed', store', rule', above, same'⟩ :=
      rule.rephrased nested same only position ⟨rfl, rfl⟩ visible rephrased
    obtain ⟨next', visit', there'⟩ := rule'.exists_visit here'
    refine ⟨next', visit', ?_, ⟨_, .moved followed running frames visit, ?_⟩, ?_, ?_⟩
    · rw [there.frames, there'.frames]
      exact List.rel_append above under
    · rw [there.store, there'.store]
      exact same'
    · rw [there.depth, there'.depth]
    · rw [there.limits, there'.limits]
  | command kind line next =>
    obtain ⟨rfl, rfl⟩ := rule
    cases rephrased with
    | stmt becomes =>
      cases becomes
      refine ⟨_, visit?_of_frames stack, under, ⟨calls, .command followed running visit, ?_⟩,
        on.depth, on.limits⟩
      exact ⟨congrArg (fun robot : Robot => (robot.perform kind).1) same.robot, same.functions,
        same.globals, same.locals⟩
    | call base => cases base
  | failed fault next =>
    obtain ⟨stmt, rfl, faults, rfl⟩ := rule
    obtain ⟨stmt', rfl, faults'⟩ :=
      faults.rephrased same only position ⟨rfl, rfl⟩ visible rephrased
    exact ⟨_, faults'.exists_visit here', same.robot⟩

/-- **A parameter that is not read has no influence on the visits of a machine**: `Disregards` keeps
machines `InStep`. -/
theorem inStep_disregards
    (once : (Node.definitions program.nodes).filter (·.name = f.name) = [f])
    (unread : parameter ∉ Survey.ownReads f) (position : f.parameters[index]? = some parameter) :
    InStep (Disregards (load robot limits tracing program) f index parameter) where
  robot on := by
    obtain ⟨calls, -, same⟩ := on.store
    exact same.robot
  limits on := on.limits
  line on := by rw [currentLine, currentLine, findSome?_line?_eq on.frames]
  ended := by
    intro m m' on none
    have alike := on.frames
    rw [none] at alike
    exact List.forall₂_nil_left_iff.mp alike
  visit on running visit := visitsAlike_disregards once unread position on running visit

end Runs

end Machine

/-! ## Sessions -/

namespace Session

/-- A session with other numbers for a parameter `Follows` the one it is made from. -/
theorem follows_rephrased {program program' : Program} {f : FunctionDef} {index : Nat}
    (parameter : String)
    (becomes : Stmt.BecomesAll (Stmt.Rephrases f.name index) program.body program'.body)
    (level : Level) (limits : Limits) (tracing tracing' : Bool) :
    (ofProgram program level limits tracing).Follows
      (Machine.Disregards (.load level.robot limits tracing program) f index parameter) Eq
      (ofProgram program' level limits tracing') := by
  refine ⟨rfl, .refl (fun _ => rfl) _, fun _ => ?_⟩
  have definitions := FunctionDef.forall₂_definitions Stmt.Rephrases.definition? becomes
  have known := FunctionDef.forall₂_foldl_insert definitions .nil
  exact ⟨.cons (.block becomes) .nil, ⟨[], .start, rfl, known, rfl, .nil⟩, rfl, rfl⟩

/-- **A parameter that `lint` says is never used has no influence.** Take a program that has been
parsed, a function that is defined once, and a parameter that lint says the function never uses.
Every call of the function stands at some `Site`. If a call passes a number for the parameter, any
other number may be written there: whatever the level and the limits, both programs have the same
`reports`, step by step. -/
theorem reports_eq_of_unused {source : List UInt8} {program : Program} {f : FunctionDef}
    {parameter : String} {before after : List Expr} {value numberLine line : Int} {implicit : Bool}
    (parsed : Program.parse source = .ok program)
    (once : (Node.definitions program.nodes).filter (·.name = f.name) = [f])
    (reported : program.lint.Reports s!"parameter '{parameter}' in '{f.name}' is never used")
    (position : f.parameters[before.length]? = some parameter) :
    let call (number : Int) : Stmt :=
      .call f.name (before ++ .number number numberLine :: after) implicit line
    (Node.stmt (call value) ∈ program.nodes →
      ∃ site : Site, program.body = site.fill [call value]) ∧
    ∀ site : Site, program.body = site.fill [call value] →
      ∀ (value' : Int) (level : Level) (limits : Limits) (tracing tracing' : Bool) (n : Nat),
        let program' := { program with body := site.fill [call value'] }
        (ofProgram program' level limits tracing').reports n =
          (ofProgram program level limits tracing).reports n := by
  intro call
  constructor
  · exact fun member => Program.exists_site member nofun
  · intro site place value' level limits tracing tracing' n program'
    have formed := Program.wellFormed_of_parse parsed
    have defined : f ∈ Node.definitions program.nodes :=
      List.mem_of_mem_filter (once ▸ List.mem_singleton_self f)
    have isName := formed.isName_of_mem_parameters defined (List.mem_of_getElem? position)
    obtain ⟨g, surveyed, named, -, unread⟩ :=
      (Program.reports_unused_iff formed isName f.name).mp reported
    -- The function that the warning is about is the one that the call leads to.
    obtain rfl := eq_of_mem_definitions once (mem_of_mem_firstDefinitions surveyed) named
    have becomes : Stmt.BecomesAll (Stmt.Rephrases g.name before.length) program.body
        (site.fill [call value']) := by
      rw [place]
      exact site.becomesAll_fill (.intro before after value value' numberLine implicit line rfl)
    exact (follows_rephrased parameter becomes level limits tracing tracing').reports_eq_of_inStep
      (Machine.inStep_disregards once unread position) n

/-- A source with a function that calls itself. It has a parameter that it sets at the end, and that
only a function inside it reads, where the name stands for the global variable. -/
def deepTurnSource : List UInt8 := Text.utf8
  ("(set p 1)\n(function turn-on (p n) (function peek () (repeat p (turn left)))\n" ++
    "  (peek) (turn-on 5 n) (set p n))\n(turn-on 2 3)")

/-- The function. -/
def turnOn : FunctionDef :=
  ⟨"turn-on", ["p", "n"],
    [.define "peek" [] [.loop (.var "p" 2) [.command .turnLeft 2] 2] 2, .call "peek" [] true 3,
      .call "turn-on" [.number 5 3, .var "n" 3] true 3, .assign "p" (.var "n" 3) 3], 2⟩

/-- The place of the call inside the function. -/
def turnOnSite : Site :=
  .inside [.assign "p" (.number 1 1) 1] (.define "turn-on" ["p", "n"] 2)
    (.here [.define "peek" [] [.loop (.var "p" 2) [.command .turnLeft 2] 2] 2,
        .call "peek" [] true 3] [.assign "p" (.var "n" 3) 3])
    [.call "turn-on" [.number 2 4, .number 3 4] true 4]

/-- The program with a number for the parameter in the call inside the function. -/
def deepTurn (number : Int) : Program :=
  ⟨turnOnSite.fill [.call "turn-on" [.number number 3, .var "n" 3] true 3], 1⟩

/-- The calls of `deepTurn` go too deep in both runs, with other values for the parameter on the
way. -/
theorem reports_eq_of_unused_deepTurn :
    Program.parse deepTurnSource = .ok (deepTurn 5) ∧
      (Node.definitions (deepTurn 5).nodes).filter (·.name = turnOn.name) = [turnOn] ∧
      (deepTurn 5).lint.Reports "parameter 'p' in 'turn-on' is never used" ∧
      ((ofProgram (deepTurn 5) corridor ⟨3, 40⟩ false).stepped 2).machine.scopes.locals =
        [⟨[]⟩, ⟨[("n", 3), ("p", 5)]⟩, ⟨[("n", 3), ("p", 2)]⟩] ∧
      ((ofProgram (deepTurn 5) corridor ⟨3, 40⟩ false).stepped 3).robot.failure? =
        some "Maximum call depth of 3 exceeded calling 'peek' at line 3" ∧
      ∀ (level : Level) (limits : Limits) (n : Nat),
        (ofProgram (deepTurn 9223372036854775807) level limits false).reports n =
          (ofProgram (deepTurn 5) level limits false).reports n := by
  have parsed : Program.parse deepTurnSource = .ok (deepTurn 5) :=
    eq_ok_of_toOption (by decide +kernel)
  have once : (Node.definitions (deepTurn 5).nodes).filter (·.name = turnOn.name) = [turnOn] := by
    decide +kernel
  have formed := Program.wellFormed_of_parse parsed
  have isName : IsName "p" :=
    formed.isName_of_mem_parameters (f := turnOn) (by decide +kernel) (by decide +kernel)
  have reported := (Program.reports_unused_iff formed isName turnOn.name).mpr
    ⟨turnOn, by decide +kernel, rfl, by decide +kernel, by decide +kernel⟩
  have position : turnOn.parameters[([] : List Expr).length]? = some "p" := rfl
  refine ⟨parsed, once, reported, by decide +kernel, by decide +kernel, fun level limits n => ?_⟩
  exact (reports_eq_of_unused parsed once reported position).2 turnOnSite rfl 9223372036854775807
    level limits false false n

end Session

end MazeRobot
