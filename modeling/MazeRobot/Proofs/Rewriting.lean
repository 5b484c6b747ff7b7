import MazeRobot.Proofs.Parts

/-! # Rewriting inside a program

A statement anywhere in a program gives way to a sequence of statements. What is replaced, and by
what, is left open here; the rest of the program, and with it every function that the program
defines, stays the same up to such replacements.

* `Site`, `Site.fill`: a place in a program, and the program with a sequence at that place.
* `Site.exists_of_mem`, `Program.exists_site`: every statement of a program stands at some site.
* `Stmt.Becomes`, `Stmt.BecomesAll`: statements and sequences up to replacements.
* `Site.becomesAll_fill`: replacing the statement at a site.
* `FunctionDef.Becomes`: known functions up to replacements.
* `Store.agree_resolve`: calls lead to functions that are the same up to replacements. -/

namespace MazeRobot

/-! ## Sites -/

/-- What stands around a sequence of statements that is part of a statement. -/
inductive Shell where
  /-- A block. -/
  | block (line : Int)
  /-- A loop. -/
  | loop (count : Expr) (line : Int)
  /-- A conditional. -/
  | branch (condition : Option Condition) (line : Int)
  /-- A definition. -/
  | define (name : String) (parameters : List String) (line : Int)

/-- The statement with the given sequence inside a shell. -/
def Shell.around : Shell → List Stmt → Stmt
  | block line, body => .block body line
  | loop count line, body => .loop count body line
  | branch condition line, body => .branch condition body line
  | define name parameters line, body => .define name parameters body line

/-- The `nodes` of a shell with a sequence inside are the whole, nodes that are no statements, and
those of the sequence. -/
theorem Shell.nodes_around (shell : Shell) (body : List Stmt) :
    ∃ others, (shell.around body).nodes =
        .stmt (shell.around body) :: (others ++ Stmt.nodesAll body) ∧
      ∀ part, Node.stmt part ∉ others := by
  cases shell with
  | block line => exact ⟨[], rfl, by simp⟩
  | loop count line => exact ⟨_, rfl, fun part => Stmt.stmt_notMem_walk part count⟩
  | branch condition line => exact ⟨_, rfl, by simp⟩
  | define name parameters line => exact ⟨[], rfl, by simp⟩

/-- A place in a sequence of statements, at any depth. -/
inductive Site where
  /-- Between some statements of the sequence and the others. -/
  | here (before after : List Stmt)
  /-- Inside a statement of the sequence. -/
  | inside (before : List Stmt) (shell : Shell) (inner : Site) (after : List Stmt)

namespace Site

/-- The sequence that has the given statements at a site. -/
def fill : Site → List Stmt → List Stmt
  | here before after, stmts => before ++ stmts ++ after
  | inside before shell inner after, stmts => before ++ shell.around (inner.fill stmts) :: after

/-- The same site with one more statement in front of it. -/
def behind (first : Stmt) : Site → Site
  | here before after => here (first :: before) after
  | inside before shell inner after => inside (first :: before) shell inner after

/-- `fill` of a site `behind` a statement has the statement in front. -/
@[simp] theorem fill_behind (first : Stmt) (site : Site) (stmts : List Stmt) :
    (site.behind first).fill stmts = first :: site.fill stmts := by
  cases site <;> rfl

/-- A part of a shell with a sequence inside is the whole, or a part of the sequence, so it stands
at some `Site`. -/
theorem exists_of_mem_around {part : Stmt} (shell : Shell) {body : List Stmt}
    (inside : Node.stmt part ∈ Stmt.nodesAll body → ∃ site : Site, body = site.fill [part])
    (member : Node.stmt part ∈ (shell.around body).nodes) (after : List Stmt) :
    ∃ site : Site, shell.around body :: after = site.fill [part] := by
  obtain ⟨others, nodes, plain⟩ := shell.nodes_around body
  rw [nodes] at member
  rcases List.mem_cons.mp member with whole | later
  · cases whole
    exact ⟨.here [] after, rfl⟩
  · obtain ⟨site, rfl⟩ := inside ((List.mem_append.mp later).resolve_left (plain part))
    exact ⟨.inside [] shell site after, rfl⟩

mutual

/-- A part of the first statement of a sequence stands at some `Site` of the sequence. -/
theorem exists_of_mem_first {part : Stmt} (stmt : Stmt) (member : Node.stmt part ∈ stmt.nodes)
    (after : List Stmt) : ∃ site : Site, stmt :: after = site.fill [part] := by
  cases stmt with
  | block body line => exact exists_of_mem_around (.block line) (exists_of_mem body) member after
  | loop count body line =>
    exact exists_of_mem_around (.loop count line) (exists_of_mem body) member after
  | branch condition body line =>
    exact exists_of_mem_around (.branch condition line) (exists_of_mem body) member after
  | define name parameters body line =>
    exact exists_of_mem_around (.define name parameters line) (exists_of_mem body) member after
  | command kind line =>
    cases List.mem_singleton.mp member
    exact ⟨.here [] after, rfl⟩
  | assign name value line =>
    rcases List.mem_cons.mp member with whole | later
    · cases whole
      exact ⟨.here [] after, rfl⟩
    · exact absurd later (Stmt.stmt_notMem_walk part value)
  | call name arguments implicit line =>
    rcases List.mem_cons.mp member with whole | later
    · cases whole
      exact ⟨.here [] after, rfl⟩
    · obtain ⟨argument, -, value⟩ := List.mem_flatMap.mp later
      exact absurd value (Stmt.stmt_notMem_walk part argument)
  | missing => cases member

/-- **Every statement of a sequence, however deep inside, stands at some `Site`.** -/
theorem exists_of_mem {part : Stmt} (stmts : List Stmt)
    (member : Node.stmt part ∈ Stmt.nodesAll stmts) : ∃ site : Site, stmts = site.fill [part] := by
  cases stmts with
  | nil => cases member
  | cons stmt stmts =>
    rcases List.mem_append.mp member with first | later
    · exact exists_of_mem_first stmt first stmts
    · obtain ⟨site, rfl⟩ := exists_of_mem stmts later
      exact ⟨site.behind stmt, (site.fill_behind stmt _).symm⟩

end

end Site

/-- Every statement of a program that is no block, so not the whole, stands at some `Site`. -/
theorem Program.exists_site {program : Program} {part : Stmt}
    (member : Node.stmt part ∈ program.nodes) (proper : ∀ body line, part ≠ .block body line) :
    ∃ site : Site, program.body = site.fill [part] := by
  rcases List.mem_cons.mp member with whole | inside
  · exact absurd (Node.stmt.inj whole) (proper _ _)
  · exact Site.exists_of_mem program.body inside

/-! ## Statements up to replacements -/

namespace Stmt

mutual

/-- Statements that are the same up to replacements inside them. -/
inductive Becomes (replaces : Stmt → List Stmt → Prop) : Stmt → Stmt → Prop
  /-- Replacements inside a block. -/
  | block {body body' : List Stmt} (line : Int) (becomes : BecomesAll replaces body body') :
      Becomes replaces (.block body line) (.block body' line)
  /-- A command. -/
  | command (kind : Command) (line : Int) :
      Becomes replaces (.command kind line) (.command kind line)
  /-- Replacements inside a loop. -/
  | loop {body body' : List Stmt} (count : Expr) (line : Int)
      (becomes : BecomesAll replaces body body') :
      Becomes replaces (.loop count body line) (.loop count body' line)
  /-- Replacements inside a conditional. -/
  | branch {body body' : List Stmt} (condition : Option Condition) (line : Int)
      (becomes : BecomesAll replaces body body') :
      Becomes replaces (.branch condition body line) (.branch condition body' line)
  /-- An assignment. -/
  | assign (name : String) (value : Expr) (line : Int) :
      Becomes replaces (.assign name value line) (.assign name value line)
  /-- Replacements inside a definition. -/
  | define {body body' : List Stmt} (name : String) (parameters : List String) (line : Int)
      (becomes : BecomesAll replaces body body') :
      Becomes replaces (.define name parameters body line) (.define name parameters body' line)
  /-- A call. -/
  | call (name : String) (arguments : List Expr) (implicit : Bool) (line : Int) :
      Becomes replaces (.call name arguments implicit line) (.call name arguments implicit line)
  /-- A statement that is missing. -/
  | missing : Becomes replaces .missing .missing

/-- Sequences that are the same up to replacements of statements in them and inside these. -/
inductive BecomesAll (replaces : Stmt → List Stmt → Prop) : List Stmt → List Stmt → Prop
  /-- Nothing is replaced in an empty sequence. -/
  | nil : BecomesAll replaces [] []
  /-- A statement stays, up to replacements inside it. -/
  | kept {stmt stmt' : Stmt} {stmts stmts' : List Stmt} (becomes : Becomes replaces stmt stmt')
      (rest : BecomesAll replaces stmts stmts') :
      BecomesAll replaces (stmt :: stmts) (stmt' :: stmts')
  /-- A statement is replaced. -/
  | replaced {stmt : Stmt} {instead stmts stmts' all : List Stmt} (base : replaces stmt instead)
      (rest : BecomesAll replaces stmts stmts') (whole : all = instead ++ stmts') :
      BecomesAll replaces (stmt :: stmts) all

end

variable {replaces : Stmt → List Stmt → Prop}

mutual

/-- `Becomes` is reflexive: nothing needs to be replaced in a statement. -/
theorem Becomes.refl (stmt : Stmt) : Becomes replaces stmt stmt := by
  cases stmt with
  | block body line => exact .block line (BecomesAll.refl body)
  | command kind line => exact .command kind line
  | loop count body line => exact .loop count line (BecomesAll.refl body)
  | branch condition body line => exact .branch condition line (BecomesAll.refl body)
  | assign name value line => exact .assign name value line
  | define name parameters body line => exact .define name parameters line (BecomesAll.refl body)
  | call name arguments implicit line => exact .call name arguments implicit line
  | missing => exact .missing

/-- `BecomesAll` is reflexive: nothing needs to be replaced in a sequence. -/
theorem BecomesAll.refl (stmts : List Stmt) : BecomesAll replaces stmts stmts := by
  cases stmts with
  | nil => exact .nil
  | cons stmt stmts => exact .kept (Becomes.refl stmt) (BecomesAll.refl stmts)

end

/-- `Becomes` by replacements inside a shell. -/
theorem Becomes.around (shell : Shell) {body body' : List Stmt}
    (becomes : BecomesAll replaces body body') :
    Becomes replaces (shell.around body) (shell.around body') := by
  cases shell with
  | block line => exact .block line becomes
  | loop count line => exact .loop count line becomes
  | branch condition line => exact .branch condition line becomes
  | define name parameters line => exact .define name parameters line becomes

/-- `BecomesAll` by replacements behind statements that stay. -/
theorem BecomesAll.append_left (before : List Stmt) {stmts stmts' : List Stmt}
    (becomes : BecomesAll replaces stmts stmts') :
    BecomesAll replaces (before ++ stmts) (before ++ stmts') := by
  induction before with
  | nil => exact becomes
  | cons first before ih => exact .kept (.refl first) ih

end Stmt

/-- **The statement at a `Site` is replaced.** -/
theorem Site.becomesAll_fill {replaces : Stmt → List Stmt → Prop} (site : Site) {stmt : Stmt}
    {instead : List Stmt} (base : replaces stmt instead) :
    Stmt.BecomesAll replaces (site.fill [stmt]) (site.fill instead) := by
  induction site with
  | here before after =>
    rw [fill, fill, List.append_assoc, List.append_assoc]
    exact .append_left before (.replaced base (.refl after) rfl)
  | inside before shell inner after ih =>
    exact .append_left before (.kept (.around shell ih) (.refl after))

/-! ## Functions up to replacements -/

/-- Function definitions that are the same up to replacements in their bodies. -/
structure FunctionDef.Becomes (replaces : Stmt → List Stmt → Prop) (f f' : FunctionDef) : Prop where
  /-- The names are the same. -/
  name : f'.name = f.name
  /-- The parameters are the same. -/
  parameters : f'.parameters = f.parameters
  /-- The bodies are the same up to replacements. -/
  body : Stmt.BecomesAll replaces f.body f'.body

namespace FunctionDef

variable {replaces : Stmt → List Stmt → Prop} {fs fs' : List FunctionDef}

/-- Functions of which one `Becomes` the other have the same names. -/
theorem map_name_eq (becomes : List.Forall₂ (Becomes replaces) fs fs') :
    fs'.map (·.name) = fs.map (·.name) := by
  induction becomes with
  | nil => rfl
  | cons first rest ih => rw [List.map_cons, List.map_cons, first.name, ih]

/-- Where each function `Becomes` its partner they still do without those of a given name. -/
theorem forall₂_filter (becomes : List.Forall₂ (Becomes replaces) fs fs') (name : String) :
    List.Forall₂ (Becomes replaces) (fs.filter (·.name ≠ name)) (fs'.filter (·.name ≠ name)) := by
  induction becomes with
  | nil => exact .nil
  | @cons f f' fs fs' first rest ih =>
    rw [List.filter_cons, List.filter_cons, first.name]
    split
    · exact .cons first ih
    · exact ih

/-- `insert` of definitions of which one `Becomes` the other. -/
theorem forall₂_insert {f f' : FunctionDef} (first : Becomes replaces f f')
    (becomes : List.Forall₂ (Becomes replaces) fs fs') :
    List.Forall₂ (Becomes replaces) (f.insert fs) (f'.insert fs') := by
  refine .cons first ?_
  rw [first.name]
  exact forall₂_filter becomes f.name

/-- `insert` of such definitions one after the other. -/
theorem forall₂_foldl_insert {known known' : List FunctionDef}
    (becomes : List.Forall₂ (Becomes replaces) fs fs')
    (before : List.Forall₂ (Becomes replaces) known known') :
    List.Forall₂ (Becomes replaces) (fs.foldl (fun functions f => f.insert functions) known)
      (fs'.foldl (fun functions f => f.insert functions) known') := by
  induction becomes generalizing known known' with
  | nil => exact before
  | cons first rest ih => exact ih (forall₂_insert first before)

/-- The function of a name `Becomes` the function of that name. -/
theorem rel_find? (becomes : List.Forall₂ (Becomes replaces) fs fs') (name : String) :
    Option.Rel (Becomes replaces) (fs.find? (·.name = name)) (fs'.find? (·.name = name)) := by
  induction becomes with
  | nil => exact .none
  | @cons f f' fs fs' first rest ih =>
    rw [List.find?_cons, List.find?_cons, first.name]
    split
    · exact .some first
    · exact ih

/-- Where neither what is replaced nor what takes its place is a definition, a sequence and what it
`BecomesAll` make the same definitions up to replacements. -/
theorem forall₂_definitions {stmts stmts' : List Stmt}
    (plain : ∀ {stmt instead}, replaces stmt instead →
      stmt.definition? = none ∧ ∀ other ∈ instead, other.definition? = none)
    (becomes : Stmt.BecomesAll replaces stmts stmts') :
    List.Forall₂ (Becomes replaces) (stmts.filterMap Stmt.definition?)
      (stmts'.filterMap Stmt.definition?) := by
  induction stmts generalizing stmts' with
  | nil =>
    cases becomes
    exact .nil
  | cons stmt stmts ih =>
    cases becomes with
    | kept first rest =>
      have others := ih rest
      cases first with
      | define name parameters line body => exact .cons ⟨rfl, rfl, body⟩ others
      | _ => exact others
    | replaced base rest whole =>
      obtain ⟨old, new⟩ := plain base
      rw [whole, List.filterMap_cons_none old, List.filterMap_append,
        List.filterMap_eq_nil_iff.mpr new]
      exact ih rest

end FunctionDef

/-! ## Results that agree -/

/-- Results of which both fail with the same fault, or both succeed with related values. -/
inductive Agree {α β : Type} (related : α → β → Prop) : Except Fault α → Except Fault β → Prop
  /-- Both fail. -/
  | error (fault : Fault) : Agree related (.error fault) (.error fault)
  /-- Both succeed. -/
  | ok {a : α} {b : β} (on : related a b) : Agree related (.ok a) (.ok b)

namespace Agree

variable {α β : Type} {related : α → β → Prop} {result : Except Fault α} {result' : Except Fault β}

/-- Where two results `Agree` and the first one succeeds the second one does. -/
theorem exists_ok (agree : Agree related result result') {a : α} (found : result = .ok a) :
    ∃ b, result' = .ok b ∧ related a b := by
  cases agree with
  | error fault => cases found
  | ok on =>
    cases found
    exact ⟨_, rfl, on⟩

/-- Where two results `Agree` and the first one fails the second one does. -/
theorem eq_error (agree : Agree related result result') {fault : Fault}
    (failed : result = .error fault) : result' = .error fault := by
  cases agree with
  | error fault => cases failed; rfl
  | ok on => cases failed

/-- `Agree` is reflexive if the relation of the values is. -/
theorem refl {related : α → α → Prop} (reflexive : ∀ a, related a a) (result : Except Fault α) :
    Agree related result result := by
  cases result with
  | error fault => exact .error fault
  | ok a => exact .ok (reflexive a)

end Agree

/-- **`Store.resolve` leads to the same function up to replacements**, with values that are related
as those of the arguments are, or fails in the same way. -/
theorem Store.agree_resolve {replaces : Stmt → List Stmt → Prop} {store store' : Store}
    {related : List Int → List Int → Prop} {arguments arguments' : List Expr}
    (functions : List.Forall₂ (FunctionDef.Becomes replaces) store.functions store'.functions)
    (lengths : ∀ {values values'}, related values values' → values'.length = values.length)
    (values : Agree related (store.values arguments) (store'.values arguments')) (name : String)
    (line : Int) :
    Agree (fun found found' => FunctionDef.Becomes replaces found.1 found'.1 ∧
        related found.2 found'.2)
      (store.resolve name arguments line) (store'.resolve name arguments' line) := by
  have both := FunctionDef.rel_find? functions name
  rw [resolve, resolve, FunctionDef.map_name_eq functions]
  generalize store.functions.find? (·.name = name) = found at both ⊢
  generalize store'.functions.find? (·.name = name) = found' at both ⊢
  generalize store.values arguments = result at values ⊢
  generalize store'.values arguments' = result' at values ⊢
  cases both with
  | none => exact .error _
  | some becomes =>
    cases values with
    | error fault => exact .error fault
    | ok on =>
      dsimp only
      rw [becomes.parameters, becomes.name, lengths on]
      split
      · exact .ok ⟨becomes, on⟩
      · exact .error _

/-- `Store.resolve` leads to the same functions up to replacements, with the same values. -/
theorem Store.agree_resolve_withFunctions {replaces : Stmt → List Stmt → Prop} {store : Store}
    {functions : List FunctionDef}
    (known : List.Forall₂ (FunctionDef.Becomes replaces) store.functions functions) (name : String)
    (arguments : List Expr) (line : Int) :
    Agree (fun found found' => FunctionDef.Becomes replaces found.1 found'.1 ∧ found.2 = found'.2)
      (store.resolve name arguments line)
      (({ store with functions } : Store).resolve name arguments line) := by
  refine agree_resolve known (fun same => congrArg List.length same.symm) ?_ name line
  rw [values_withFunctions store functions]
  exact .refl (fun _ => rfl) _

end MazeRobot
