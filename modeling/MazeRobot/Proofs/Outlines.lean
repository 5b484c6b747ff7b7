import MazeRobot.Proofs.Captions

/-! # Outlines are unambiguous

An outline shows a syntax tree as indented lines. A line tells how deep it is and what it says, and
what belongs to a statement is deeper than the statement; so the lines are cut into subtrees in one
way only. All that an outline leaves out are the lines of values and conditions in the source.

* `Stmt.entries`: the captions of a statement with their depths.
* `Stmt.outline_eq`: an outline shows these line by line.
* `entries_eq_of_ended_eq`: the lines tell the entries.
* `flatMap_entries_inj`, `Stmt.WellFormed.told`: the entries tell the statements.
* `Program.outline_unambiguous`: programs with one outline differ in such lines only. -/

namespace MazeRobot

open Text

/-! ## Entries -/

/-- What the line for a value says, if there is one. -/
def Expr.caption? : Expr → Option Caption
  | number value _ => some (.number value)
  | var name _ => some (.var name)
  | distance _ => some .distance
  | missing => none

/-- What the line for a condition says. -/
def Condition.caption (condition : Condition) : Caption :=
  .condition condition.query condition.negated condition.direction

/-- The entries of a value: a caption and how deep it is. -/
def Expr.entries (depth : Nat) (value : Expr) : List (Nat × Caption) :=
  value.caption?.toList.map (depth, ·)

namespace Stmt

/-- What the first line of a statement says, if there is one. -/
def caption? : Stmt → Option Caption
  | block _ _ => some .block
  | command kind line => some (.command kind line)
  | loop _ _ line => some (.loop line)
  | branch _ _ line => some (.branch line)
  | assign name _ line => some (.assign name line)
  | define name parameters _ line => some (.define name parameters line)
  | call name _ implicit line => some (.call name implicit line)
  | missing => none

mutual

/-- The entries of a statement: the captions of its lines and how deep these are. -/
def entries (depth : Nat) : Stmt → List (Nat × Caption)
  | block body _ => (depth, .block) :: entriesAll (depth + 1) body
  | command kind line => [(depth, .command kind line)]
  | loop count body line =>
    (depth, .loop line) :: (depth + 1, .count) :: (count.entries (depth + 2) ++
      (depth + 1, .body) :: entriesAll (depth + 2) body)
  | branch condition body line =>
    (depth, .branch line) :: (condition.toList.map (depth + 1, ·.caption) ++
      (depth + 1, .body) :: entriesAll (depth + 2) body)
  | assign name value line => (depth, .assign name line) :: value.entries (depth + 1)
  | define name parameters body line =>
    (depth, .define name parameters line) :: entriesAll (depth + 1) body
  | call name arguments implicit line =>
    (depth, .call name implicit line) :: arguments.flatMap (·.entries (depth + 1))
  | missing => []

/-- The entries of statements. -/
def entriesAll (depth : Nat) : List Stmt → List (Nat × Caption)
  | [] => []
  | stmt :: stmts => entries depth stmt ++ entriesAll depth stmts

end

end Stmt

/-! ## An outline shows the entries -/

/-- The line for an entry. -/
def entryText (entry : Nat × Caption) : String := indentation entry.1 ++ entry.2.text

/-- `entryText` is on one line. -/
theorem only_isInLine_entryText {entry : Nat × Caption} (formed : entry.2.WellFormed) :
    Only isInLine (entryText entry) := by
  refine only_append.mpr ⟨fun c member => ?_, formed.only_isInLine⟩
  rw [indentation, String.toList_ofList] at member
  rw [List.eq_of_mem_replicate member]
  rfl

/-- `entryText` tells how deep it is, since no caption starts with a blank. -/
theorem entryText_inj {entry entry' : Nat × Caption} (formed : entry.2.WellFormed)
    (formed' : entry'.2.WellFormed) (same : entryText entry = entryText entry') :
    entry = entry' := by
  obtain ⟨depth, caption⟩ := entry
  obtain ⟨depth', caption'⟩ := entry'
  have blanks (depth : Nat) : Only (· == ' ') (indentation depth) := by
    intro c member
    rw [indentation, String.toList_ofList] at member
    rw [List.eq_of_mem_replicate member]
    rfl
  have stops (caption : Caption) : Stops (· == ' ') caption.text := by
    refine Stops.append (fun c head => beq_eq_false_iff_ne.mpr ?_) caption.word_ne_empty
    exact ne_of_isWordChar (caption.only_word c (List.mem_of_mem_head? head)) rfl
  obtain ⟨indents, texts⟩ :=
    append_inj_of_stops (blanks depth) (blanks depth') (stops caption) (stops caption') same
  have depths : 2 * depth = 2 * depth' := by
    simpa [indentation] using congrArg (·.toList.length) indents
  exact Prod.ext (Nat.eq_of_mul_eq_mul_left (by decide) depths)
    (Caption.text_inj formed formed' texts)

/-- Lines of `entryText` tell the entries that they are for. -/
theorem entries_eq_of_ended_eq {entries entries' : List (Nat × Caption)}
    (formed : ∀ entry ∈ entries, entry.2.WellFormed)
    (formed' : ∀ entry ∈ entries', entry.2.WellFormed)
    (same : ended (entries.map entryText) = ended (entries'.map entryText)) :
    entries = entries' := by
  have stops (rest : String) : Stops isInLine ("\n" ++ rest) :=
    Stops.append (by decide) (by decide)
  induction entries generalizing entries' with
  | nil =>
    cases entries' with
    | nil => rfl
    | cons entry entries' => simp [ended] at same
  | cons entry entries ih =>
    cases entries' with
    | nil => simp [ended] at same
    | cons entry' entries' =>
      rw [List.forall_mem_cons] at formed formed'
      rw [List.map_cons, List.map_cons, ended_cons, ended_cons] at same
      obtain ⟨first, rest⟩ := append_inj_of_stops (only_isInLine_entryText formed.1)
        (only_isInLine_entryText formed'.1) (stops _) (stops _) same
      rw [String.append_right_inj] at rest
      rw [entryText_inj formed.1 formed'.1 first, ih formed.2 formed'.2 rest]

/-- `indentation` is two blanks more for each depth. -/
theorem indentation_succ (depth : Nat) : indentation (depth + 1) = indentation depth ++ "  " := by
  rw [← String.toList_inj]
  simp [indentation, Nat.mul_add, List.replicate_add]

/-- `Expr.outline` is the lines of `Expr.entries`. -/
theorem Expr.outline_eq (depth : Nat) (value : Expr) :
    value.outline depth = ended ((value.entries depth).map entryText) := by
  cases value <;>
    simp [outline, entries, caption?, ended, entryText, Caption.text, Caption.word, Caption.tail,
      ← String.toList_inj, toString]

/-- `Expr.outline` of values in a row is the lines of their entries. -/
theorem Expr.join_outline (depth : Nat) (values : List Expr) :
    String.join (values.map (·.outline depth)) =
      ended ((values.flatMap (·.entries depth)).map entryText) := by
  induction values with
  | nil => rfl
  | cons value values ih =>
    rw [List.map_cons, String.join_cons, ih, Expr.outline_eq, List.flatMap_cons, List.map_append,
      ended_append]

/-- `Condition.outline` is the line of its caption. -/
theorem Condition.outline_eq (depth : Nat) (condition : Condition) :
    condition.outline depth = ended [entryText (depth, condition.caption)] := by
  simp [outline, caption, ended, entryText, Caption.text, Caption.word, Caption.tail,
      ← String.toList_inj]

namespace Stmt

mutual

/-- `outline` is the lines of `entries`. -/
theorem outline_eq (depth : Nat) (stmt : Stmt) :
    stmt.outline depth = ended ((stmt.entries depth).map entryText) := by
  cases stmt with
  | block body line =>
    rw [outline, entries, outlineAll_eq]
    simp [ended_cons, entryText, Caption.text, Caption.word, Caption.tail, ← String.toList_inj]
  | command kind line =>
    simp [outline, entries, ended, entryText, Caption.text, Caption.word, Caption.tail,
      Caption.lineMark, ← String.toList_inj, toString]
  | loop count body line =>
    rw [outline, entries, outlineAll_eq, Expr.outline_eq]
    simp [ended_cons, ended_append, entryText, Caption.text, Caption.word, Caption.tail,
      Caption.lineMark, ← String.toList_inj, toString, indentation_succ]
  | branch condition body line =>
    rw [outline, entries, outlineAll_eq]
    cases condition <;>
      simp [ended, entryText, Caption.text, Caption.word, Caption.tail, Condition.outline_eq,
        Caption.lineMark, ← String.toList_inj, toString, indentation_succ]
  | assign name value line =>
    rw [outline, entries, Expr.outline_eq]
    simp [ended_cons, entryText, Caption.text, Caption.word, Caption.tail,
      Caption.lineMark, ← String.toList_inj, toString]
  | define name parameters body line =>
    rw [outline, entries, outlineAll_eq]
    simp [ended_cons, entryText, Caption.text, Caption.word, Caption.tail,
      Caption.lineMark, ← String.toList_inj, toString]
  | call name arguments implicit line =>
    rw [outline, entries, Expr.join_outline]
    cases implicit <;>
      simp [ended_cons, entryText, Caption.text, Caption.word, Caption.tail, Caption.lineMark,
        ← String.toList_inj, toString]
  | missing => rfl

/-- `outlineAll` is the lines of `entriesAll`. -/
theorem outlineAll_eq (depth : Nat) (stmts : List Stmt) :
    outlineAll depth stmts = ended ((entriesAll depth stmts).map entryText) := by
  match stmts with
  | [] => rfl
  | stmt :: stmts =>
    rw [outlineAll, entriesAll, outline_eq, outlineAll_eq, List.map_append, ended_append]

end

end Stmt

/-! ## Entries tell a tree -/

mutual

/-- The statement with the lines of its values and conditions set to zero. -/
def Stmt.eraseInnerLines : Stmt → Stmt
  | .block body line => .block (Stmt.eraseAllInnerLines body) line
  | .command kind line => .command kind line
  | .loop count body line => .loop count.eraseLines (Stmt.eraseAllInnerLines body) line
  | .branch condition body line =>
    .branch (condition.map Condition.eraseLines) (Stmt.eraseAllInnerLines body) line
  | .assign name value line => .assign name value.eraseLines line
  | .define name parameters body line =>
    .define name parameters (Stmt.eraseAllInnerLines body) line
  | .call name arguments implicit line => .call name (arguments.map Expr.eraseLines) implicit line
  | .missing => .missing

/-- The statements with the lines of their values and conditions set to zero. -/
def Stmt.eraseAllInnerLines : List Stmt → List Stmt
  | [] => []
  | stmt :: stmts => Stmt.eraseInnerLines stmt :: Stmt.eraseAllInnerLines stmts

end

/-- Whether entries do not go on at a depth or deeper. -/
def Leaves (depth : Nat) (entries : List (Nat × Caption)) : Prop :=
  ∀ entry ∈ entries.head?, entry.1 < depth

/-- What `Leaves` a depth leaves a greater one. -/
theorem Leaves.mono {depth deeper : Nat} {entries : List (Nat × Caption)}
    (leaves : Leaves depth entries) (le : depth ≤ deeper) : Leaves deeper entries :=
  fun entry head => Nat.lt_of_lt_of_le (leaves entry head) le

/-- `Expr.caption?` tells the value, up to its line. -/
theorem Expr.eraseLines_eq_of_caption? {value value' : Expr}
    (same : value.caption? = value'.caption?) : value.eraseLines = value'.eraseLines := by
  cases value <;> cases value' <;> cases same <;> rfl

/-- `Condition.caption` tells the condition, up to its line. -/
theorem Condition.eraseLines_eq_of_caption {condition condition' : Condition}
    (same : condition.caption = condition'.caption) :
    condition.eraseLines = condition'.eraseLines := by
  cases condition
  cases condition'
  cases same
  rfl

section Rows

variable {α β : Type} {depth : Nat} {rest rest' : List (Nat × Caption)}

/-- Whether entries start at a depth. -/
def StartsAt (depth : Nat) (entries : List (Nat × Caption)) : Prop :=
  ∃ caption more, entries = (depth, caption) :: more

/-- What `StartsAt` a depth does not leave it. -/
theorem Leaves.ne_of_startsAt {first more : List (Nat × Caption)} (leaves : Leaves depth rest)
    (starts : StartsAt depth first) : rest ≠ first ++ more := by
  obtain ⟨caption, others, rfl⟩ := starts
  rintro rfl
  exact absurd (leaves _ rfl) (Nat.lt_irrefl depth)

/-- Things in a row of which each `StartsAt` a depth go on there or leave it. -/
theorem leaves_flatMap {entriesOf : α → List (Nat × Caption)} {items : List α}
    (starts : ∀ item ∈ items, StartsAt depth (entriesOf item)) (leaves : Leaves depth rest) :
    Leaves (depth + 1) (items.flatMap entriesOf ++ rest) := by
  cases items with
  | nil => exact leaves.mono (Nat.le_succ depth)
  | cons item items =>
    obtain ⟨caption, more, first⟩ := starts item List.mem_cons_self
    intro entry head
    rw [List.flatMap_cons, first] at head
    cases head
    exact Nat.lt_succ_self depth

/-- Things in a row are told by their entries if each of them `StartsAt` the same depth and is told
by its own entries, whatever follows at that depth or above. -/
theorem flatMap_entries_inj {entriesOf : α → List (Nat × Caption)} {shape : α → β}
    {items items' : List α} (starts : ∀ item ∈ items, StartsAt depth (entriesOf item))
    (starts' : ∀ item ∈ items', StartsAt depth (entriesOf item))
    (told : ∀ item ∈ items, ∀ item' ∈ items', ∀ {rest rest' : List (Nat × Caption)},
      Leaves (depth + 1) rest → Leaves (depth + 1) rest' →
      entriesOf item ++ rest = entriesOf item' ++ rest' → shape item = shape item' ∧ rest = rest')
    (leaves : Leaves depth rest) (leaves' : Leaves depth rest')
    (same : items.flatMap entriesOf ++ rest = items'.flatMap entriesOf ++ rest') :
    items.map shape = items'.map shape ∧ rest = rest' := by
  induction items generalizing items' with
  | nil =>
    cases items' with
    | nil => exact ⟨rfl, same⟩
    | cons item' items' =>
      rw [List.flatMap_cons, List.append_assoc] at same
      exact absurd same (leaves.ne_of_startsAt (starts' item' List.mem_cons_self))
  | cons item items ih =>
    rw [List.forall_mem_cons] at starts
    cases items' with
    | nil =>
      rw [List.flatMap_cons, List.append_assoc] at same
      exact absurd same.symm (leaves'.ne_of_startsAt starts.1)
    | cons item' items' =>
      rw [List.forall_mem_cons] at starts'
      rw [List.flatMap_cons, List.flatMap_cons, List.append_assoc, List.append_assoc] at same
      -- Behind the first thing the entries go on with the second one at the same depth, or leave
      -- it.
      obtain ⟨first, others⟩ := told item List.mem_cons_self item' List.mem_cons_self
        (leaves_flatMap starts.2 leaves) (leaves_flatMap starts'.2 leaves') same
      obtain ⟨shapes, rests⟩ := ih starts.2 starts'.2 (fun i member i' member' =>
        told i (List.mem_cons_of_mem _ member) i' (List.mem_cons_of_mem _ member')) others
      exact ⟨congrArg₂ List.cons first shapes, rests⟩

end Rows

namespace Expr

variable {value value' : Expr} {rest rest' : List (Nat × Caption)} {depth : Nat}

/-- The `entries` of a value that can be written are its caption. -/
theorem WellFormed.exists_caption (formed : value.WellFormed) :
    ∃ caption, value.caption? = some caption ∧
      ∀ depth, value.entries depth = [(depth, caption)] := by
  cases value with
  | missing => exact formed.elim
  | _ => exact ⟨_, rfl, fun _ => rfl⟩

/-- The `entries` of a value that can be written start at their depth. -/
theorem WellFormed.startsAt (formed : value.WellFormed) (depth : Nat) :
    StartsAt depth (value.entries depth) := by
  obtain ⟨caption, -, one⟩ := formed.exists_caption
  exact ⟨caption, [], one depth⟩

/-- The `entries` of a value that can be written have captions that can. -/
theorem WellFormed.of_mem_entries (formed : value.WellFormed) :
    ∀ entry ∈ value.entries depth, entry.2.WellFormed := by
  cases value with
  | missing => exact formed.elim
  | var name line => exact List.forall_mem_singleton.mpr formed
  | _ => exact List.forall_mem_singleton.mpr trivial

/-- The `entries` of a value tell the value, up to its line. -/
theorem entries_inj (formed : value.WellFormed) (formed' : value'.WellFormed)
    (same : value.entries depth ++ rest = value'.entries depth ++ rest') :
    value.eraseLines = value'.eraseLines ∧ rest = rest' := by
  obtain ⟨caption, found, one⟩ := formed.exists_caption
  obtain ⟨caption', found', one'⟩ := formed'.exists_caption
  rw [one, one'] at same
  cases same
  exact ⟨eraseLines_eq_of_caption? (found.trans found'.symm), rfl⟩

end Expr

namespace Stmt

/-- `entriesAll` is `entries` of one statement after the other. -/
theorem entriesAll_eq (depth : Nat) (stmts : List Stmt) :
    entriesAll depth stmts = stmts.flatMap (entries depth) := by
  induction stmts with
  | nil => rfl
  | cons stmt stmts ih => rw [entriesAll, List.flatMap_cons, ih]

/-- `eraseAllInnerLines` is `eraseInnerLines` of one statement after the other. -/
theorem eraseAllInnerLines_eq (stmts : List Stmt) :
    eraseAllInnerLines stmts = stmts.map eraseInnerLines := by
  induction stmts with
  | nil => rfl
  | cons stmt stmts ih => rw [eraseAllInnerLines, List.map_cons, ih]

/-- `AllWellFormed` says that each statement is well-formed. -/
theorem allWellFormed_iff {stmts : List Stmt} :
    AllWellFormed stmts ↔ ∀ stmt ∈ stmts, stmt.WellFormed := by
  induction stmts with
  | nil => simp [AllWellFormed]
  | cons stmt stmts ih => simp [AllWellFormed, ih]

/-- The `entries` of a statement that can be written start with its own caption. -/
theorem WellFormed.exists_caption {stmt : Stmt} (formed : stmt.WellFormed) :
    ∃ caption, stmt.caption? = some caption ∧
      ∀ depth, stmt.entries depth = (depth, caption) :: (stmt.entries depth).tail := by
  cases stmt with
  | missing => exact formed.elim
  | _ => exact ⟨_, rfl, fun _ => rfl⟩

/-- The `entries` of a statement that can be written start at their depth. -/
theorem WellFormed.startsAt {stmt : Stmt} (formed : stmt.WellFormed) (depth : Nat) :
    StartsAt depth (stmt.entries depth) := by
  obtain ⟨caption, -, first⟩ := formed.exists_caption
  exact ⟨caption, _, first depth⟩

/-- Statements with the same `entries` have the same `caption?`, and the same entries below it. -/
theorem caption?_eq_of_entries_eq {stmt stmt' : Stmt} {depth : Nat}
    {rest rest' : List (Nat × Caption)} (formed : stmt.WellFormed) (formed' : stmt'.WellFormed)
    (same : stmt.entries depth ++ rest = stmt'.entries depth ++ rest') :
    stmt.caption? = stmt'.caption? ∧
      (stmt.entries depth).tail ++ rest = (stmt'.entries depth).tail ++ rest' := by
  obtain ⟨caption, found, first⟩ := formed.exists_caption
  obtain ⟨caption', found', first'⟩ := formed'.exists_caption
  rw [first, first', List.cons_append, List.cons_append, List.cons.injEq, Prod.mk.injEq] at same
  obtain ⟨⟨-, rfl⟩, below⟩ := same
  exact ⟨found.trans found'.symm, below⟩

/-- Whether a statement is told by its entries, up to the lines of values and conditions, whatever
follows at its depth or above. -/
def Told (stmt : Stmt) : Prop :=
  ∀ {depth : Nat} {stmt' : Stmt} {rest rest' : List (Nat × Caption)}, stmt'.WellFormed →
    Leaves (depth + 1) rest → Leaves (depth + 1) rest' →
    stmt.entries depth ++ rest = stmt'.entries depth ++ rest' →
    stmt.eraseInnerLines = stmt'.eraseInnerLines ∧ rest = rest'

/-- `entriesAll` tells statements in a row, if each of them is `Told`. -/
theorem entriesAll_inj {depth : Nat} {stmts stmts' : List Stmt} {rest rest' : List (Nat × Caption)}
    (formed : AllWellFormed stmts) (formed' : AllWellFormed stmts')
    (told : ∀ stmt ∈ stmts, stmt.Told) (leaves : Leaves depth rest) (leaves' : Leaves depth rest')
    (same : entriesAll depth stmts ++ rest = entriesAll depth stmts' ++ rest') :
    eraseAllInnerLines stmts = eraseAllInnerLines stmts' ∧ rest = rest' := by
  rw [allWellFormed_iff] at formed formed'
  rw [entriesAll_eq, entriesAll_eq] at same
  rw [eraseAllInnerLines_eq, eraseAllInnerLines_eq]
  exact flatMap_entries_inj (fun stmt member => (formed stmt member).startsAt depth)
    (fun stmt member => (formed' stmt member).startsAt depth)
    (fun stmt member stmt' member' => told stmt member (formed' stmt' member')) leaves leaves' same

mutual

/-- A statement that can be written is `Told`. -/
theorem WellFormed.told {stmt : Stmt} (formed : stmt.WellFormed) : stmt.Told := by
  intro depth stmt' rest rest' formed' leaves leaves' same
  obtain ⟨heads, below⟩ := caption?_eq_of_entries_eq formed formed' same
  -- The caption tells which kind of statement it is.
  cases stmt with
  | block body line => exact formed.elim
  | missing => exact formed.elim
  | command kind line =>
    cases stmt' <;> cases heads
    exact ⟨rfl, below⟩
  | loop count body line =>
    cases stmt' <;> cases heads
    simp only [entries, List.tail_cons, List.cons_append, List.append_assoc, List.cons.injEq,
      true_and] at below
    obtain ⟨counts, bodies⟩ := Expr.entries_inj formed.1 formed'.1 below
    obtain ⟨bodies, rests⟩ := entriesAll_inj formed.2 formed'.2 (AllWellFormed.told formed.2)
      (leaves.mono (by omega)) (leaves'.mono (by omega)) (List.cons.inj bodies).2
    exact ⟨by rw [eraseInnerLines, eraseInnerLines, counts, bodies], rests⟩
  | branch condition body line =>
    cases stmt' <;> cases heads
    rename_i condition' body'
    obtain ⟨condition, rfl⟩ := Option.isSome_iff_exists.mp formed.1
    obtain ⟨condition', rfl⟩ := Option.isSome_iff_exists.mp formed'.1
    simp only [entries, Option.toList_some, List.map_cons, List.map_nil, List.tail_cons,
      List.cons_append, List.nil_append, List.cons.injEq, Prod.mk.injEq, true_and] at below
    obtain ⟨bodies, rests⟩ := entriesAll_inj formed.2 formed'.2 (AllWellFormed.told formed.2)
      (leaves.mono (by omega)) (leaves'.mono (by omega)) below.2
    have conditions := Condition.eraseLines_eq_of_caption below.1
    exact ⟨by simp only [eraseInnerLines, Option.map_some, conditions, bodies], rests⟩
  | assign name value line =>
    cases stmt' <;> cases heads
    obtain ⟨values, rests⟩ := Expr.entries_inj formed.2 formed'.2 below
    exact ⟨by rw [eraseInnerLines, eraseInnerLines, values], rests⟩
  | define name parameters body line =>
    cases stmt' <;> cases heads
    obtain ⟨bodies, rests⟩ := entriesAll_inj formed.2.2.2 formed'.2.2.2
      (AllWellFormed.told formed.2.2.2) leaves leaves' below
    exact ⟨by rw [eraseInnerLines, eraseInnerLines, bodies], rests⟩
  | call name arguments implicit line =>
    cases stmt' <;> cases heads
    obtain ⟨values, rests⟩ := flatMap_entries_inj
      (fun value member => (formed.2 value member).startsAt (depth + 1))
      (fun value member => (formed'.2 value member).startsAt (depth + 1))
      (fun value member value' member' _ _ _ _ =>
        Expr.entries_inj (formed.2 value member) (formed'.2 value' member')) leaves leaves' below
    exact ⟨by rw [eraseInnerLines, eraseInnerLines, values], rests⟩

/-- Each of some statements that can be written is `Told`. -/
theorem AllWellFormed.told {stmts : List Stmt} (formed : AllWellFormed stmts) :
    ∀ stmt ∈ stmts, stmt.Told := by
  match stmts with
  | [] => exact List.forall_mem_nil _
  | stmt :: stmts =>
    exact List.forall_mem_cons.mpr ⟨WellFormed.told formed.1, AllWellFormed.told formed.2⟩

end

/-! ## Entries have captions that can be written -/

mutual

/-- The `entries` of a statement that can be written have captions that can. -/
theorem WellFormed.of_mem_entries {stmt : Stmt} (formed : stmt.WellFormed) {depth : Nat} :
    ∀ entry ∈ stmt.entries depth, entry.2.WellFormed := by
  cases stmt with
  | block body line => exact formed.elim
  | missing => exact formed.elim
  | command kind line => exact List.forall_mem_singleton.mpr trivial
  | loop count body line =>
    simp only [entries, List.forall_mem_cons, List.forall_mem_append]
    exact ⟨trivial, trivial, formed.1.of_mem_entries, trivial,
      AllWellFormed.of_mem_entriesAll formed.2⟩
  | branch condition body line =>
    simp only [entries, List.forall_mem_cons, List.forall_mem_append, List.forall_mem_map]
    exact ⟨trivial, fun _ _ => trivial, trivial, AllWellFormed.of_mem_entriesAll formed.2⟩
  | assign name value line =>
    exact List.forall_mem_cons.mpr ⟨formed.1, formed.2.of_mem_entries⟩
  | define name parameters body line =>
    exact List.forall_mem_cons.mpr ⟨⟨formed.1.1, formed.2.1⟩,
      AllWellFormed.of_mem_entriesAll formed.2.2.2⟩
  | call name arguments implicit line =>
    have isName : IsName name := by
      cases implicit with
      | true => exact formed.1.1
      | false => exact formed.1
    refine List.forall_mem_cons.mpr ⟨isName, fun entry member => ?_⟩
    obtain ⟨value, among, found⟩ := List.mem_flatMap.mp member
    exact (formed.2 value among).of_mem_entries entry found

/-- The `entriesAll` of statements that can be written have captions that can. -/
theorem AllWellFormed.of_mem_entriesAll {stmts : List Stmt} (formed : AllWellFormed stmts)
    {depth : Nat} : ∀ entry ∈ entriesAll depth stmts, entry.2.WellFormed := by
  match stmts with
  | [] => exact List.forall_mem_nil _
  | stmt :: stmts =>
    rw [entriesAll, List.forall_mem_append]
    exact ⟨WellFormed.of_mem_entries formed.1, AllWellFormed.of_mem_entriesAll formed.2⟩

end

end Stmt

/-! ## Lines of values and conditions are not shown -/

/-- `Expr.entries` does not depend on lines. -/
theorem Expr.entries_eraseLines (depth : Nat) (value : Expr) :
    value.eraseLines.entries depth = value.entries depth := by
  cases value <;> rfl

namespace Stmt

mutual

/-- `entries` does not depend on the lines of values and conditions. -/
theorem entries_eraseInnerLines (depth : Nat) (stmt : Stmt) :
    stmt.eraseInnerLines.entries depth = stmt.entries depth := by
  cases stmt with
  | block body line => simp only [eraseInnerLines, entries, entriesAll_eraseAllInnerLines _ body]
  | loop count body line =>
    simp only [eraseInnerLines, entries, Expr.entries_eraseLines,
      entriesAll_eraseAllInnerLines _ body]
  | branch condition body line =>
    have same : (condition.map Condition.eraseLines).toList.map (depth + 1, ·.caption) =
        condition.toList.map (depth + 1, ·.caption) := by
      cases condition <;> rfl
    simp only [eraseInnerLines, entries, entriesAll_eraseAllInnerLines _ body, same]
  | define name parameters body line =>
    simp only [eraseInnerLines, entries, entriesAll_eraseAllInnerLines _ body]
  | assign name value line => simp only [eraseInnerLines, entries, Expr.entries_eraseLines]
  | call name arguments implicit line =>
    simp only [eraseInnerLines, entries, List.flatMap_map, Expr.entries_eraseLines]
  | command kind line => rfl
  | missing => rfl

/-- `entriesAll` does not depend on the lines of values and conditions. -/
theorem entriesAll_eraseAllInnerLines (depth : Nat) (stmts : List Stmt) :
    entriesAll depth (eraseAllInnerLines stmts) = entriesAll depth stmts := by
  match stmts with
  | [] => rfl
  | stmt :: stmts =>
    rw [eraseAllInnerLines, entriesAll, entriesAll, entries_eraseInnerLines,
      entriesAll_eraseAllInnerLines]

end

end Stmt

namespace Program

/-- The program with the lines of its values and conditions set to zero. -/
def eraseInnerLines (program : Program) : Program :=
  ⟨Stmt.eraseAllInnerLines program.body, program.line⟩

/-- `parse` gives a program on line one. -/
theorem line_of_parse {source : List UInt8} {program : Program}
    (parsed : parse source = .ok program) : program.line = 1 := by
  obtain ⟨forms, -, read⟩ := bind_eq_ok_iff.mp parsed
  obtain ⟨body, -, whole⟩ := bind_eq_ok_iff.mp read
  cases whole
  rfl

/-- `Program.outline` is the line of the program and those of its statements. -/
theorem outline_eq (program : Program) :
    program.outline =
      ended (((0, Caption.block) :: Stmt.entriesAll 1 program.body).map entryText) :=
  Stmt.outline_eq 0 program.toStmt

/-- `outline` does not depend on the lines of values and conditions. -/
theorem outline_eraseInnerLines (program : Program) :
    program.eraseInnerLines.outline = program.outline := by
  rw [outline_eq, outline_eq, eraseInnerLines, Stmt.entriesAll_eraseAllInnerLines]

/-- **Outlines are unambiguous.** Two programs that were read have the same `outline` exactly if
they differ at most in the lines of values and conditions, which `eraseInnerLines` erases. -/
theorem outline_unambiguous {source source' : List UInt8} {program program' : Program}
    (parsed : parse source = .ok program) (parsed' : parse source' = .ok program') :
    program.outline = program'.outline ↔ program.eraseInnerLines = program'.eraseInnerLines := by
  constructor
  · intro same
    have formed : Stmt.AllWellFormed program.body := wellFormed_of_parse parsed
    have formed' : Stmt.AllWellFormed program'.body := wellFormed_of_parse parsed'
    rw [outline_eq, outline_eq] at same
    have shown {body : List Stmt} (formed : Stmt.AllWellFormed body) :
        ∀ entry ∈ (0, Caption.block) :: Stmt.entriesAll 1 body, entry.2.WellFormed :=
      List.forall_mem_cons.mpr ⟨trivial, Stmt.AllWellFormed.of_mem_entriesAll formed⟩
    have entries := entries_eq_of_ended_eq (shown formed) (shown formed') same
    have ends : Leaves 1 [] := by simp [Leaves]
    have bodies := (Stmt.entriesAll_inj formed formed' (Stmt.AllWellFormed.told formed) ends ends
      (congrArg (· ++ []) (List.cons.inj entries).2)).1
    rw [eraseInnerLines, eraseInnerLines, bodies, line_of_parse parsed, line_of_parse parsed']
  · intro same
    rw [← outline_eraseInnerLines program, same, outline_eraseInnerLines]

/-- Two sources that break their lines at different places, before and after a condition. -/
def earlyBreak : List UInt8 := Text.utf8 "(if (not (sensor left))\n(call f x 2))"

@[inherit_doc earlyBreak]
def lateBreak : List UInt8 := Text.utf8 "(if\n(not (sensor left)) (call\nf x 2))"

/-- Their programs have the same outline, and differ in the lines of the condition and the arguments
only. -/
theorem outline_unambiguous_breaks :
    let early : Program := ⟨[.branch (some ⟨.sensor, true, .left, 1⟩)
      [.call "f" [.var "x" 2, .number 2 2] false 2] 1], 1⟩
    let late : Program := ⟨[.branch (some ⟨.sensor, true, .left, 2⟩)
      [.call "f" [.var "x" 3, .number 2 3] false 2] 1], 1⟩
    parse earlyBreak = .ok early ∧ parse lateBreak = .ok late ∧ early ≠ late ∧
      early.outline = late.outline ∧ early.eraseInnerLines = late.eraseInnerLines := by
  intro early late
  have parsed : parse earlyBreak = .ok early := eq_ok_of_toOption (by decide +kernel)
  have parsed' : parse lateBreak = .ok late := eq_ok_of_toOption (by decide +kernel)
  have same : early.outline = late.outline := by decide +kernel
  exact ⟨parsed, parsed', by decide +kernel, same, (outline_unambiguous parsed parsed').mp same⟩

end Program

end MazeRobot
