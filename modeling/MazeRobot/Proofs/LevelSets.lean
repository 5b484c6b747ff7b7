import Mathlib.Data.List.Forall2
import Mathlib.Data.List.Nodup
import MazeRobot.Files.Tree
import MazeRobot.Level.Load

/-! # Sets of levels

The levels of a set are sorted by their numbers, and then every level is compared with the next one
only. In a sorted list that finds every number that occurs twice, and the least of them first. The
sort keeps levels with one number in the order in which they came, so the two that are named are the
first two of the input. Without such a number the sorted list depends on the levels alone, and not
on the order in which their files were found.

* `Level.Repeats`: the least number that occurs twice, with the names of its first two levels.
* `Level.filter_id_sorted`: sorting keeps the levels with one number in their order.
* `Level.duplicate?_eq_none_iff`, `Level.repeats_of_duplicate?`: what comparing neighbours finds.
* `Level.arrange_eq_ok_iff`, `Level.arrange_eq_error_iff`: the two outcomes.
* `Level.Yields`, `Level.run_loadAll`: the levels of a folder.
* `Level.arrange_exact`: all of this in one statement. -/

namespace MazeRobot.Level

variable {levels arranged : List Level} {duplicate : Duplicate}

/-! ## Order -/

/-- The levels in the order of their numbers, those with one number as they came. -/
def sorted (levels : List Level) : List Level := levels.mergeSort fun a b => a.id ≤ b.id

/-- The comparison by numbers is transitive. -/
theorem id_le_trans (a b c : Level) (first : decide (a.id ≤ b.id) = true)
    (second : decide (b.id ≤ c.id) = true) : decide (a.id ≤ c.id) = true :=
  decide_eq_true (Int.le_trans (of_decide_eq_true first) (of_decide_eq_true second))

/-- Any two levels can be compared by their numbers. -/
theorem id_le_total (a b : Level) : (decide (a.id ≤ b.id) || decide (b.id ≤ a.id)) = true := by
  rw [Bool.or_eq_true, decide_eq_true_iff, decide_eq_true_iff]
  exact Int.le_total a.id b.id

/-- `sorted` keeps the levels. -/
theorem sorted_perm (levels : List Level) : (sorted levels).Perm levels :=
  List.mergeSort_perm levels _

/-- `sorted` puts the numbers in order. -/
theorem pairwise_sorted (levels : List Level) : (sorted levels).Pairwise (·.id ≤ ·.id) :=
  (List.pairwise_mergeSort id_le_trans id_le_total levels).imp of_decide_eq_true

/-- **`sorted` keeps the levels with one number in the order in which they came.** -/
theorem filter_id_sorted (levels : List Level) (id : Int) :
    (sorted levels).filter (·.id = id) = levels.filter (·.id = id) := by
  -- The levels with one number are in order, so the sort keeps them one after another.
  have ordered : (levels.filter (·.id = id)).Pairwise fun a b => decide (a.id ≤ b.id) = true := by
    refine List.pairwise_of_forall_mem_list fun a first b second => decide_eq_true ?_
    have left := of_decide_eq_true (List.mem_filter.mp first).2
    have right := of_decide_eq_true (List.mem_filter.mp second).2
    exact Int.le_of_eq (left.trans right.symm)
  have kept : (levels.filter (·.id = id)).Sublist (sorted levels) :=
    List.sublist_mergeSort id_le_trans id_le_total ordered List.filter_sublist
  have within : (levels.filter (·.id = id)).Sublist ((sorted levels).filter (·.id = id)) := by
    simpa using kept.filter (·.id = id)
  have size := ((sorted_perm levels).filter (·.id = id)).length_eq
  exact (within.eq_of_length size.symm).symm

/-! ## Repeated numbers -/

/-- The least number that occurs more than once among levels, with the names of the first two levels
that have it. -/
structure Repeats (levels : List Level) (duplicate : Duplicate) : Prop where
  /-- The number occurs twice, and these are the first two. -/
  occurs : ∃ first second rest,
    levels.filter (·.id = duplicate.id) = first :: second :: rest ∧
      duplicate.first = first.name ∧ duplicate.second = second.name
  /-- Every smaller number occurs at most once. -/
  least : ∀ id < duplicate.id, (levels.filter (·.id = id)).length ≤ 1

namespace Repeats

/-- `Repeats` depends on the levels with each number only. -/
theorem of_filter_eq {others : List Level} (repeats : Repeats levels duplicate)
    (same : ∀ id, others.filter (·.id = id) = levels.filter (·.id = id)) :
    Repeats others duplicate := by
  refine ⟨?_, fun id less => ?_⟩
  · rw [same]
    exact repeats.occurs
  · rw [same]
    exact repeats.least id less

/-- `Repeats` holds of only one least number, with only one pair of first levels. -/
theorem eq {another : Duplicate} (repeats : Repeats levels duplicate)
    (again : Repeats levels another) : another = duplicate := by
  obtain ⟨a, b, rest, found, first, second⟩ := repeats.occurs
  obtain ⟨a', b', rest', found', first', second'⟩ := again.occurs
  have notBelow : ¬ another.id < duplicate.id := fun less => by
    have one := repeats.least another.id less
    rw [found'] at one
    simp at one
  have notAbove : ¬ duplicate.id < another.id := fun less => by
    have one := again.least duplicate.id less
    rw [found] at one
    simp at one
  have same : another.id = duplicate.id := by omega
  rw [same, found] at found'
  obtain ⟨rfl, rfl, -⟩ : a = a' ∧ b = b' ∧ rest = rest' := by simpa using found'
  cases duplicate
  cases another
  simp_all

/-- `Repeats` makes two levels have one number. -/
theorem not_pairwise (repeats : Repeats levels duplicate) : ¬ levels.Pairwise (·.id ≠ ·.id) := by
  intro apart
  obtain ⟨first, second, rest, found, -⟩ := repeats.occurs
  have differ := apart.filter (·.id = duplicate.id)
  have named : ∀ level ∈ levels.filter (·.id = duplicate.id), level.id = duplicate.id :=
    fun level member => of_decide_eq_true (List.mem_filter.mp member).2
  rw [found] at differ named
  have left := named first (by simp)
  have right := named second (by simp)
  exact List.rel_of_pairwise_cons differ List.mem_cons_self (left.trans right.symm)

end Repeats

/-! ## Neighbours -/

/-- In a sorted list all levels have greater numbers than the first one, if the second one does. -/
theorem id_lt_of_mem {a b : Level} {rest : List Level}
    (ordered : (a :: b :: rest).Pairwise (·.id ≤ ·.id)) (differ : a.id ≠ b.id) {level : Level}
    (member : level ∈ b :: rest) : a.id < level.id := by
  have next : a.id ≤ b.id := List.rel_of_pairwise_cons ordered List.mem_cons_self
  have least : b.id ≤ level.id := by
    rcases List.mem_cons.mp member with rfl | later
    · exact Int.le_refl _
    · exact List.rel_of_pairwise_cons ordered.of_cons later
  omega

/-- A number below all others does not occur. -/
theorem filter_id_eq_nil {id : Int} (above : ∀ level ∈ levels, id < level.id) :
    levels.filter (·.id = id) = [] := by
  refine List.filter_eq_nil_iff.mpr fun level member same => ?_
  exact Int.ne_of_lt (above level member) (of_decide_eq_true same).symm

/-- **`duplicate?`, which compares neighbours of a sorted list, misses nothing**: without equal
neighbours its numbers increase strictly. -/
theorem duplicate?_eq_none_iff (ordered : levels.Pairwise (·.id ≤ ·.id)) :
    duplicate? levels = none ↔ levels.Pairwise (·.id < ·.id) := by
  fun_induction duplicate? levels with
  | case1 a b rest same =>
    refine iff_of_false (by simp) fun increasing => ?_
    have less : a.id < b.id := List.rel_of_pairwise_cons increasing List.mem_cons_self
    omega
  | case2 a b rest differ ih =>
    rw [ih ordered.of_cons, List.pairwise_cons (a := a), and_iff_right]
    exact fun level member => id_lt_of_mem ordered differ member
  | case3 levels short =>
    refine iff_of_true rfl ?_
    rcases levels with _ | ⟨a, _ | ⟨b, rest⟩⟩
    · exact .nil
    · exact List.pairwise_singleton _ a
    · exact (short a b rest rfl).elim

/-- **What `duplicate?` finds in a sorted list are the first two levels with the least repeated
number.** -/
theorem repeats_of_duplicate? (ordered : levels.Pairwise (·.id ≤ ·.id))
    (found : duplicate? levels = some duplicate) : Repeats levels duplicate := by
  fun_induction duplicate? levels with
  | case1 a b rest same =>
    cases found
    refine ⟨⟨a, b, rest.filter (·.id = b.id), by simp [same], rfl, rfl⟩, fun id less => ?_⟩
    -- No level has a smaller number than the first one.
    rw [filter_id_eq_nil]
    · exact Nat.zero_le 1
    · intro level member
      have least : a.id ≤ level.id := by
        rcases List.mem_cons.mp member with rfl | later
        · exact Int.le_refl _
        · exact List.rel_of_pairwise_cons ordered later
      exact Int.lt_of_lt_of_le less (same ▸ least)
  | case2 a b rest differ ih =>
    have later := ih ordered.of_cons found
    obtain ⟨first, second, others, members, named⟩ := later.occurs
    have inside : first ∈ b :: rest :=
      List.mem_of_mem_filter (members ▸ List.mem_cons_self)
    have number : first.id = duplicate.id := by
      have kept : first ∈ (b :: rest).filter (·.id = duplicate.id) := members ▸ List.mem_cons_self
      exact of_decide_eq_true (List.mem_filter.mp kept).2
    have below : a.id < duplicate.id := number ▸ id_lt_of_mem ordered differ inside
    refine ⟨⟨first, second, others, ?_, named⟩, fun id less => ?_⟩
    · rw [List.filter_cons_of_neg (by simpa using Int.ne_of_lt below), members]
    · -- The first level is the only one with its number, since the others have greater ones.
      rw [List.filter_cons]
      split
      · next own =>
        have same : a.id = id := of_decide_eq_true own
        rw [filter_id_eq_nil fun level member => same ▸ id_lt_of_mem ordered differ member]
        exact Nat.le_refl 1
      · exact later.least id less
  | case3 levels short => cases found

/-! ## Arranging -/

/-- `arrange` gives the `sorted` levels, if these have no equal neighbours. -/
theorem arrange_eq (levels : List Level) :
    arrange levels = match duplicate? (sorted levels) with
      | some duplicate => .error duplicate
      | none => .ok (sorted levels) := rfl

/-- There is only one way to put levels in strictly increasing order. -/
theorem eq_of_perm_of_increasing {others : List Level} (perm : arranged.Perm others)
    (left : arranged.Pairwise (·.id < ·.id)) (right : others.Pairwise (·.id < ·.id)) :
    arranged = others :=
  perm.eq_of_pairwise (fun _ _ _ _ less greater => absurd less (Int.lt_asymm greater)) left right

/-- Levels in strictly increasing order have different numbers, and so do all their orderings. -/
theorem pairwise_ne_of_increasing (perm : arranged.Perm levels)
    (increasing : arranged.Pairwise (·.id < ·.id)) : levels.Pairwise (·.id ≠ ·.id) :=
  (perm.pairwise_iff fun differ => differ.symm).mp (increasing.imp Int.ne_of_lt)

/-- `sorted` puts levels with different numbers in strictly increasing order. -/
theorem increasing_sorted (apart : levels.Pairwise (·.id ≠ ·.id)) :
    (sorted levels).Pairwise (·.id < ·.id) := by
  have still : (sorted levels).Pairwise (·.id ≠ ·.id) :=
    ((sorted_perm levels).pairwise_iff fun differ => differ.symm).mpr apart
  exact ((pairwise_sorted levels).and still).imp Int.lt_iff_le_and_ne.mpr

/-- **`arrange` gives the one ordering with strictly increasing numbers.** -/
theorem arrange_eq_ok_iff :
    arrange levels = .ok arranged ↔ arranged.Perm levels ∧ arranged.Pairwise (·.id < ·.id) := by
  rw [arrange_eq]
  constructor
  · intro given
    cases found : duplicate? (sorted levels) with
    | some duplicate =>
      rw [found] at given
      cases given
    | none =>
      rw [found] at given
      cases given
      exact ⟨sorted_perm levels, (duplicate?_eq_none_iff (pairwise_sorted levels)).mp found⟩
  · rintro ⟨perm, increasing⟩
    have strict := increasing_sorted (pairwise_ne_of_increasing perm increasing)
    rw [(duplicate?_eq_none_iff (pairwise_sorted levels)).mpr strict]
    exact congrArg Except.ok
      (eq_of_perm_of_increasing ((sorted_perm levels).trans perm.symm) strict increasing)

/-- **`arrange` fails exactly if a number occurs twice**, and tells the least one that `Repeats`. -/
theorem arrange_eq_error_iff : arrange levels = .error duplicate ↔ Repeats levels duplicate := by
  have told : ∀ {d}, duplicate? (sorted levels) = some d → Repeats levels d := fun found =>
    (repeats_of_duplicate? (pairwise_sorted levels) found).of_filter_eq
      fun id => (filter_id_sorted levels id).symm
  rw [arrange_eq]
  cases found : duplicate? (sorted levels) with
  | some d =>
    constructor
    · intro given
      cases given
      exact told found
    · exact fun repeats => congrArg Except.error (repeats.eq (told found))
  | none =>
    refine iff_of_false (by simp) fun repeats => repeats.not_pairwise ?_
    exact pairwise_ne_of_increasing (sorted_perm levels)
      ((duplicate?_eq_none_iff (pairwise_sorted levels)).mp found)

/-- `arrange` succeeds exactly for levels with different numbers. -/
theorem exists_arrange_iff :
    (∃ arranged, arrange levels = .ok arranged) ↔ levels.Pairwise (·.id ≠ ·.id) := by
  constructor
  · rintro ⟨arranged, given⟩
    obtain ⟨perm, increasing⟩ := arrange_eq_ok_iff.mp given
    exact pairwise_ne_of_increasing perm increasing
  · exact fun apart => ⟨_, arrange_eq_ok_iff.mpr ⟨sorted_perm levels, increasing_sorted apart⟩⟩

/-- `find?` finds a level that `arrange` has put in order by its number. -/
theorem find?_eq_some_iff (given : arrange levels = .ok arranged) {id : Int} {level : Level} :
    find? arranged id = some level ↔ level ∈ levels ∧ level.id = id := by
  obtain ⟨perm, increasing⟩ := arrange_eq_ok_iff.mp given
  have apart : (arranged.map (·.id)).Nodup := List.pairwise_map.mpr (increasing.imp Int.ne_of_lt)
  rw [← perm.mem_iff]
  constructor
  · intro found
    exact ⟨List.mem_of_find?_eq_some found, by simpa using List.find?_some found⟩
  · rintro ⟨member, rfl⟩
    cases found : find? arranged level.id with
    | none => simpa using List.find?_eq_none.mp found level member
    | some other =>
      have number : other.id = level.id := by simpa using List.find?_some found
      have inside := List.mem_of_find?_eq_some found
      rw [List.inj_on_of_nodup_map apart inside member number]

/-! ## Folders -/

/-- `ofBytes` of a file that gives a level gives it under any name. -/
theorem ofBytes_eq_ok {path : String} {bytes : List UInt8} {level : Level}
    (given : ofBytes path bytes = .ok level) (other : String) : ofBytes other bytes = .ok level := by
  rw [ofBytes] at given ⊢
  cases decoded : String.fromUTF8? ⟨bytes.toArray⟩ with
  | none =>
    rw [decoded] at given
    cases given
  | some text =>
    rw [decoded] at given
    dsimp only at given ⊢
    cases parsed : parse text with
    | error error =>
      rw [parsed] at given
      cases given
    | ok found =>
      rw [parsed] at given
      exact given

/-- A folder of a tree in which the files with the names of levels give the levels in a list, in the
order of the names. -/
def Yields (tree : FileTree) (folder : String) (levels : List Level) : Prop :=
  ∃ entries, tree.listFolder folder = .ok entries ∧
    List.Forall₂ (fun path level =>
        ∃ bytes, tree.readFile path = .ok bytes ∧ ofBytes path bytes = .ok level)
      (((entries.filter fun e => !e.isFolder && isLevelName e.name).map (·.name)).map
        (Path.inside folder)) levels

/-- `readFile` leaves the files as they are. -/
theorem run_readFile (tree : FileTree) (path : String) :
    (FileStore.readFile path : StateM FileTree _).run tree = (tree.readFile path, tree) := rfl

/-- `listFolder` leaves the files as they are. -/
theorem run_listFolder (tree : FileTree) (path : String) :
    (FileStore.listFolder path : StateM FileTree _).run tree = (tree.listFolder path, tree) := rfl

/-- `loadEach` of files that give levels gives these, and leaves the files as they are. -/
theorem run_loadEach {tree : FileTree} {paths : List String}
    (each : List.Forall₂ (fun path level =>
      ∃ bytes, tree.readFile path = .ok bytes ∧ ofBytes path bytes = .ok level) paths levels) :
    (loadEach paths : StateM FileTree _).run tree = (.ok levels, tree) := by
  induction each with
  | nil => rfl
  | @cons path level paths levels file _ ih =>
    obtain ⟨bytes, read, given⟩ := file
    have one : (load path : StateM FileTree _).run tree = (.ok level, tree) := by
      rw [load, StateT.run_bind, run_readFile, read]
      exact congrArg (Prod.mk · tree) given
    rw [loadEach, StateT.run_bind, one]
    show StateT.run (loadEach paths >>= _) tree = _
    rw [StateT.run_bind, ih]
    rfl

/-- **`loadAll` of a folder is `arrange` of the levels of its files.** -/
theorem run_loadAll {tree : FileTree} {folder : String} (yields : Yields tree folder levels) :
    (loadAll folder : StateM FileTree _).run tree =
      ((arrange levels).mapError .duplicate, tree) := by
  obtain ⟨entries, listed, each⟩ := yields
  rw [loadAll, StateT.run_bind, run_listFolder, listed]
  show StateT.run (loadEach _ >>= _) tree = _
  rw [StateT.run_bind, run_loadEach each]
  rfl

/-- **A set of levels does not depend on how its files are called.** `arrange` succeeds exactly if
the numbers of the levels differ. They are then put into the one ordering in which the numbers
increase strictly, so other orderings of the same levels give the same list, and a level of it is
found by its number. Levels that cannot be arranged are reported by the least number that occurs
more than once, with the names of the first two levels that have it in the order in which they came.
`loadAll` arranges the levels of the files of a folder: folders whose files give the same levels, in
whatever order, give the same result if the numbers differ. -/
theorem arrange_exact (levels : List Level) :
    ((∃ arranged, arrange levels = .ok arranged) ↔ levels.Pairwise (·.id ≠ ·.id)) ∧
    (∀ arranged, arrange levels = .ok arranged ↔
      arranged.Perm levels ∧ arranged.Pairwise (·.id < ·.id)) ∧
    (∀ arranged, arrange levels = .ok arranged →
      (∀ others : List Level, others.Perm levels → arrange others = .ok arranged) ∧
        ∀ (id : Int) (level : Level),
          find? arranged id = some level ↔ level ∈ levels ∧ level.id = id) ∧
    (∀ duplicate, arrange levels = .error duplicate ↔ Repeats levels duplicate) ∧
    ∀ (tree tree' : FileTree) (folder folder' : String) (others : List Level),
      Yields tree folder levels → Yields tree' folder' others → others.Perm levels →
        levels.Pairwise (·.id ≠ ·.id) →
          ((loadAll folder' : StateM FileTree _).run tree').1 =
            ((loadAll folder : StateM FileTree _).run tree).1 := by
  have reordered : ∀ {arranged others : List Level}, arrange levels = .ok arranged →
      others.Perm levels → arrange others = .ok arranged := by
    intro arranged others given perm
    obtain ⟨same, increasing⟩ := arrange_eq_ok_iff.mp given
    exact arrange_eq_ok_iff.mpr ⟨same.trans perm.symm, increasing⟩
  refine ⟨exists_arrange_iff, fun _ => arrange_eq_ok_iff, ?_, fun _ => arrange_eq_error_iff, ?_⟩
  · intro arranged given
    exact ⟨fun _ => reordered given, fun _ _ => find?_eq_some_iff given⟩
  · intro tree tree' folder folder' others here there perm apart
    obtain ⟨arranged, given⟩ := exists_arrange_iff.mpr apart
    rw [run_loadAll here, run_loadAll there, reordered given perm, given]

/-- A level without a name. -/
def wayOut : Level := ⟨7, "level 7", "", ⟨[[.start, .goal]]⟩, ⟨0, 0⟩, .east, false⟩

/-- The same maze the other way round. -/
def wayBack : Level := ⟨-3, "Way Back", "", ⟨[[.goal, .start]]⟩, ⟨1, 0⟩, .west, false⟩

/-- Another level with the number of the second one. -/
def wayHome : Level := { wayBack with name := "Home" }

/-- A file of the first level. -/
def wayOutFile : List UInt8 := Text.utf8 "id: 7\ngrid: SE\n"

/-- A file of the second level. -/
def wayBackFile : List UInt8 := Text.utf8 "id: -3\nname: Way Back\nheading: west\ngrid: ES\n"

/-- A working folder with both files and one that is not a level. -/
def outAndBack : FileTree :=
  ⟨[(["a.yaml"], wayOutFile), (["b.YML"], wayBackFile), (["notes.txt"], [])], []⟩

/-- A folder in which the second level comes first. -/
def backAndOut : FileTree :=
  ⟨[(["set", "1.yaml"], wayBackFile), (["set", "2.yaml"], wayOutFile)], [["set", "3.yaml"]]⟩

/-- `ofBytes` reads the level `wayOut` from its file. -/
theorem ofBytes_wayOutFile (path : String) : ofBytes path wayOutFile = .ok wayOut :=
  ofBytes_eq_ok (show ofBytes "" wayOutFile = .ok wayOut by decide +kernel) path

/-- `ofBytes` reads the level `wayBack` from its file. -/
theorem ofBytes_wayBackFile (path : String) : ofBytes path wayBackFile = .ok wayBack :=
  ofBytes_eq_ok (show ofBytes "" wayBackFile = .ok wayBack by decide +kernel) path

/-- `entryNames` lists names that are found in order as they are. -/
theorem entryNames_eq {tree : FileTree} {location names : List String}
    (found : tree.entryNames location = names.mergeSort) (ordered : names.Pairwise (· ≤ ·)) :
    tree.entryNames location = names := by
  rw [found]
  exact List.mergeSort_of_pairwise (by simpa using ordered)

/-- `Yields` of the folder where `wayOut` comes first. -/
theorem yields_outAndBack : Yields outAndBack "." [wayOut, wayBack] := by
  have place : outAndBack.locate "." = .ok (.folder []) := by decide +kernel
  have names : outAndBack.entryNames [] = ["a.yaml", "b.YML", "notes.txt"] :=
    entryNames_eq rfl (by decide +kernel)
  refine ⟨[⟨"a.yaml", false⟩, ⟨"b.YML", false⟩, ⟨"notes.txt", false⟩], ?_, ?_⟩
  · rw [FileTree.listFolder, place]
    simp only [names]
    decide +kernel
  · refine .cons ⟨wayOutFile, ?_, ofBytes_wayOutFile _⟩
      (.cons ⟨wayBackFile, ?_, ofBytes_wayBackFile _⟩ .nil) <;> decide +kernel

/-- `Yields` of the folder where `wayBack` comes first. -/
theorem yields_backAndOut : Yields backAndOut "set" [wayBack, wayOut] := by
  have place : backAndOut.locate "set" = .ok (.folder ["set"]) := by decide +kernel
  have names : backAndOut.entryNames ["set"] = ["1.yaml", "2.yaml", "3.yaml"] :=
    entryNames_eq rfl (by decide +kernel)
  refine ⟨[⟨"1.yaml", false⟩, ⟨"2.yaml", false⟩, ⟨"3.yaml", true⟩], ?_, ?_⟩
  · rw [FileTree.listFolder, place]
    simp only [names]
    decide +kernel
  · refine .cons ⟨wayBackFile, ?_, ofBytes_wayBackFile _⟩
      (.cons ⟨wayOutFile, ?_, ofBytes_wayOutFile _⟩ .nil) <;> decide +kernel

/-- The two folders load alike, and a level is found in what they give. Of two numbers
that occur twice the smaller one is named. -/
theorem arrange_exact_outAndBack :
    Yields outAndBack "." [wayOut, wayBack] ∧ Yields backAndOut "set" [wayBack, wayOut] ∧
      arrange [wayOut, wayBack] = .ok [wayBack, wayOut] ∧
      arrange [wayBack, wayOut] = .ok [wayBack, wayOut] ∧
      find? [wayBack, wayOut] 7 = some wayOut ∧
      ((loadAll "set" : StateM FileTree _).run backAndOut).1 =
        ((loadAll "." : StateM FileTree _).run outAndBack).1 ∧
      arrange [wayOut, wayBack, wayOut, wayHome] = .error ⟨-3, "Way Back", "Home"⟩ := by
  obtain ⟨-, arranges, arranged, -, loads⟩ := arrange_exact [wayOut, wayBack]
  have swapped : [wayBack, wayOut].Perm [wayOut, wayBack] := List.Perm.swap wayOut wayBack []
  have given := (arranges [wayBack, wayOut]).mpr ⟨swapped, by decide⟩
  obtain ⟨reordered, finds⟩ := arranged _ given
  refine ⟨yields_outAndBack, yields_backAndOut, given, reordered _ swapped,
    (finds 7 wayOut).mpr ⟨by decide, rfl⟩, ?_, ?_⟩
  · exact loads _ _ _ _ _ yields_outAndBack yields_backAndOut swapped (by decide)
  · refine ((arrange_exact _).2.2.2.1 _).mpr ⟨⟨wayBack, wayHome, [], rfl, rfl, rfl⟩, ?_⟩
    intro id less
    have above : ∀ level ∈ [wayOut, wayBack, wayOut, wayHome], -3 ≤ level.id := by decide
    rw [filter_id_eq_nil fun level member => Int.lt_of_lt_of_le less (above level member)]
    exact Nat.zero_le 1

end MazeRobot.Level
