import MazeRobot.Proofs.Distance

/-! # Breadth-first search with a queue

The textbook form of the search behind `Grid.distance?`: one queue of positions, each with its
number of steps, and the set of the positions that have been in it. The first position leaves the
queue, and its free neighbours that have not been there join at the end. The layers of
`Grid.searchLayers` and the queue find the same distance.

* `Grid.Search`, `Grid.Search.expand`: the queue with the positions seen, and one round of the loop.
* `Grid.searchQueue`: the loop. It ends because each round looks at one position, and a position
  joins the queue at most once.
* `Grid.Search.Frontier`: what the loop keeps. The queue holds positions with their distances, in
  order and spread over at most two of them, and behind it everything is seen.
* `Grid.queueDistance?_eq_distance?`: the queue finds what the layers find. -/

namespace MazeRobot.Grid

/-! ## The search -/

/-- What a search with a queue keeps between two rounds. -/
structure Search where
  /-- The positions to look at, each with its number of steps, in the order of their turn. -/
  queue : List (Position × Nat)
  /-- The positions that are or have been in the queue. -/
  seen : List Position

namespace Search

/-- Puts a position at the end of the queue, unless it has been there or is blocked. -/
def enqueue (g : Grid) (hops : Nat) (search : Search) (p : Position) : Search :=
  if search.seen.contains p || g.blocked p then search
  else ⟨search.queue ++ [(p, hops)], p :: search.seen⟩

/-- Puts the neighbours of a position that is so many steps away at the end of the queue. -/
def expand (g : Grid) (p : Position) (hops : Nat) (search : Search) : Search :=
  p.neighbours.foldl (enqueue g (hops + 1)) search

/-- The positions of the grid that are not seen. -/
def unseen (g : Grid) (search : Search) : List Position :=
  g.positions.filter (· ∉ search.seen)

/-- What is left to do. A position that joins the queue makes it longer by one and `unseen` shorter,
so `unseen` counts twice. -/
def work (g : Grid) (search : Search) : Nat :=
  2 * (search.unseen g).length + search.queue.length

section

variable {g : Grid} {hops : Nat} {search : Search} {p q : Position}

/-- `enqueue` leaves the search as it is where the position has been seen or is not `Free`. -/
theorem enqueue_of_not (shut : q ∈ search.seen ∨ ¬ g.Free q) :
    search.enqueue g hops q = search := by
  rw [enqueue, if_pos]
  rw [free_iff, Bool.not_eq_false] at shut
  simpa using shut

/-- `enqueue` takes in a `Free` position that has not been seen. -/
theorem enqueue_of_free (fresh : q ∉ search.seen) (free : g.Free q) :
    search.enqueue g hops q = ⟨search.queue ++ [(q, hops)], q :: search.seen⟩ := by
  rw [enqueue, if_neg]
  rw [free_iff] at free
  simp [fresh, free]

/-- A `Free` position that is `seen` for the first time leaves `unseen`. -/
theorem length_unseen_lt (queue : List (Position × Nat)) (fresh : q ∉ search.seen)
    (free : g.Free q) :
    (unseen g ⟨queue, q :: search.seen⟩).length < (search.unseen g).length := by
  have filtered : unseen g ⟨queue, q :: search.seen⟩ = (search.unseen g).filter (· ≠ q) := by
    simp [unseen, List.filter_filter]
  rw [filtered, List.length_filter_lt_length_iff_exists]
  refine ⟨q, List.mem_filter.mpr ⟨mem_positions free.1, decide_eq_true fresh⟩, ?_⟩
  simp

/-- `enqueue` makes no `work`. -/
theorem work_enqueue_le : (search.enqueue g hops q).work g ≤ search.work g := by
  by_cases taken : q ∉ search.seen ∧ g.Free q
  · have fewer := length_unseen_lt (search.queue ++ [(q, hops)]) taken.1 taken.2
    rw [enqueue_of_free taken.1 taken.2]
    simp only [work, List.length_append, List.length_singleton]
    omega
  · rw [not_and_or, not_not] at taken
    rw [enqueue_of_not taken]

/-- `expand` makes no `work`, so the position that leaves the queue is progress. -/
theorem work_expand_le : (search.expand g p hops).work g ≤ search.work g := by
  unfold expand
  induction p.neighbours generalizing search with
  | nil => exact Nat.le_refl _
  | cons q qs ih =>
    rw [List.foldl_cons]
    exact Nat.le_trans ih work_enqueue_le

/-- `enqueue` forgets nothing that is `seen`. -/
theorem subset_seen_enqueue : search.seen ⊆ (search.enqueue g hops q).seen := by
  unfold enqueue
  split
  · exact List.Subset.refl _
  · exact List.subset_cons_self _ _

/-- After `enqueue` a `Free` position is `seen`. -/
theorem mem_seen_enqueue (free : g.Free q) : q ∈ (search.enqueue g hops q).seen := by
  by_cases old : q ∈ search.seen
  · exact subset_seen_enqueue old
  · rw [enqueue_of_free old free]
    exact List.mem_cons_self

/-- After `expand` the `Free` neighbours of the position are `seen`. -/
theorem mem_seen_expand (adjacent : p.Adjacent q) (free : g.Free q) :
    q ∈ (search.expand g p hops).seen := by
  -- Once a position is seen it stays so to the end of the round.
  have kept (qs : List Position) (start : Search) :
      start.seen ⊆ (qs.foldl (enqueue g (hops + 1)) start).seen := by
    induction qs generalizing start with
    | nil => exact List.Subset.refl _
    | cons r qs ih => exact List.Subset.trans subset_seen_enqueue (ih _)
  obtain ⟨before, after, split⟩ := List.append_of_mem (Position.mem_neighbours.mpr adjacent)
  rw [expand, split, List.foldl_append, List.foldl_cons]
  exact kept after _ (mem_seen_enqueue free)

end

end Search

/-- The steps to the first goal that leaves the queue. -/
def searchQueue (g : Grid) : Search → Option Nat
  | ⟨[], _⟩ => none
  | ⟨(p, hops) :: queue, seen⟩ =>
    if g.cell p = .goal then some hops else searchQueue g (Search.expand g p hops ⟨queue, seen⟩)
termination_by search => search.work g
decreasing_by
  refine Nat.lt_of_le_of_lt Search.work_expand_le ?_
  simp only [Search.work, Search.unseen, List.length_cons]
  omega

/-- The least number of steps from a position to a goal, by a search with a queue. -/
def queueDistance? (g : Grid) (origin : Position) : Option Nat :=
  if g.blocked origin then none else g.searchQueue ⟨[(origin, 0)], [origin]⟩

/-! ## What the search keeps -/

/-- Whether nothing is left to do at a position: it is no goal, and its free neighbours are seen. -/
def Explored (g : Grid) (seen : List Position) (p : Position) : Prop :=
  g.cell p ≠ .goal ∧ ∀ q, p.Adjacent q → g.Free q → q ∈ seen

/-- What holds of a search with a queue between two rounds. -/
structure Search.Frontier (g : Grid) (origin : Position) (search : Search) : Prop where
  /-- The positions in the queue stand with their distances. -/
  atDistance : ∀ entry ∈ search.queue, g.AtDistance origin entry.2 entry.1
  /-- The queue is in the order of the distances. -/
  sorted : search.queue.Pairwise fun entry later => entry.2 ≤ later.2
  /-- Two distances in the queue differ by at most one. -/
  band : ∀ entry ∈ search.queue, ∀ other ∈ search.queue, other.2 ≤ entry.2 + 1
  /-- The origin is seen. -/
  origin : origin ∈ search.seen
  /-- A position that is seen is still in the queue, or nothing is left to do there. -/
  explored : ∀ p ∈ search.seen, (∃ n, (p, n) ∈ search.queue) ∨ g.Explored search.seen p

namespace Search.Frontier

variable {g : Grid} {origin p q : Position} {search : Search} {queue : List (Position × Nat)}
  {seen : List Position} {hops n : Nat}

/-- A search starts at a `Free` origin. -/
theorem start (free : g.Free origin) : Frontier g origin ⟨[(origin, 0)], [origin]⟩ := by
  constructor
  · simp [atDistance_zero_iff free]
  · simp
  · simp
  · simp
  · intro p member
    rw [List.mem_singleton.mp member]
    exact .inl ⟨0, List.mem_singleton_self _⟩

/-- Everything up to the distances in the queue is `seen`. -/
theorem mem_seen_of_reaches (frontier : Frontier g origin search)
    (far : ∀ entry ∈ search.queue, hops ≤ entry.2) (reaches : g.Reaches origin n p)
    (le : n ≤ hops) : p ∈ search.seen := by
  induction reaches with
  | start => exact frontier.origin
  | @step n p q before adjacent free ih =>
    rcases frontier.explored p (ih (by omega)) with ⟨m, member⟩ | done
    · -- A position before the last step is too near to be in the queue.
      have less : m ≤ n := (frontier.atDistance _ member).2 n before
      have more : hops ≤ m := far _ member
      omega
    · exact done.2 q adjacent free

/-- A goal that the origin `Reaches` is no nearer than some position in the queue. -/
theorem exists_le_of_goal (frontier : Frontier g origin search) (reaches : g.Reaches origin n p)
    (goal : g.cell p = .goal) : ∃ entry ∈ search.queue, entry.2 ≤ n := by
  by_contra farther
  push Not at farther
  have seen : p ∈ search.seen :=
    frontier.mem_seen_of_reaches (fun entry member => Nat.le_of_lt (farther entry member)) reaches
      (Nat.le_refl n)
  rcases frontier.explored p seen with ⟨m, member⟩ | done
  · have less : m ≤ n := (frontier.atDistance _ member).2 n reaches
    have more : n < m := farther _ member
    omega
  · exact done.1 goal

/-- The first position in the `queue` is the nearest. -/
theorem head_le (frontier : Frontier g origin ⟨(p, hops) :: queue, seen⟩) :
    ∀ entry ∈ (p, hops) :: queue, hops ≤ entry.2 := by
  intro entry member
  rcases List.mem_cons.mp member with rfl | later
  · exact Nat.le_refl _
  · exact List.rel_of_pairwise_cons frontier.sorted later

/-- A `Free` neighbour of the first position that is not `seen` is one step further away. -/
theorem atDistance_succ (frontier : Frontier g origin ⟨(p, hops) :: queue, seen⟩)
    (adjacent : p.Adjacent q) (free : g.Free q) (fresh : q ∉ seen) :
    g.AtDistance origin (hops + 1) q := by
  have here : g.AtDistance origin hops p := frontier.atDistance _ List.mem_cons_self
  refine ⟨.step here.1 adjacent free, fun m reaches => ?_⟩
  by_contra nearer
  exact fresh (frontier.mem_seen_of_reaches frontier.head_le reaches (by omega))

/-- `enqueue` keeps the `Frontier` while it takes in a neighbour of the first position. -/
theorem enqueue (frontier : Frontier g origin ⟨(p, hops) :: search.queue, search.seen⟩)
    (adjacent : p.Adjacent q) :
    Frontier g origin ⟨(p, hops) :: (search.enqueue g (hops + 1) q).queue,
      (search.enqueue g (hops + 1) q).seen⟩ := by
  by_cases taken : q ∉ search.seen ∧ g.Free q
  · obtain ⟨fresh, free⟩ := taken
    have nearest := frontier.head_le
    have farthest := fun entry member => frontier.band (p, hops) List.mem_cons_self entry member
    rw [enqueue_of_free fresh free]
    dsimp only at nearest farthest ⊢
    rw [← List.cons_append]
    constructor
    · intro entry member
      rcases List.mem_append.mp member with old | new
      · exact frontier.atDistance entry old
      · rw [List.mem_singleton.mp new]
        exact frontier.atDistance_succ adjacent free fresh
    · refine List.pairwise_append.mpr ⟨frontier.sorted, List.pairwise_singleton _ _, ?_⟩
      intro entry old later new
      rw [List.mem_singleton.mp new]
      exact farthest entry old
    · intro entry member other member'
      rcases List.mem_append.mp member with old | new <;>
        rcases List.mem_append.mp member' with old' | new'
      · exact frontier.band entry old other old'
      · rw [List.mem_singleton.mp new']
        exact Nat.succ_le_succ (nearest entry old)
      · rw [List.mem_singleton.mp new]
        exact Nat.le_succ_of_le (farthest other old')
      · rw [List.mem_singleton.mp new, List.mem_singleton.mp new']
        exact Nat.le_succ _
    · exact List.mem_cons_of_mem _ frontier.origin
    · intro r member
      rcases List.mem_cons.mp member with rfl | old
      · exact .inl ⟨hops + 1, List.mem_append_right _ (List.mem_singleton_self _)⟩
      · refine (frontier.explored r old).imp ?_ ?_
        · rintro ⟨m, queued⟩
          exact ⟨m, List.mem_append_left _ queued⟩
        · rintro ⟨noGoal, around⟩
          exact ⟨noGoal, fun s next free => List.mem_cons_of_mem _ (around s next free)⟩
  · rw [not_and_or, not_not] at taken
    rw [enqueue_of_not taken]
    exact frontier

/-- The neighbours of the first position join the queue one after the other, and the `Frontier`
stays as long as that position is in front. -/
theorem foldl_enqueue {qs : List Position} (adjacent : ∀ q ∈ qs, p.Adjacent q)
    (frontier : Frontier g origin ⟨(p, hops) :: search.queue, search.seen⟩) :
    Frontier g origin ⟨(p, hops) :: (qs.foldl (Search.enqueue g (hops + 1)) search).queue,
      (qs.foldl (Search.enqueue g (hops + 1)) search).seen⟩ := by
  induction qs generalizing search with
  | nil => exact frontier
  | cons q qs ih =>
    have first : p.Adjacent q := adjacent q List.mem_cons_self
    exact ih (fun r member => adjacent r (List.mem_cons_of_mem q member)) (frontier.enqueue first)

/-- **One round keeps the `Frontier`.** When the neighbours of a position that is no goal have
joined the queue, nothing is left to do at the position, and it may leave. -/
theorem expand (frontier : Frontier g origin ⟨(p, hops) :: queue, seen⟩)
    (noGoal : g.cell p ≠ .goal) : Frontier g origin (Search.expand g p hops ⟨queue, seen⟩) := by
  have around : Frontier g origin ⟨(p, hops) :: (Search.expand g p hops ⟨queue, seen⟩).queue,
      (Search.expand g p hops ⟨queue, seen⟩).seen⟩ :=
    foldl_enqueue (fun q => Position.mem_neighbours.mp) frontier
  have done : g.Explored (Search.expand g p hops ⟨queue, seen⟩).seen p :=
    ⟨noGoal, fun q adjacent free => mem_seen_expand adjacent free⟩
  constructor
  · exact fun entry member => around.atDistance entry (List.mem_cons_of_mem _ member)
  · exact around.sorted.of_cons
  · exact fun entry member other member' =>
      around.band entry (List.mem_cons_of_mem _ member) other (List.mem_cons_of_mem _ member')
  · exact around.origin
  · intro r member
    by_cases same : r = p
    · rw [same]
      exact .inr done
    · refine (around.explored r member).imp_left ?_
      rintro ⟨m, queued⟩
      rcases List.mem_cons.mp queued with first | later
      · exact absurd (congrArg Prod.fst first) same
      · exact ⟨m, later⟩

end Search.Frontier

/-! ## The queue finds the least distance -/

/-- From a `Frontier`, `searchQueue` finds the least number of steps in which a goal can be reached,
and nothing where there is none. -/
theorem Search.Frontier.searchQueue_eq_some_iff {g : Grid} {origin : Position} {search : Search}
    {n : Nat} (frontier : Search.Frontier g origin search) :
    g.searchQueue search = some n ↔
      IsLeast {n | ∃ p, g.Reaches origin n p ∧ g.cell p = .goal} n := by
  fun_induction searchQueue g search with
  | case1 seen =>
    constructor
    · intro found
      cases found
    · rintro ⟨⟨p, reaches, goal⟩, -⟩
      obtain ⟨entry, member, -⟩ := frontier.exists_le_of_goal reaches goal
      cases member
  | case2 p hops queue seen goal =>
    have least : IsLeast {n | ∃ p, g.Reaches origin n p ∧ g.cell p = .goal} hops := by
      refine ⟨⟨p, (frontier.atDistance _ List.mem_cons_self).1, goal⟩, ?_⟩
      rintro m ⟨q, reaches, goal⟩
      obtain ⟨entry, member, le⟩ := frontier.exists_le_of_goal reaches goal
      exact Nat.le_trans (frontier.head_le entry member) le
    constructor
    · intro found
      rw [← Option.some.inj found]
      exact least
    · intro other
      rw [least.unique other]
  | case3 p hops queue seen noGoal ih => exact ih (frontier.expand noGoal)

/-- **The queue and the layers find the same distance**: `queueDistance?` is `distance?`. -/
theorem queueDistance?_eq_distance? (g : Grid) (origin : Position) :
    g.queueDistance? origin = g.distance? origin := by
  by_cases shut : g.blocked origin = true
  · rw [queueDistance?, distance?, if_pos shut, if_pos shut]
  · have free : g.Free origin := free_iff.mpr (Bool.not_eq_true _ ▸ shut)
    refine Option.ext fun n => ?_
    rw [queueDistance?, if_neg shut, (Search.Frontier.start free).searchQueue_eq_some_iff,
      distance?_eq_some_iff]

end MazeRobot.Grid
