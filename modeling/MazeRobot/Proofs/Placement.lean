import Mathlib.Data.List.Sigma
import MazeRobot.Proofs.Walks

/-! # What stands where

Rows of anything give each position on them one thing: the cells of a maze, the bytes of a drawing
or the characters of a picture. Looking for a cell in a maze finds exactly the positions where it
stands, each of them once.

* `Stands`: what stands at a position of some rows.
* `Grid.cell?_eq_some_iff`: the cell at a position is what stands there.
* `Grid.mem_find`, `Grid.find_eq_singleton_iff`: what looking for a cell finds. -/

namespace MazeRobot

/-- What stands at a position of some rows: in the column and the row with its coordinates, both
counted from zero. -/
def Stands {α : Type} (rows : List (List α)) (p : Position) (a : α) : Prop :=
  ∃ x y : Nat, p = ⟨x, y⟩ ∧ ∃ row, rows[y]? = some row ∧ row[x]? = some a

namespace Stands

variable {α β : Type} {rows : List (List α)} {p : Position}

/-- What `Stands` in a column of a row. -/
theorem mk_iff {x y : Nat} {a : α} :
    Stands rows ⟨x, y⟩ a ↔ rows[y]?.bind (·[x]?) = some a := by
  rw [Option.bind_eq_some_iff]
  constructor
  · rintro ⟨x', y', same, found⟩
    simp only [Position.mk.injEq, Int.natCast_inj] at same
    rwa [same.1, same.2]
  · exact fun found => ⟨x, y, rfl, found⟩

/-- What `Stands` anywhere has a column and a row. -/
theorem exists_mk {a : α} (here : Stands rows p a) : ∃ x y : Nat, p = ⟨x, y⟩ := by
  obtain ⟨x, y, same, -⟩ := here
  exact ⟨x, y, same⟩

/-- What `Stands` in rows that hold, at each position, an image of what other rows hold there. -/
theorem image_iff {images : List (List β)} {f : Position → α → β}
    (image : ∀ x y : Nat, images[y]?.bind (·[x]?) = (rows[y]?.bind (·[x]?)).map (f ⟨x, y⟩))
    {b : β} : Stands images p b ↔ ∃ a, Stands rows p a ∧ f p a = b := by
  constructor
  · intro here
    obtain ⟨x, y, rfl⟩ := here.exists_mk
    rw [mk_iff, image, Option.map_eq_some_iff] at here
    simpa only [mk_iff] using here
  · rintro ⟨a, here, rfl⟩
    obtain ⟨x, y, rfl⟩ := here.exists_mk
    rw [mk_iff, image, mk_iff.mp here]
    rfl

/-- What `Stands` in rows that are mapped member by member. -/
theorem map_iff {f : α → β} {b : β} :
    Stands (rows.map (List.map f)) p b ↔ ∃ a, Stands rows p a ∧ f a = b := by
  refine image_iff (f := fun _ => f) fun x y => ?_
  cases inRow : rows[y]? <;> simp [inRow]

/-- What `Stands` in rows that are mapped with the positions of their members. -/
theorem map_zipIdx_iff {f : Position → α → β} {b : β} :
    Stands (rows.zipIdx.map fun (row, y) => row.zipIdx.map fun (a, x) => f ⟨x, y⟩ a) p b ↔
      ∃ a, Stands rows p a ∧ f p a = b := by
  refine image_iff fun x y => ?_
  cases inRow : rows[y]? with
  | none => simp [inRow]
  | some row => cases inColumn : row[x]? <;> simp [inRow, inColumn]

end Stands

namespace Grid

variable {g : Grid} {kind : Cell} {p : Position}

/-- `cell?` at a position is what `Stands` there. -/
theorem cell?_eq_some_iff {c : Cell} : g.cell? p = some c ↔ Stands g.rows p c := by
  constructor
  · intro found
    by_cases outside : p.x < 0 ∨ p.y < 0
    · rw [cell?_of_neg outside] at found
      cases found
    · obtain ⟨px, py⟩ := p
      obtain ⟨x, rfl⟩ := Int.eq_ofNat_of_zero_le (a := px) (by simp only at outside; omega)
      obtain ⟨y, rfl⟩ := Int.eq_ofNat_of_zero_le (a := py) (by simp only at outside; omega)
      rw [cell?_natCast, Option.bind_eq_some_iff] at found
      exact ⟨x, y, rfl, found⟩
  · rintro ⟨x, y, rfl, found⟩
    rw [cell?_natCast, Option.bind_eq_some_iff]
    exact found

/-- A position is `Free` where something other than a wall `Stands`. -/
theorem free_iff_exists : g.Free p ↔ ∃ c, Stands g.rows p c ∧ c ≠ .wall := by
  simp only [Free, inBounds, cell, ← cell?_eq_some_iff]
  cases g.cell? p <;> simp

/-! ## Looking for a cell -/

/-- `findInRow` finds the columns of a row where the cell is. -/
theorem mem_findInRow {y : Nat} {row : List Cell} :
    p ∈ findInRow kind y row ↔ ∃ x : Nat, p = ⟨x, y⟩ ∧ row[x]? = some kind := by
  simp only [findInRow, List.mem_filterMap, List.mem_zipIdx_iff_getElem?, Prod.exists]
  constructor
  · rintro ⟨c, x, inColumn, found⟩
    split_ifs at found with same
    cases found
    exact ⟨x, rfl, by rw [inColumn, same]⟩
  · rintro ⟨x, rfl, inColumn⟩
    exact ⟨kind, x, inColumn, if_pos rfl⟩

/-- `find` finds a cell where it `Stands`. -/
theorem mem_find : p ∈ g.find kind ↔ Stands g.rows p kind := by
  simp only [find, List.mem_flatMap, List.mem_zipIdx_iff_getElem?, Prod.exists, mem_findInRow]
  constructor
  · rintro ⟨row, y, inRow, x, rfl, inColumn⟩
    exact ⟨x, y, rfl, row, inRow, inColumn⟩
  · rintro ⟨x, y, rfl, row, inRow, inColumn⟩
    exact ⟨row, y, inRow, x, rfl, inColumn⟩

/-- `findInRow` finds nothing twice. -/
theorem nodup_findInRow (y : Nat) (row : List Cell) : (findInRow kind y row).Nodup := by
  refine List.Nodup.filterMap ?_ (.of_map Prod.snd (List.nodup_zipIdx_map_snd row))
  rintro ⟨c, x⟩ ⟨c', x'⟩ q found found'
  simp only [Option.mem_def, Option.ite_none_right_eq_some, Option.some.injEq] at found found'
  obtain ⟨rfl, rfl⟩ := found
  obtain ⟨rfl, same⟩ := found'
  simp only [Position.mk.injEq, Int.natCast_inj, and_true] at same
  rw [same]

/-- `find` finds nothing twice, since rows have different numbers. -/
theorem nodup_find (g : Grid) (kind : Cell) : (g.find kind).Nodup := by
  refine List.nodup_flatMap.mpr ⟨fun _ _ => nodup_findInRow _ _, ?_⟩
  have numbered := List.pairwise_map.mp (List.nodup_zipIdx_map_snd g.rows)
  refine numbered.imp fun {above below} apart p inAbove inBelow => ?_
  obtain ⟨x, rfl, -⟩ := mem_findInRow.mp inAbove
  obtain ⟨x', same, -⟩ := mem_findInRow.mp inBelow
  simp only [Position.mk.injEq, Int.natCast_inj] at same
  exact apart same.2

/-- `find` finds a cell once exactly if it `Stands` at one position only. -/
theorem find_eq_singleton_iff : g.find kind = [p] ↔ ∀ q, Stands g.rows q kind ↔ q = p := by
  constructor
  · intro found q
    rw [← mem_find, found, List.mem_singleton]
  · intro only
    rw [← List.perm_singleton,
      List.perm_ext_iff_of_nodup (g.nodup_find kind) (List.nodup_singleton p)]
    intro q
    rw [mem_find, only, List.mem_singleton]

end Grid

end MazeRobot
