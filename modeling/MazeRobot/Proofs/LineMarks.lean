import MazeRobot.Fault.Basic
import Mathlib.Data.List.Infix
import Mathlib.Data.List.TakeWhile

/-! # Texts without the lines that they name

A fault is told by its message, by the line that is at fault and by a hint. The line is told by a
mark of its own, so two faults that differ in their lines only are told by the same text once the
marks are taken out. A mark starts with a blank and ends where the digits do; whatever stands around
it in such a text neither makes a mark longer nor makes another one.

* `LineMark.length`, `LineMark.remove`: the mark at the start of a text, and a text without its
  marks.
* `LineMark.remove_append`: marks are taken out piece by piece.
* `Text.withoutLine`, `Fault.withoutLine_detail`: what is told about a fault, apart from its line.
  -/

namespace MazeRobot

namespace LineMark

/-- The words before the number of a line. -/
def words : List Char := " at line ".toList

/-- How long the mark is with which a text starts: the words and the digits of the number. It is
zero where the text does not start with a mark. -/
def length (text : List Char) : Nat :=
  let digits := (text.drop words.length).takeWhile Char.isDigit
  if words.isPrefixOf text && !digits.isEmpty then words.length + digits.length else 0

/-- The text without its marks, after some characters that belong to a mark and are left out. -/
def remove : Nat → List Char → List Char
  | _, [] => []
  | n + 1, _ :: text => remove n text
  | 0, c :: text =>
    match length (c :: text) with
    | 0 => c :: remove 0 text
    | n + 1 => remove n text

/-! ## The mark at the start of a text -/

/-- Whether something stands apart from a mark that ends before it: a blank that no digit follows
and that goes on in no mark. -/
def Apart (after : List Char) : Prop :=
  after = [] ∨ ∃ c rest, after = ' ' :: c :: rest ∧ c ≠ 'l' ∧ c.isDigit = false

variable {text after digits : List Char}

/-- Digits end where something stands `Apart`. -/
theorem takeWhile_isDigit_append (apart : Apart after) (text : List Char) :
    (text ++ after).takeWhile Char.isDigit = text.takeWhile Char.isDigit := by
  rcases apart with rfl | ⟨c, rest, rfl, -, -⟩
  · rw [List.append_nil]
  · induction text with
    | nil => rfl
    | cons first text ih =>
      rw [List.cons_append, List.takeWhile_cons, List.takeWhile_cons, ih]

/-- `length` of a text that does not start with the `words` is zero: no mark is there. -/
theorem length_of_other_start (no : ¬ words <+: text) : length text = 0 := by
  have start : words.isPrefixOf text = false := by
    rw [Bool.eq_false_iff, ne_eq, List.isPrefixOf_iff_prefix]
    exact no
  rw [length, start]
  rfl

/-- `length` of a mark after the `words` is as the digits say. -/
theorem length_words_append (text : List Char) :
    length (words ++ text) =
      if (text.takeWhile Char.isDigit).isEmpty then 0
      else words.length + (text.takeWhile Char.isDigit).length := by
  have start : words.isPrefixOf (words ++ text) = true :=
    List.isPrefixOf_iff_prefix.mpr (List.prefix_append _ _)
  rw [length, List.drop_left, start, Bool.true_and]
  cases (text.takeWhile Char.isDigit).isEmpty <;> rfl

/-- `length` of a mark is no more than that of the text that starts with it. -/
theorem length_le (text : List Char) : length text ≤ text.length := by
  by_cases start : words <+: text
  · obtain ⟨rest, rfl⟩ := start
    have few := (List.takeWhile_sublist Char.isDigit (l := rest)).length_le
    rw [length_words_append, List.length_append]
    split <;> omega
  · rw [length_of_other_start start]
    exact Nat.zero_le _

/-- Of the `words`, only the last blank and the end from the second blank on start with a blank. -/
theorem tail_of_words : ∀ tail ∈ words.tails, tail ≠ words → tail.head? = some ' ' →
    tail = [' '] ∨ tail.take 2 = [' ', 'l'] := by
  decide

/-- The `words` that start in a text and end in what stands `Apart` are not followed by a digit. -/
theorem takeWhile_isDigit_of_overlap {rest : List Char} (apart : Apart after) (some : text ≠ [])
    (no : ¬ words <+: text) (whole : words ++ rest = text ++ after) :
    rest.takeWhile Char.isDigit = [] := by
  have start : words <+: text ++ after := ⟨rest, whole⟩
  obtain ⟨tail, split⟩ :=
    (List.prefix_or_prefix_of_prefix start (List.prefix_append text after)).resolve_left no
  rw [← split, List.append_assoc, List.append_cancel_left_eq] at whole
  have proper : tail ≠ words := by
    rintro rfl
    exact some (by simpa using split)
  have nonempty : tail ≠ [] := by
    rintro rfl
    rw [List.append_nil] at split
    exact no (split ▸ List.prefix_refl _)
  obtain ⟨first, tail, rfl⟩ := List.exists_cons_of_ne_nil nonempty
  rcases apart with rfl | ⟨c, later, rfl, noWord, noDigit⟩
  · cases whole
  · -- The words go on with a blank, and there are not many blanks in them.
    have blank : first = ' ' := by simpa using congrArg List.head? whole
    have member : first :: tail ∈ words.tails := (List.mem_tails _ _).mpr ⟨text, split⟩
    rcases tail_of_words _ member proper (by rw [blank]; rfl) with last | second
    · obtain rfl : tail = [] := by simpa using congrArg List.tail last
      obtain rfl : rest = c :: later := by simpa using congrArg List.tail whole
      rw [List.takeWhile_cons, noDigit]
      rfl
    · cases tail with
      | nil => cases second
      | cons next tail =>
        have letter : next = 'l' := (List.cons.inj (List.cons.inj second).2).1
        have same : next = c := (List.cons.inj (List.cons.inj whole).2).1
        exact absurd (same.symm.trans letter) noWord

/-- What stands `Apart` does not change the `length` of the mark at the start of a text. -/
theorem length_append (apart : Apart after) (some : text ≠ []) :
    length (text ++ after) = length text := by
  by_cases start : words <+: text
  · obtain ⟨rest, rfl⟩ := start
    rw [List.append_assoc, length_words_append, length_words_append,
      takeWhile_isDigit_append apart]
  · rw [length_of_other_start start]
    by_cases whole : words <+: text ++ after
    · obtain ⟨rest, same⟩ := whole
      rw [← same, length_words_append, takeWhile_isDigit_of_overlap apart some start same]
      rfl
    · exact length_of_other_start whole

/-- The mark of a line is the `words` and the digits of its number. -/
theorem length_mark (some : digits ≠ []) (all : ∀ c ∈ digits, c.isDigit = true)
    (apart : Apart after) : length (words ++ (digits ++ after)) = (words ++ digits).length := by
  have number : (digits ++ after).takeWhile Char.isDigit = digits := by
    rw [takeWhile_isDigit_append apart, List.takeWhile_eq_self_iff.mpr all]
  rw [length_words_append, number, List.length_append, if_neg]
  simpa using some

/-! ## Taking marks out -/

/-- `remove` leaves out characters that belong to a mark. -/
theorem remove_eq_drop (n : Nat) (text : List Char) : remove n text = remove 0 (text.drop n) := by
  induction text generalizing n with
  | nil => cases n <;> simp [remove]
  | cons c text ih =>
    cases n with
    | zero => rfl
    | succ n => rw [remove, ih, List.drop_succ_cons]

/-- `remove` leaves out a mark at the start of a text. -/
theorem remove_of_mark {n : Nat} (mark : length text = n + 1) :
    remove 0 text = remove 0 (text.drop (n + 1)) := by
  cases text with
  | nil => rfl
  | cons c text =>
    rw [remove, mark]
    exact remove_eq_drop n text

/-- **`remove` takes out marks piece by piece**, where the second piece stands `Apart`. -/
theorem remove_append (apart : Apart after) (text : List Char) :
    remove 0 (text ++ after) = remove 0 text ++ remove 0 after := by
  -- Each mark that is taken out leaves a shorter text.
  induction size : text.length using Nat.strongRecOn generalizing text with
  | _ bound ih =>
    cases text with
    | nil => rfl
    | cons c text =>
      have same := length_append apart (List.cons_ne_nil c text)
      cases mark : length (c :: text) with
      | zero =>
        rw [mark] at same
        rw [List.cons_append] at same ⊢
        rw [remove, same, remove, mark]
        dsimp only
        rw [ih text.length (by simp [← size]) text rfl, List.cons_append]
      | succ n =>
        rw [mark] at same
        have within : n + 1 ≤ (c :: text).length := mark ▸ length_le (c :: text)
        have shorter : ((c :: text).drop (n + 1)).length < bound := by
          rw [List.length_drop]
          omega
        rw [remove_of_mark same, remove_of_mark mark, List.drop_append_of_le_length within,
          ih _ shorter _ rfl]

/-- `remove` takes out the mark of a line as a whole. -/
theorem remove_mark (some : digits ≠ []) (all : ∀ c ∈ digits, c.isDigit = true)
    (apart : Apart after) : remove 0 (words ++ (digits ++ after)) = remove 0 after := by
  have mark := length_mark some all apart
  obtain ⟨n, size⟩ : ∃ n, (words ++ digits).length = n + 1 := ⟨_, rfl⟩
  rw [remove_of_mark (mark.trans size), ← size, ← List.append_assoc, List.drop_left]

end LineMark

/-! ## Texts -/

/-- A text without the marks of lines. -/
def Text.withoutLine (text : String) : String := .ofList (LineMark.remove 0 text.toList)

namespace Notice

/-- The part of a text that tells a line, where it is known. -/
def lineText (line : Int) : List Char :=
  if 0 < line then LineMark.words ++ (toString line).toList else []

/-- The part of a text that tells a hint, where there is one. -/
def hintText (hint? : Option String) : List Char :=
  hint?.elim [] fun hint => ' ' :: '(' :: (hint ++ ")").toList

/-- The `detail` of a notice is its message, its line and its hint. -/
theorem toList_detail (notice : Notice) :
    notice.detail.toList =
      notice.message.toList ++ (lineText notice.line ++ hintText notice.hint?) := by
  obtain ⟨message, line, column, hint?⟩ := notice
  have text : (Notice.text ⟨message, line, column, hint?⟩).toList =
      message.toList ++ lineText line := by
    unfold Notice.text lineText
    dsimp only
    by_cases known : 0 < line
    · rw [if_pos known, if_pos known, String.toList_append, String.toList_append]
      rfl
    · rw [if_neg known, if_neg known, List.append_nil]
  cases hint? with
  | none => simp [detail, hintText, text]
  | some hint => simp [detail, hintText, text, toString]

/-- The number of a line is written in digits. -/
theorem isDigit_of_mem_line {line : Int} (known : 0 < line) :
    ∀ c ∈ (toString line).toList, c.isDigit = true := by
  intro c member
  obtain ⟨n, rfl⟩ := Int.eq_ofNat_of_zero_le (Int.le_of_lt known)
  change c ∈ (Nat.repr n).toList at member
  rw [Nat.toList_repr] at member
  exact Nat.isDigit_of_mem_toDigits (by decide) (by decide) member

/-- The number of a line has a digit. -/
theorem toList_line_ne_nil {line : Int} (known : 0 < line) : (toString line).toList ≠ [] := by
  obtain ⟨n, rfl⟩ := Int.eq_ofNat_of_zero_le (Int.le_of_lt known)
  change (Nat.repr n).toList ≠ []
  rw [Nat.toList_repr]
  exact Nat.toDigits_ne_nil

/-- A `hintText` stands `Apart`. -/
theorem apart_hintText (hint? : Option String) : LineMark.Apart (hintText hint?) := by
  cases hint? with
  | none => exact .inl rfl
  | some hint => exact .inr ⟨'(', _, rfl, by decide, by decide⟩

/-- The `detail` of a notice, apart from its line. -/
theorem withoutLine_detail (notice : Notice) :
    Text.withoutLine notice.detail =
      .ofList (LineMark.remove 0 notice.message.toList ++
        LineMark.remove 0 (hintText notice.hint?)) := by
  have hint := apart_hintText notice.hint?
  rw [Text.withoutLine, toList_detail, lineText]
  by_cases known : 0 < notice.line
  · have apart : LineMark.Apart
        (LineMark.words ++ ((toString notice.line).toList ++ hintText notice.hint?)) :=
      .inr ⟨'a', _, rfl, by decide, by decide⟩
    rw [if_pos known, List.append_assoc, LineMark.remove_append apart,
      LineMark.remove_mark (toList_line_ne_nil known) (isDigit_of_mem_line known) hint]
  · rw [if_neg known, List.nil_append, LineMark.remove_append hint]

example : Text.withoutLine (Notice.detail ⟨"Undefined variable 'x'", 12, 0, some "try 'y'"⟩) =
    "Undefined variable 'x' (try 'y')" := by decide +kernel

end Notice

/-- **Faults that differ in their places only have the same `detail`, apart from the line.** -/
theorem Fault.withoutLine_detail {fault fault' : Fault} (same : fault.cause = fault'.cause) :
    Text.withoutLine fault.detail = Text.withoutLine fault'.detail := by
  have message : fault.notice.message = fault'.notice.message := congrArg Cause.message same
  have hint : fault.notice.hint? = fault'.notice.hint? := congrArg Cause.hint? same
  rw [Fault.detail, Fault.detail, Notice.withoutLine_detail, Notice.withoutLine_detail, message,
    hint]

end MazeRobot
