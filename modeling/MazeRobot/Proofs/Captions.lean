import MazeRobot.Program.Outline
import MazeRobot.Proofs.LayoutLines

/-! # Captions

A line of an outline has a caption, which starts with a word of its own; after it come names and
numbers, with characters between them that stand in neither. So the text of a caption tells all that
it says.

* `Text.append_inj_of_stops`: a text is cut in two where characters of a kind end.
* `Caption`, `Caption.text`: what a line of an outline says, and how.
* `Caption.text_inj`: a caption is told by its text. -/

namespace MazeRobot

/-! ## Cutting a text in two -/

namespace Text

/-- Whether all characters of a text are of a kind. -/
def Only (p : Char → Bool) (text : String) : Prop := ∀ c ∈ text.toList, p c = true

/-- Whether a text does not go on with a character of a kind. -/
def Stops (p : Char → Bool) (text : String) : Prop := ∀ c ∈ text.toList.head?, p c = false

instance (p : Char → Bool) (text : String) : Decidable (Only p text) :=
  decidable_of_iff (text.toList.all p) List.all_eq_true

instance (p : Char → Bool) (text : String) : Decidable (Stops p text) :=
  decidable_of_iff (text.toList.head?.all fun c => !p c) (by
    unfold Stops
    cases text.toList.head? <;> simp)

section

variable {p : Char → Bool} {first first' rest rest' : String}

/-- `Only` holds of two texts in a row exactly if it holds of both. -/
@[simp] theorem only_append : Only p (first ++ rest) ↔ Only p first ∧ Only p rest := by
  simp [Only, or_imp, forall_and]

/-- `Only` holds of texts with another one between them if it holds of all. -/
theorem Only.intercalate {texts : List String} (between : Only p first)
    (each : ∀ text ∈ texts, Only p text) : Only p (String.intercalate first texts) := by
  induction texts with
  | nil => simp [Only]
  | cons text texts ih =>
    have tail := ih fun other member => each other (List.mem_cons_of_mem text member)
    cases texts with
    | nil => simpa using each
    | cons second texts =>
      rw [String.intercalate_cons_cons]
      simp [between, tail, each text List.mem_cons_self]

/-- `Stops` is told by the first part of a text, if there is one. -/
theorem Stops.append (stops : Stops p first) (some : first ≠ "") : Stops p (first ++ rest) := by
  intro c head
  refine stops c ?_
  rw [String.toList_append, List.head?_append_of_ne_nil _ (by simpa using some)] at head
  exact head

/-- A text is cut in two in one way if the first part is `Only` of a kind and the second `Stops`
it. -/
theorem append_inj_of_stops (only : Only p first) (only' : Only p first') (stops : Stops p rest)
    (stops' : Stops p rest') (same : first ++ rest = first' ++ rest') :
    first = first' ∧ rest = rest' := by
  have read {text after : String} (only : Only p text) (stops : Stops p after) :
      (text ++ after).toList.takeWhile p = text.toList := by
    rw [String.toList_append, List.takeWhile_append_of_pos only]
    cases chars : after.toList with
    | nil => simp
    | cons c cs =>
      have out : p c = false := stops c (by simp [chars])
      simp [out]
  have firsts : first = first' := by
    rw [← String.toList_inj, ← read only stops, ← read only' stops', same]
  rw [firsts, String.append_right_inj] at same
  exact ⟨firsts, same⟩

end

/-- Whether a character does not end a line. -/
def isInLine (c : Char) : Bool := c != '\n'

/-- `ended` puts a line break after each line. -/
theorem ended_cons (line : String) (lines : List String) :
    ended (line :: lines) = line ++ ("\n" ++ ended lines) := by
  simp [ended, String.append_assoc]

/-! ## Words -/

/-- Whether a character can stand in a name or a number. -/
def isWordChar (c : Char) : Bool := c.isAlphanum || c == '_' || c == '-'

/-- A character with `isWordChar` differs from one without. -/
theorem ne_of_isWordChar {c d : Char} (word : isWordChar c = true) (other : isWordChar d = false) :
    c ≠ d := by
  rintro rfl
  rw [word] at other
  cases other

end Text

open Text

/-- A text that `IsName` has `Only` characters that can stand in a name or a number. -/
theorem IsName.only_isWordChar {name : String} (isName : IsName name) : Only isWordChar name :=
  isName.forall_mem (by decide +kernel)

/-- `toString` of an integer tells the integer: digits tell a natural number, and they do not start
with a sign. -/
theorem eq_of_toString_eq {n n' : Int} (same : toString n = toString n') : n = n' := by
  have digits {m k : Nat} (same : m.repr = k.repr) : m = k := by
    rw [← digitsValue_toDigits m, ← Nat.toList_repr, same, Nat.toList_repr, digitsValue_toDigits]
  have unsigned {m k : Nat} : m.repr ≠ "-" ++ k.repr := by
    intro signed
    refine head?_toDigits_ne m ?_
    rw [← Nat.toList_repr, signed, String.toList_append]
    rfl
  cases n with
  | ofNat m =>
    cases n' with
    | ofNat k => exact congrArg Int.ofNat (digits same)
    | negSucc k => exact absurd same unsigned
  | negSucc m =>
    cases n' with
    | ofNat k => exact absurd same.symm unsigned
    | negSucc k =>
      have successors : (m + 1).repr = (k + 1).repr := (String.append_right_inj "-").mp same
      exact congrArg Int.negSucc (Nat.succ.inj (digits successors))
/-- `Nat.repr` has `Only` digits. -/
theorem only_isWordChar_repr (n : Nat) : Only isWordChar n.repr := by
  intro c member
  rw [Nat.toList_repr] at member
  have digit : c.isDigit = true := Nat.isDigit_of_mem_toDigits (by decide) (by decide) member
  simp [isWordChar, Char.isAlphanum, digit]

/-- `toString` of an integer has `Only` digits and a sign. -/
theorem only_isWordChar_toString (n : Int) : Only isWordChar (toString n) := by
  cases n with
  | ofNat n => exact only_isWordChar_repr n
  | negSucc n =>
    show Only isWordChar ("-" ++ (n + 1).repr)
    exact only_append.mpr ⟨by decide, only_isWordChar_repr _⟩

/-! ## Captions -/

/-- What a line of an outline says. -/
inductive Caption where
  | block
  | command (kind : Command) (line : Int)
  | loop (line : Int)
  | count
  | body
  | branch (line : Int)
  | condition (query : Query) (negated : Bool) (direction : Direction)
  | assign (name : String) (line : Int)
  | define (name : String) (parameters : List String) (line : Int)
  | call (name : String) (implicit : Bool) (line : Int)
  | number (value : Int)
  | var (name : String)
  | distance

namespace Caption

/-- The line of the source at the end of a caption. -/
def lineMark (line : Int) : String := " (line " ++ (toString line ++ ")")

/-- The word that starts a caption. -/
def word : Caption → String
  | block => "Block"
  | command _ _ => "Command"
  | loop _ => "Repeat"
  | count => "Count"
  | body => "Body"
  | branch _ => "If"
  | condition _ _ _ => "Condition"
  | assign _ _ => "Set"
  | define _ _ _ => "Function"
  | call _ _ _ => "Call"
  | number _ => "Number"
  | var _ => "Variable"
  | distance => "DistanceToEnd"

/-- What follows the first word of a caption. -/
def tail : Caption → String
  | block | distance => ""
  | count | body => ":"
  | loop line | branch line => lineMark line
  | command kind line => ": " ++ (kind.name ++ lineMark line)
  | condition query negated direction =>
    ": " ++ ((if negated then "not " else "") ++ (query.name ++ (" " ++ direction.name)))
  | assign name line => ": " ++ (name ++ lineMark line)
  | define name parameters line =>
    ": " ++ (name ++ ("(" ++ (String.intercalate ", " parameters ++ (")" ++ lineMark line))))
  | call name implicit line =>
    (if implicit then " (implicit): " else ": ") ++ (name ++ lineMark line)
  | number value => ": " ++ toString value
  | var name => ": " ++ name

/-- The text of a caption. -/
def text (caption : Caption) : String := caption.word ++ caption.tail

/-- A caption whose names can be written. -/
def WellFormed : Caption → Prop
  | assign name _ | call name _ _ | var name => IsName name
  | define name parameters _ => IsName name ∧ ∀ parameter ∈ parameters, IsName parameter
  | _ => True

/-- `lineMark` tells the line of the source. -/
theorem lineMark_inj {line line' : Int} (same : lineMark line = lineMark line') : line = line' := by
  rw [lineMark, lineMark, String.append_right_inj] at same
  have numbers := (append_inj_of_stops (only_isWordChar_toString line)
    (only_isWordChar_toString line') (by decide) (by decide) same).1
  exact eq_of_toString_eq numbers

/-- `lineMark` does not go on with a word: it `Stops` it. -/
theorem stops_lineMark (line : Int) : Stops isWordChar (lineMark line) :=
  Stops.append (by decide) (by decide)

/-- A word and a line of the source are told by the word with its `lineMark`. -/
theorem word_lineMark_inj {first first' : String} {line line' : Int} (only : Only isWordChar first)
    (only' : Only isWordChar first') (same : first ++ lineMark line = first' ++ lineMark line') :
    first = first' ∧ line = line' := by
  obtain ⟨words, marks⟩ :=
    append_inj_of_stops only only' (stops_lineMark line) (stops_lineMark line') same
  exact ⟨words, lineMark_inj marks⟩

/-- What follows a parameter: the other parameters and the closing parenthesis. -/
def afterParameter (names : List String) (rest : String) : String :=
  match names with
  | [] => ")" ++ rest
  | _ :: _ => ", " ++ (String.intercalate ", " names ++ (")" ++ rest))

/-- `afterParameter` does not go on with a word. -/
theorem stops_afterParameter (names : List String) (rest : String) :
    Stops isWordChar (afterParameter names rest) := by
  cases names with
  | nil => exact Stops.append (by decide) (by decide)
  | cons name names => exact Stops.append (by decide) (by decide)

/-- Parameters in a row are the first one and `afterParameter` of the others. -/
theorem parameters_cons (name : String) (names : List String) (rest : String) :
    String.intercalate ", " (name :: names) ++ (")" ++ rest) =
      name ++ afterParameter names rest := by
  cases names with
  | nil => simp [afterParameter]
  | cons second names =>
    rw [String.intercalate_cons_cons, afterParameter]
    simp only [String.append_assoc]

/-- `afterParameter` starts with a comma exactly if there are others, so it tells their text. -/
theorem parameters_eq_of_afterParameter {names names' : List String} {rest rest' : String}
    (same : afterParameter names rest = afterParameter names' rest') :
    String.intercalate ", " names ++ (")" ++ rest) =
      String.intercalate ", " names' ++ (")" ++ rest') := by
  have heads {first second : String} : ")" ++ first ≠ ", " ++ second := by
    rw [ne_eq, ← String.toList_inj]
    simp
  cases names with
  | nil =>
    cases names' with
    | nil => exact same
    | cons name' names' => exact absurd same heads
  | cons name names =>
    cases names' with
    | nil => exact absurd same.symm heads
    | cons name' names' =>
      rw [afterParameter, afterParameter, String.append_right_inj] at same
      exact same

/-- Parameters, each of which `IsName`, are told by their text up to the closing parenthesis. -/
theorem parameters_inj {names names' : List String} {rest rest' : String}
    (isName : ∀ name ∈ names, IsName name) (isName' : ∀ name ∈ names', IsName name)
    (same : String.intercalate ", " names ++ (")" ++ rest) =
      String.intercalate ", " names' ++ (")" ++ rest')) :
    names = names' ∧ rest = rest' := by
  -- No parameter is empty, so without parameters the parenthesis comes first.
  have closed {name : String} {names : List String} {rest rest' : String} (isName : IsName name)
      (same : String.intercalate ", " [] ++ (")" ++ rest) = name ++ afterParameter names rest') :
      False := by
    have none : Only isWordChar (String.intercalate ", " []) := by decide
    have empty := (append_inj_of_stops none isName.only_isWordChar
      (Stops.append (by decide) (by decide)) (stops_afterParameter _ _) same).1
    exact isName.tidy.ne_empty empty.symm
  induction names generalizing names' with
  | nil =>
    cases names' with
    | nil =>
      rw [String.append_right_inj, String.append_right_inj] at same
      exact ⟨rfl, same⟩
    | cons name' names' =>
      rw [parameters_cons] at same
      exact (closed (isName' name' List.mem_cons_self) same).elim
  | cons name names ih =>
    cases names' with
    | nil =>
      rw [parameters_cons] at same
      exact (closed (isName name List.mem_cons_self) same.symm).elim
    | cons name' names' =>
      rw [parameters_cons, parameters_cons] at same
      obtain ⟨rfl, others⟩ := append_inj_of_stops (isName name List.mem_cons_self).only_isWordChar
        (isName' name' List.mem_cons_self).only_isWordChar (stops_afterParameter _ _)
        (stops_afterParameter _ _) same
      obtain ⟨rfl, rest⟩ := ih (fun other member => isName other (List.mem_cons_of_mem _ member))
        (fun other member => isName' other (List.mem_cons_of_mem _ member))
        (parameters_eq_of_afterParameter others)
      exact ⟨rfl, rest⟩

/-- The `word` of a caption is a word. -/
theorem only_word (caption : Caption) : Only isWordChar caption.word := by
  cases caption <;> simp only [word] <;> decide

/-- The `word` of a caption is not empty. -/
theorem word_ne_empty (caption : Caption) : caption.word ≠ "" := by
  cases caption <;> simp [word]

/-- The `word` of a caption ends where its `tail` begins. -/
theorem stops_tail (caption : Caption) : Stops isWordChar caption.tail := by
  cases caption with
  | block | distance | count | body => decide
  | loop line | branch line => exact stops_lineMark line
  | call name implicit line =>
    cases implicit <;> exact Stops.append (by decide) (by decide)
  | _ => exact Stops.append (by decide) (by decide)

/-- The `tail` of a condition tells what it asks. -/
theorem condition_inj {query query' : Query} {negated negated' : Bool}
    {direction direction' : Direction}
    (same : (condition query negated direction).tail =
      (condition query' negated' direction').tail) :
    query = query' ∧ negated = negated' ∧ direction = direction' := by
  rw [tail, tail, String.append_right_inj] at same
  obtain rfl : negated = negated' := by
    cases negated <;> cases negated' <;> cases query <;> cases query' <;>
      simp [Query.name, ← String.toList_inj] at same ⊢
  rw [String.append_right_inj] at same
  have only (query : Query) : Only isWordChar query.name := by cases query <;> decide
  obtain ⟨queries, rest⟩ := append_inj_of_stops (only query) (only query')
    (Stops.append (by decide) (by decide)) (Stops.append (by decide) (by decide)) same
  rw [String.append_right_inj] at rest
  refine ⟨?_, rfl, ?_⟩
  · cases query <;> cases query' <;> first | rfl | exact absurd queries (by decide)
  · have directions := congrArg Direction.ofName? rest
    simpa using directions

/-- **A caption is told by its `text`.** -/
theorem text_inj {caption caption' : Caption} (formed : caption.WellFormed)
    (formed' : caption'.WellFormed) (same : caption.text = caption'.text) : caption = caption' := by
  obtain ⟨words, tails⟩ := append_inj_of_stops caption.only_word caption'.only_word
    caption.stops_tail caption'.stops_tail same
  -- The first word tells which kind of caption it is.
  cases caption <;> cases caption' <;> simp [word] at words
  case block.block => rfl
  case command.command kind line kind' line' =>
    rw [tail, tail, String.append_right_inj] at tails
    obtain ⟨kinds, rfl⟩ := word_lineMark_inj (by cases kind <;> decide) (by cases kind' <;> decide)
      tails
    cases kind <;> cases kind' <;> first | rfl | exact absurd kinds (by decide)
  case loop.loop line line' => rw [lineMark_inj tails]
  case count.count => rfl
  case body.body => rfl
  case branch.branch line line' => rw [lineMark_inj tails]
  case condition.condition query negated direction query' negated' direction' =>
    obtain ⟨rfl, rfl, rfl⟩ := condition_inj tails
    rfl
  case assign.assign name line name' line' =>
    rw [tail, tail, String.append_right_inj] at tails
    obtain ⟨rfl, rfl⟩ := word_lineMark_inj formed.only_isWordChar formed'.only_isWordChar tails
    rfl
  case define.define name parameters line name' parameters' line' =>
    rw [tail, tail, String.append_right_inj] at tails
    obtain ⟨rfl, header⟩ := append_inj_of_stops formed.1.only_isWordChar formed'.1.only_isWordChar
      (Stops.append (by decide) (by decide)) (Stops.append (by decide) (by decide)) tails
    rw [String.append_right_inj] at header
    obtain ⟨rfl, marks⟩ := parameters_inj formed.2 formed'.2 header
    rw [lineMark_inj marks]
  case call.call name implicit line name' implicit' line' =>
    obtain rfl : implicit = implicit' := by
      cases implicit <;> cases implicit' <;> simp [tail, ← String.toList_inj] at tails ⊢
    obtain ⟨rfl, rfl⟩ := word_lineMark_inj formed.only_isWordChar formed'.only_isWordChar
      ((String.append_right_inj _).mp tails)
    rfl
  case number.number value value' =>
    rw [tail, tail, String.append_right_inj] at tails
    rw [eq_of_toString_eq tails]
  case var.var name name' =>
    rw [tail, tail, String.append_right_inj] at tails
    rw [tails]
  case distance.distance => rfl

/-- The `text` of a caption is on one line. -/
theorem WellFormed.only_isInLine {caption : Caption} (formed : caption.WellFormed) :
    Only isInLine caption.text := by
  have word {text : String} (only : Only isWordChar text) : Only isInLine text :=
    fun c member => bne_iff_ne.mpr (ne_of_isWordChar (only c member) rfl)
  have mark (line : Int) : Only isInLine (lineMark line) := by
    simp only [lineMark, only_append]
    exact ⟨by decide, word (only_isWordChar_toString line), by decide⟩
  have colon : Only isInLine ": " := by decide
  refine only_append.mpr ⟨word caption.only_word, ?_⟩
  cases caption with
  | block | distance | count | body => decide
  | loop line | branch line => exact mark line
  | command kind line =>
    have name : Only isInLine kind.name := by cases kind <;> decide
    simp [tail, colon, name, mark]
  | condition query negated direction =>
    have negation : Only isInLine (if negated then "not " else "") := by cases negated <;> decide
    have name : Only isInLine query.name := by cases query <;> decide
    have side : Only isInLine direction.name := by cases direction <;> decide
    simp only [tail, only_append]
    exact ⟨colon, negation, name, by decide, side⟩
  | assign name line => simp [tail, colon, word formed.only_isWordChar, mark]
  | define name parameters line =>
    have names : Only isInLine (String.intercalate ", " parameters) :=
      .intercalate (by decide) fun parameter member =>
        word (formed.2 parameter member).only_isWordChar
    have opening : Only isInLine "(" := by decide
    have closing : Only isInLine ")" := by decide
    simp [tail, colon, word formed.1.only_isWordChar, opening, names, closing, mark]
  | call name implicit line =>
    have kind : Only isInLine (if implicit then " (implicit): " else ": ") := by
      cases implicit <;> decide
    simp only [tail, only_append]
    exact ⟨kind, word formed.only_isWordChar, mark line⟩
  | number value => exact only_append.mpr ⟨colon, word (only_isWordChar_toString value)⟩
  | var name => simp [tail, colon, word formed.only_isWordChar]

end Caption

end MazeRobot
