import MazeRobot.Form

/-! # Reading forms by recursive descent

The textbook form of `Form.group`: a function that reads one form, and a function that reads the
items of a list and calls the first one for each of them. The lists that are open are then the calls
that have not returned, where grouping keeps them on a stack. Both read the same forms and stop at
the same fault.

* `Form.Stop`: why the reader stops. It has one reason that grouping has not: the tokens end where a
  form should start.
* `Form.readOne`, `Form.readItems`, `Form.readRow`: one form, the items of a list, the top level.
* `Form.readRow_eq_lift_group`: the reader and the stack agree.
* `Form.readRow_ne_ended`: the reason that only the reader has never comes up. -/

namespace MazeRobot.Form

/-! ## The reader -/

/-- Why the reader stops without a form. -/
inductive Stop where
  /-- A fault of the source. -/
  | fault (fault : Fault)
  /-- The tokens end where a form should start. -/
  | ended (mark : Mark)

/-- What is read from the front of some tokens, with the tokens after it. These are fewer, so a loop
that reads on from there comes to an end. -/
abbrev Front (α : Type) (tokens : List Token) : Type :=
  α × { rest : List Token // rest.length < tokens.length }

mutual

/-- Reads one form. -/
def readOne : (tokens : List Token) → Except Stop (Front Form tokens)
  | [] => .error (.ended ⟨0, 0⟩)
  | token :: tokens =>
    match token.cls with
    | .opening => do
      let ⟨items, rest, shorter⟩ ← readItems token.mark tokens
      return ⟨list items token.mark, rest, Nat.lt_succ_of_lt shorter⟩
    | .symbol => return ⟨symbol token.literal token.mark, tokens, Nat.lt_succ_self _⟩
    | .number => return ⟨number token.literal token.mark, tokens, Nat.lt_succ_self _⟩
    | .closing => .error (.fault ⟨.strayClose, token.mark.line, token.mark.column⟩)
    | .endOfInput => .error (.ended token.mark)
termination_by tokens => (tokens.length, 0)

/-- Reads the items of a list that is opened at a place, and the parenthesis that closes it. -/
def readItems (mark : Mark) : (tokens : List Token) → Except Stop (Front (List Form) tokens)
  | [] => .error (.fault ⟨.unclosedList, mark.line, mark.column⟩)
  | token :: tokens =>
    match token.cls with
    | .closing => return ⟨[], tokens, Nat.lt_succ_self _⟩
    | .endOfInput => .error (.fault ⟨.unclosedList, mark.line, mark.column⟩)
    | _ => do
      let ⟨item, rest, shorter⟩ ← readOne (token :: tokens)
      let ⟨items, rest', shorter'⟩ ← readItems mark rest
      return ⟨item :: items, rest', Nat.lt_trans shorter' shorter⟩
termination_by tokens => (tokens.length, 1)

end

/-- Reads forms up to the end mark. -/
def readRow : List Token → Except Stop (List Form)
  | [] => return []
  | token :: tokens =>
    match token.cls with
    | .endOfInput => return []
    | _ => do
      let ⟨form, rest, _⟩ ← readOne (token :: tokens)
      let forms ← readRow rest
      return form :: forms
termination_by tokens => tokens.length
decreasing_by assumption

/-! ## The reader and the stack agree -/

/-- A result of grouping as a result of the reader. -/
def lift {α : Type} : Except Fault α → Except Stop α
  | .ok value => .ok value
  | .error fault => .error (.fault fault)

mutual

/-- **`groupFrom` goes on as if `readOne` had read one form.** The first token is no end mark, and a
closing parenthesis only where no list is open: the reader is never called for another one. -/
theorem lift_groupFrom_eq_readOne (state : Grouping) (token : Token) (tokens : List Token)
    (begins : token.cls ≠ .endOfInput) (stray : token.cls = .closing → state.pending = []) :
    lift (groupFrom state (token :: tokens)) =
      readOne (token :: tokens) >>= fun front =>
        lift (groupFrom (state.push front.1) front.2.1) := by
  obtain ⟨cls, text, mark⟩ := token
  cases cls with
  | opening =>
    rw [groupFrom, readOne]
    dsimp only
    rw [Grouping.openAt, lift_groupFrom_eq_readItems, bind_assoc]
    rfl
  | closing =>
    obtain ⟨pending, finished⟩ := state
    obtain rfl : pending = [] := stray rfl
    rw [groupFrom, readOne]
    rfl
  | number =>
    rw [groupFrom, readOne]
    rfl
  | symbol =>
    rw [groupFrom, readOne]
    rfl
  | endOfInput => exact absurd rfl begins
termination_by (tokens.length + 1, 0)

/-- **`groupFrom` goes on as if `readItems` had read the items of the innermost list.** The list has
some items already, newest first, and is closed with the new ones after them. -/
theorem lift_groupFrom_eq_readItems (mark : Mark) (items : List Form) (outer : List OpenList)
    (finished : List Form) (tokens : List Token) :
    lift (groupFrom ⟨⟨mark, items⟩ :: outer, finished⟩ tokens) =
      readItems mark tokens >>= fun front =>
        lift (groupFrom (Grouping.push (list (items.reverse ++ front.1) mark) ⟨outer, finished⟩)
          front.2.1) := by
  match tokens with
  | [] =>
    rw [groupFrom, readItems]
    rfl
  | token :: tokens =>
    rw [readItems]
    split
    · next closes =>
      rw [groupFrom, closes]
      show _ = lift (groupFrom (Grouping.push (list (items.reverse ++ []) mark) _) tokens)
      rw [List.append_nil]
      rfl
    · next ends =>
      rw [groupFrom, ends]
      rfl
    · next inside begins =>
      rw [lift_groupFrom_eq_readOne _ token tokens begins (fun closes => absurd closes inside),
        bind_assoc]
      refine bind_congr fun front => ?_
      have shorter : front.2.1.length < tokens.length + 1 := front.2.2
      rw [Grouping.push, lift_groupFrom_eq_readItems, bind_assoc]
      -- The items are kept newest first, and the ones still to come stand after them.
      simp only [pure_bind, List.reverse_cons, List.append_assoc, List.singleton_append]
termination_by (tokens.length, 1)

end

/-- `groupFrom` goes on as if `readRow` had read the rest of the top level. -/
theorem lift_groupFrom_eq_readRow (finished : List Form) (tokens : List Token) :
    lift (groupFrom ⟨[], finished⟩ tokens) =
      readRow tokens >>= fun forms => .ok (finished.reverse ++ forms) := by
  match tokens with
  | [] =>
    rw [groupFrom, readRow, pure_bind, List.append_nil]
    rfl
  | token :: tokens =>
    rw [readRow]
    split
    · next ends =>
      rw [groupFrom, ends, pure_bind, List.append_nil]
      rfl
    · next begins =>
      rw [lift_groupFrom_eq_readOne _ token tokens begins (fun _ => rfl), bind_assoc]
      refine bind_congr fun front => ?_
      have shorter : front.2.1.length < tokens.length + 1 := front.2.2
      rw [Grouping.push, lift_groupFrom_eq_readRow, bind_assoc]
      simp only [pure_bind, List.reverse_cons, List.append_assoc, List.singleton_append]
termination_by tokens.length

/-- **The reader and the stack agree.** `readRow` and `group` read the same forms, and stop at the
same fault. -/
theorem readRow_eq_lift_group (tokens : List Token) : readRow tokens = lift (group tokens) := by
  rw [group, Grouping.empty, lift_groupFrom_eq_readRow]
  simp only [List.reverse_nil, List.nil_append]
  exact (bind_pure _).symm

/-- `readRow` never stops because the tokens end where a form should start. -/
theorem readRow_ne_ended (tokens : List Token) (mark : Mark) :
    readRow tokens ≠ .error (.ended mark) := by
  rw [readRow_eq_lift_group]
  intro ended
  cases grouped : group tokens with
  | ok forms =>
    rw [grouped] at ended
    cases ended
  | error fault =>
    rw [grouped] at ended
    cases ended

end MazeRobot.Form
