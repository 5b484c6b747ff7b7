import MazeRobot.Proofs.Language
import MazeRobot.Proofs.TokenPlaces

/-! # Parentheses that do not match

Which parenthesis is at fault can be told from the depth of the tokens alone, without grouping them:
the first closing parenthesis that brings the depth below zero, or else the last opening one after
which the depth never comes back to what it was before. Where there is neither, all tokens are
grouped, and what can still fail is the meaning of a form at the top level.

* `Token.depth`: how many more parentheses are opened than closed.
* `Token.Unopened`, `Token.Unclosed`: the parentheses without a partner.
* `Form.Grouping.Holds.depth_eq`: the depth is the number of open lists.
* `FirstFault`: the first of some forms that has no meaning.
* `Program.parse_blames`: what is at fault. -/

namespace MazeRobot

/-! ## Depth -/

namespace Token

/-- How many more parentheses are opened than closed. -/
def depth (tokens : List Token) : Int :=
  (tokens.countP (·.cls = .opening) : Int) - tokens.countP (·.cls = .closing)

/-- A closing parenthesis that brings the depth below zero. -/
def Unopened (tokens : List Token) (i : Nat) : Prop :=
  (∃ token, tokens[i]? = some token ∧ token.cls = .closing) ∧ depth (tokens.take (i + 1)) < 0

/-- An opening parenthesis after which the depth never comes back to what it was before. -/
def Unclosed (tokens : List Token) (i : Nat) : Prop :=
  (∃ token, tokens[i]? = some token ∧ token.cls = .opening) ∧
    ∀ j, i < j → j ≤ tokens.length → depth (tokens.take i) < depth (tokens.take j)

instance (tokens : List Token) (i : Nat) : Decidable (Unopened tokens i) :=
  decidable_of_iff
    (tokens[i]?.any (fun token => token.cls = .closing) = true ∧ depth (tokens.take (i + 1)) < 0) (by
      cases found : tokens[i]? <;> simp [Unopened, found])

/-- An `Unopened` parenthesis is one of the tokens. -/
theorem Unopened.lt_length {tokens : List Token} {i : Nat} (unopened : Unopened tokens i) :
    i < tokens.length := by
  obtain ⟨⟨token, found, -⟩, -⟩ := unopened
  exact (List.getElem?_eq_some_iff.mp found).1

/-- `depth` of no tokens. -/
@[simp] theorem depth_nil : depth [] = 0 := rfl

/-- `depth` of tokens in a row adds up. -/
@[simp] theorem depth_append (first second : List Token) :
    depth (first ++ second) = depth first + depth second := by
  simp only [depth, List.countP_append]
  omega

/-- `depth` of one more token in front. -/
theorem depth_cons (token : Token) (tokens : List Token) :
    depth (token :: tokens) = depth [token] + depth tokens :=
  depth_append [token] tokens

/-- `depth` of an opening parenthesis. -/
theorem depth_opening {token : Token} (cls : token.cls = .opening) : depth [token] = 1 := by
  simp [depth, cls]

/-- `depth` of a closing parenthesis. -/
theorem depth_closing {token : Token} (cls : token.cls = .closing) : depth [token] = -1 := by
  simp [depth, cls]

/-- `depth` of a token that is no parenthesis. -/
theorem depth_other {token : Token} (opening : token.cls ≠ .opening)
    (closing : token.cls ≠ .closing) : depth [token] = 0 := by
  simp [depth, opening, closing]

/-- The depth of tokens never comes below zero. -/
def Nonnegative (tokens : List Token) : Prop := ∀ k, 0 ≤ depth (tokens.take k)

/-- Where the depth is `Nonnegative`, no closing parenthesis is `Unopened`. -/
theorem Nonnegative.not_unopened {tokens : List Token} (nonnegative : Nonnegative tokens) (i : Nat) :
    ¬ Unopened tokens i :=
  fun unopened => absurd (nonnegative (i + 1)) (Int.not_le.mpr unopened.2)

/-- `Nonnegative` tokens in a row are so together. -/
theorem Nonnegative.append {first second : List Token} (left : Nonnegative first)
    (right : Nonnegative second) : Nonnegative (first ++ second) := by
  intro k
  rw [List.take_append, depth_append]
  exact Int.add_nonneg (left k) (right _)

/-- One token that closes nothing is `Nonnegative`. -/
theorem nonnegative_singleton {token : Token} (other : token.cls ≠ .closing) :
    Nonnegative [token] := by
  intro k
  cases k with
  | zero => exact Int.le_refl 0
  | succ k =>
    rw [List.take_succ_cons, List.take_nil]
    by_cases opening : token.cls = .opening
    · rw [depth_opening opening]
      decide
    · rw [depth_other opening other]

/-- Tokens that open as many parentheses as they close, and never close more. -/
structure Balanced (tokens : List Token) : Prop where
  total : depth tokens = 0
  nonnegative : Nonnegative tokens

namespace Balanced

/-- No tokens are `Balanced`. -/
theorem nil : Balanced [] := ⟨rfl, fun k => by simp⟩

/-- `Balanced` tokens in a row are so together. -/
theorem append {first second : List Token} (left : Balanced first) (right : Balanced second) :
    Balanced (first ++ second) := by
  refine ⟨?_, left.nonnegative.append right.nonnegative⟩
  rw [depth_append, left.total, right.total]
  rfl

/-- A token that is no parenthesis is `Balanced`. -/
theorem singleton {token : Token} (opening : token.cls ≠ .opening) (closing : token.cls ≠ .closing) :
    Balanced [token] :=
  ⟨depth_other opening closing, nonnegative_singleton closing⟩

/-- Parentheses around `Balanced` tokens are balanced with these. -/
theorem enclose {opening closing : Token} {inner : List Token} (left : opening.cls = .opening)
    (balanced : Balanced inner) (right : closing.cls = .closing) :
    Balanced (opening :: (inner ++ [closing])) := by
  constructor
  · rw [depth_cons, depth_append, depth_opening left, depth_closing right, balanced.total]
    rfl
  · intro k
    cases k with
    | zero => exact Int.le_refl 0
    | succ k =>
      -- The opening parenthesis makes up for the closing one, wherever the tokens are cut.
      have inside := balanced.nonnegative k
      have last : -1 ≤ depth ([closing].take (k - inner.length)) := by
        cases k - inner.length with
        | zero => simp
        | succ m => simp [depth_closing right]
      rw [List.take_succ_cons, depth_cons, List.take_append, depth_append, depth_opening left]
      omega

end Balanced

end Token

namespace Form

open Token (Balanced Nonnegative Unopened Unclosed depth)

mutual

/-- Tokens with which `Spells` holds of a form are `Balanced`. -/
theorem Spells.balanced (form : Form) {tokens : List Token} (spelled : form.Spells tokens) :
    Balanced tokens := by
  match form with
  | symbol name mark =>
    cases spelled
    exact .singleton (by simp) (by simp)
  | number text mark =>
    obtain ⟨rfl, -⟩ := spelled
    exact .singleton (by simp) (by simp)
  | list items mark =>
    obtain ⟨opening, inner, closing, rfl, left, -, right, spelled⟩ := spelled
    exact .enclose left (SpellsAll.balanced items spelled) right

/-- Tokens with which `SpellsAll` holds of forms are `Balanced`. -/
theorem SpellsAll.balanced (forms : List Form) {tokens : List Token}
    (spelled : SpellsAll forms tokens) : Balanced tokens := by
  match forms with
  | [] =>
    cases spelled
    exact .nil
  | form :: forms =>
    obtain ⟨first, rest, rfl, one, spelled⟩ := spelled
    exact (Spells.balanced form one).append (SpellsAll.balanced forms spelled)

end

/-! ## Open lists -/

namespace Grouping.Holds

variable {pending outer : List OpenList} {inner : OpenList} {finished : List Form}
  {tokens : List Token}

/-- The `depth` of the tokens that a state `Holds` is the number of open lists, and it was never
below zero. -/
theorem depth_eq (holds : Holds pending finished tokens) :
    depth tokens = pending.length ∧ Nonnegative tokens := by
  induction pending generalizing tokens with
  | nil =>
    have balanced := SpellsAll.balanced _ holds
    exact ⟨balanced.total, balanced.nonnegative⟩
  | cons inner outer ih =>
    obtain ⟨before, opening, items, rfl, outside, cls, -, inside⟩ := holds
    obtain ⟨depth, nonnegative⟩ := ih outside
    have balanced := SpellsAll.balanced _ inside
    constructor
    · rw [Token.depth_append, Token.depth_cons, Token.depth_opening cls, balanced.total, depth,
        List.length_cons]
      omega
    · have first : Nonnegative [opening] := Token.nonnegative_singleton (by simp [cls])
      exact nonnegative.append (first.append balanced.nonnegative)

/-- The innermost open list was opened by the last parenthesis that is `Unclosed`. -/
theorem exists_last_unclosed (holds : Holds (inner :: outer) finished tokens) {stop : Token}
    (ended : stop.cls = .endOfInput) :
    ∃ i token, (tokens ++ [stop])[i]? = some token ∧ token.mark = inner.mark ∧
      Unclosed (tokens ++ [stop]) i ∧ ∀ k, i < k → ¬ Unclosed (tokens ++ [stop]) k := by
  obtain ⟨before, opening, items, rfl, -, cls, mark, inside⟩ := holds
  have balanced := SpellsAll.balanced _ inside
  have last : Nonnegative [stop] := Token.nonnegative_singleton (by simp [ended])
  rw [List.append_assoc, List.cons_append]
  -- After the parenthesis the depth stays above what it was before, and at the end by one only.
  have front : depth ((before ++ opening :: (items ++ [stop])).take before.length) =
      depth before := by rw [List.take_left]
  have above : ∀ j, before.length < j →
      depth before + 1 ≤ depth ((before ++ opening :: (items ++ [stop])).take j) := by
    intro j later
    obtain ⟨m, rfl⟩ := Nat.exists_eq_add_of_lt later
    have rest := (balanced.nonnegative.append last) m
    rw [Nat.add_assoc, List.take_length_add_append, List.take_succ_cons, Token.depth_append,
      Token.depth_cons, Token.depth_opening cls]
    omega
  have whole : depth (before ++ opening :: (items ++ [stop])) = depth before + 1 := by
    rw [Token.depth_append, Token.depth_cons, Token.depth_append, Token.depth_opening cls,
      balanced.total, Token.depth_other (by simp [ended]) (by simp [ended])]
    omega
  have found : (before ++ opening :: (items ++ [stop]))[before.length]? = some opening := by
    simp
  refine ⟨before.length, opening, found, mark, ⟨⟨opening, found, cls⟩, ?_⟩, ?_⟩
  · intro j later _
    rw [front]
    exact Int.lt_of_add_one_le (above j later)
  · rintro k later ⟨⟨token, there, -⟩, stays⟩
    have inBounds := (List.getElem?_eq_some_iff.mp there).1
    have least := stays _ inBounds (Nat.le_refl _)
    rw [List.take_length, whole] at least
    exact absurd (above k later) (Int.not_le.mpr least)

end Grouping.Holds

/-- A closing parenthesis after tokens that spell forms is the first one that is `Unopened`. -/
theorem SpellsAll.first_unopened {forms : List Form} {before : List Token} {closing : Token}
    (spelled : SpellsAll forms before) (cls : closing.cls = .closing) (after : List Token) :
    Unopened (before ++ closing :: after) before.length ∧
      ∀ j < before.length, ¬ Unopened (before ++ closing :: after) j := by
  have balanced := SpellsAll.balanced _ spelled
  refine ⟨⟨⟨closing, by simp, cls⟩, ?_⟩, fun j earlier unopened => ?_⟩
  · rw [List.take_length_add_append, List.take_succ_cons, List.take_zero, Token.depth_append,
      balanced.total, Token.depth_closing cls]
    decide
  · have inside := balanced.nonnegative (j + 1)
    have same : (before ++ closing :: after).take (j + 1) = before.take (j + 1) :=
      List.take_append_of_le_length earlier
    rw [← same] at inside
    exact absurd inside (Int.not_le.mpr unopened.2)

end Form

/-! ## Forms without a meaning -/

/-- The form is the first of the forms that means no statement, for the given reason. -/
def FirstFault (forms : List Form) (form : Form) (fault : Fault) : Prop :=
  ∃ before after, forms = before ++ form :: after ∧
    (∀ earlier ∈ before, ∃ stmt, Stmt.ofTopLevel earlier = .ok stmt) ∧
    Stmt.ofTopLevel form = .error fault

/-- `Stmt.ofTopLevel` of forms in a row fails exactly with their `FirstFault`. -/
theorem mapM_ofTopLevel_eq_error_iff {forms : List Form} {fault : Fault} :
    forms.mapM Stmt.ofTopLevel = .error fault ↔ ∃ form, FirstFault forms form fault := by
  induction forms with
  | nil =>
    constructor
    · intro failed
      cases failed
    · rintro ⟨form, before, after, parts, -⟩
      simp at parts
  | cons first rest ih =>
    rw [List.mapM_cons]
    cases meaning : Stmt.ofTopLevel first with
    | error other =>
      constructor
      · intro failed
        cases failed
        exact ⟨first, [], rest, rfl, List.forall_mem_nil _, meaning⟩
      · rintro ⟨form, before, after, parts, fine, failed⟩
        -- The first form has a fault, so no form stands before the one at fault.
        cases before with
        | nil =>
          cases parts
          exact meaning.symm.trans failed ▸ rfl
        | cons earlier before =>
          obtain ⟨rfl, -⟩ := List.cons.inj parts
          obtain ⟨stmt, found⟩ := fine first List.mem_cons_self
          cases meaning.symm.trans found
    | ok stmt =>
      have others : (do let stmts ← rest.mapM Stmt.ofTopLevel; return stmt :: stmts) =
          Except.error fault ↔ rest.mapM Stmt.ofTopLevel = .error fault := by
        cases rest.mapM Stmt.ofTopLevel with
        | error other => exact Iff.rfl
        | ok stmts => exact iff_of_false (by rintro ⟨⟩) (by rintro ⟨⟩)
      refine others.trans (ih.trans (exists_congr fun form => ?_))
      constructor
      · rintro ⟨before, after, rfl, fine, failed⟩
        exact ⟨first :: before, after, rfl, List.forall_mem_cons.mpr ⟨⟨stmt, meaning⟩, fine⟩, failed⟩
      · rintro ⟨before, after, parts, fine, failed⟩
        cases before with
        | nil =>
          cases parts
          cases meaning.symm.trans failed
        | cons earlier before =>
          obtain ⟨rfl, rfl⟩ := List.cons.inj parts
          exact ⟨before, after, rfl, (List.forall_mem_cons.mp fine).2, failed⟩

namespace Form

/-- Where `SpellsAll` holds, `Spells` holds of each of the forms with a part of the tokens. -/
theorem SpellsAll.exists_part {before after : List Form} {form : Form} {tokens : List Token}
    (spelled : SpellsAll (before ++ form :: after) tokens) :
    ∃ part, form.Spells part ∧ part <:+: tokens := by
  induction before generalizing tokens with
  | nil =>
    obtain ⟨first, rest, rfl, one, -⟩ := spelled
    exact ⟨first, one, (List.prefix_append first rest).isInfix⟩
  | cons earlier before ih =>
    obtain ⟨first, rest, rfl, -, spelled⟩ := spelled
    obtain ⟨part, one, inside⟩ := ih spelled
    exact ⟨part, one, inside.trans (List.suffix_append first rest).isInfix⟩

/-- Where `Spells` holds, the form stays where it is if the tokens do. -/
theorem Spells.moved_eq {form : Form} {tokens : List Token} (spelled : form.Spells tokens)
    {move : Relocation} (stay : tokens.map (Token.moved move) = tokens) : form.moved move = form := by
  -- Grouping the tokens gives the form, and grouping them once they are moved gives it moved.
  have grouped : group (tokens ++ [⟨.endOfInput, "", Mark.start⟩]) = .ok [form] :=
    group_of_spellsAll spelled.singleton rfl
  have moved := (follows_group move _).eq_ok grouped
  rw [List.map_append, stay, List.map_singleton, group_of_spellsAll spelled.singleton rfl] at moved
  exact (List.cons.inj (Except.ok.inj moved)).1.symm

/-- The fault of a form at the top level `PointsAt` one of the tokens that spell the form. -/
theorem Spells.exists_pointsAt {form : Form} {tokens : List Token} {fault : Fault}
    (spelled : form.Spells tokens) (failed : Stmt.ofTopLevel form = .error fault) :
    ∃ token ∈ tokens, fault.PointsAt token.mark := by
  refine MazeRobot.exists_pointsAt (fun move stay => ⟨Stmt.moved move, ?_⟩) failed
  have follows := Stmt.follows_ofTopLevel move form
  rwa [spelled.moved_eq stay] at follows

end Form

/-! ## What is at fault -/

/-- The `kind` of no cause is that the source ends where an expression should start. -/
theorem Cause.kind_ne_unexpectedEnd (cause : Cause) : cause.kind ≠ .unexpectedEnd := by
  cases cause <;> simp [kind]

/-- The fault is of the kind and at the place. -/
def Fault.IsAt (fault : Fault) (kind : Kind) (mark : Mark) : Prop :=
  fault.kind = kind ∧ fault.line = mark.line ∧ fault.column = mark.column

namespace Program

variable {source : List UInt8} {fault : Fault}

/-- A fault of `parse` is known without running anything. -/
theorem static_of_parse (failed : parse source = .error fault) : fault.kind.isRuntime = false := by
  rw [parse_eq] at failed
  cases scanned : Token.scan source with
  | error stray =>
    rw [scanned] at failed
    obtain ⟨i, -, -, found⟩ := Token.exists_stray_of_scan scanned
    cases failed
    rw [found]
    rfl
  | ok tokens =>
    rw [scanned] at failed
    exact ((follows_ofTokens .nowhere tokens).eq_error failed).2

/-- `parse` fails with the fault of `Form.read`. -/
theorem parse_of_read_error (failed : Form.read source = .error fault) :
    parse source = .error fault := by
  rw [parse, failed]
  rfl

/-- Where `Form.read` succeeds, `parse` fails exactly with the `FirstFault` of the forms. -/
theorem parse_eq_error_iff {forms : List Form} (read : Form.read source = .ok forms) :
    parse source = .error fault ↔ ∃ form, FirstFault forms form fault := by
  rw [← mapM_ofTopLevel_eq_error_iff, parse, read]
  show ofForms forms = _ ↔ _
  rw [ofForms]
  cases forms.mapM Stmt.ofTopLevel with
  | error other => constructor <;> (intro same; cases same; rfl)
  | ok stmts => exact iff_of_false (by rintro ⟨⟩) (by rintro ⟨⟩)

/-- **The right parenthesis is blamed, or the right form.** Where a closing parenthesis is
`Unopened` and so brings the `depth` below zero, the first one that does is at fault. Otherwise,
where the depth is positive in the end, the last opening parenthesis that is `Unclosed` is at fault.
Otherwise the tokens up to the end mark spell forms, and a fault is that of the first form that
means no statement; it points at one of the tokens of that form. No fault is that the source ends,
or arises only when a program runs. -/
theorem parse_blames (source : List UInt8) :
    (∀ tokens, Token.scan source = .ok tokens →
      ((∃ i, Token.Unopened tokens i) →
        ∃ i token fault, Token.Unopened tokens i ∧ (∀ j < i, ¬ Token.Unopened tokens j) ∧
          tokens[i]? = some token ∧ parse source = .error fault ∧
          fault.IsAt .unexpectedToken token.mark) ∧
      ((∀ i, ¬ Token.Unopened tokens i) → 0 < Token.depth tokens →
        ∃ i token fault, Token.Unclosed tokens i ∧ (∀ k, i < k → ¬ Token.Unclosed tokens k) ∧
          tokens[i]? = some token ∧ parse source = .error fault ∧
          fault.IsAt .unclosedList token.mark) ∧
      ((∀ i, ¬ Token.Unopened tokens i) → Token.depth tokens ≤ 0 →
        ∃ forms before stop, tokens = before ++ [stop] ∧ stop.cls = .endOfInput ∧
          Form.SpellsAll forms before ∧ Form.read source = .ok forms ∧
          ∀ fault, parse source = .error fault ↔
            ∃ form part, FirstFault forms form fault ∧ form.Spells part ∧ part <:+: before ∧
              ∃ token ∈ part, fault.PointsAt token.mark)) ∧
    ∀ fault, parse source = .error fault →
      fault.kind ≠ .unexpectedEnd ∧ fault.kind.isRuntime = false := by
  refine ⟨fun tokens scanned => ?_, fun fault failed =>
    ⟨fault.cause.kind_ne_unexpectedEnd, static_of_parse failed⟩⟩
  obtain ⟨before, stop, rfl, ended, groups⟩ := Form.exists_groupsTo_of_scan scanned
  have read : Form.read source = Form.group (before ++ [stop]) := by rw [Form.read, scanned]
  generalize Form.group (before ++ [stop]) = result at read groups
  cases groups with
  | @stray taken after closing forms parts cls spelled =>
    -- The stray parenthesis is the first one without a partner, so only the first case can arise.
    rw [parts, List.append_assoc, List.cons_append]
    obtain ⟨unopened, first⟩ := spelled.first_unopened cls (after ++ [stop])
    refine ⟨fun _ => ?_, fun none => absurd unopened (none _), fun none => absurd unopened (none _)⟩
    exact ⟨taken.length, closing, _, unopened, first, by simp, parse_of_read_error read, rfl, rfl,
      rfl⟩
  | @taken last holds =>
    obtain ⟨openLists, nonnegative⟩ := holds.depth_eq
    have lastToken : Token.Nonnegative [stop] := Token.nonnegative_singleton (by simp [ended])
    have none := (nonnegative.append lastToken).not_unopened
    have depth : Token.depth (before ++ [stop]) = last.pending.length := by
      rw [Token.depth_append, openLists, Token.depth_other (by simp [ended]) (by simp [ended]),
        Int.add_zero]
    rw [depth]
    obtain ⟨pending, finished⟩ := last
    cases pending with
    | cons inner outer =>
      refine ⟨fun some => absurd some (not_exists.mpr none), fun _ _ => ?_, fun _ closed => ?_⟩
      · obtain ⟨i, token, found, mark, unclosed, later⟩ := holds.exists_last_unclosed ended
        refine ⟨i, token, _, unclosed, later, found, parse_of_read_error read, rfl, ?_⟩
        rw [mark]
        exact ⟨rfl, rfl⟩
      · exact absurd closed (by simp)
    | nil =>
      refine ⟨fun some => absurd some (not_exists.mpr none), fun _ positive => ?_, fun _ _ => ?_⟩
      · exact absurd positive (by simp)
      · refine ⟨_, before, stop, rfl, ended, holds, read, fun fault => ?_⟩
        rw [parse_eq_error_iff read]
        constructor
        · rintro ⟨form, atFault⟩
          obtain ⟨earlier, later, parts, -, failed⟩ := id atFault
          have whole : Form.SpellsAll finished.reverse before := holds
          rw [parts] at whole
          obtain ⟨part, spelled, inside⟩ := whole.exists_part
          exact ⟨form, part, atFault, spelled, inside, spelled.exists_pointsAt failed⟩
        · rintro ⟨form, part, atFault, -⟩
          exact ⟨form, atFault⟩

/-- A source that closes more than it opens, and later opens more. -/
def overclosedSource : List UInt8 := Text.utf8 "(a)\n))(("

/-- The tokens of that source. -/
def overclosedTokens : List Token :=
  [⟨.opening, "(", ⟨1, 1⟩⟩, ⟨.symbol, "a", ⟨1, 2⟩⟩, ⟨.closing, ")", ⟨1, 3⟩⟩,
    ⟨.closing, ")", ⟨2, 1⟩⟩, ⟨.closing, ")", ⟨2, 2⟩⟩, ⟨.opening, "(", ⟨2, 3⟩⟩,
    ⟨.opening, "(", ⟨2, 4⟩⟩, ⟨.endOfInput, "", ⟨2, 5⟩⟩]

/-- A source with two lists that are never closed, and a closed one after them. -/
def unclosedSource : List UInt8 := Text.utf8 "(a\n(b (c)"

/-- The tokens of that source. -/
def unclosedTokens : List Token :=
  [⟨.opening, "(", ⟨1, 1⟩⟩, ⟨.symbol, "a", ⟨1, 2⟩⟩, ⟨.opening, "(", ⟨2, 1⟩⟩,
    ⟨.symbol, "b", ⟨2, 2⟩⟩, ⟨.opening, "(", ⟨2, 4⟩⟩, ⟨.symbol, "c", ⟨2, 5⟩⟩,
    ⟨.closing, ")", ⟨2, 6⟩⟩, ⟨.endOfInput, "", ⟨2, 7⟩⟩]

/-- A source whose second form and third form have no meaning. -/
def twoFaultsSource : List UInt8 := Text.utf8 "(a)\n(turn 1) 2"

/-- The tokens of that source. -/
def twoFaultsTokens : List Token :=
  [⟨.opening, "(", ⟨1, 1⟩⟩, ⟨.symbol, "a", ⟨1, 2⟩⟩, ⟨.closing, ")", ⟨1, 3⟩⟩,
    ⟨.opening, "(", ⟨2, 1⟩⟩, ⟨.symbol, "turn", ⟨2, 2⟩⟩, ⟨.number, "1", ⟨2, 7⟩⟩,
    ⟨.closing, ")", ⟨2, 8⟩⟩, ⟨.number, "2", ⟨2, 10⟩⟩, ⟨.endOfInput, "", ⟨2, 11⟩⟩]

/-- The three sources have a fault each: at the first parenthesis without a partner, at the
innermost list that is open in the end, and at the second form. -/
theorem parse_blames_eachWay :
    (Token.scan overclosedSource = .ok overclosedTokens ∧ Token.Unopened overclosedTokens 3 ∧
      ∃ fault, parse overclosedSource = .error fault ∧ fault.IsAt .unexpectedToken ⟨2, 1⟩) ∧
    (Token.scan unclosedSource = .ok unclosedTokens ∧ (∀ i, ¬ Token.Unopened unclosedTokens i) ∧
      0 < Token.depth unclosedTokens ∧
      ∃ i token fault, Token.Unclosed unclosedTokens i ∧ unclosedTokens[i]? = some token ∧
        parse unclosedSource = .error fault ∧ fault.IsAt .unclosedList token.mark) ∧
    (Token.scan twoFaultsSource = .ok twoFaultsTokens ∧ (∀ i, ¬ Token.Unopened twoFaultsTokens i) ∧
      Token.depth twoFaultsTokens ≤ 0 ∧
      ∃ forms, Form.read twoFaultsSource = .ok forms ∧
        ∀ fault, parse twoFaultsSource = .error fault →
          (∃ form, FirstFault forms form fault) ∧ fault.kind.isRuntime = false) := by
  have overclosed : Token.scan overclosedSource = .ok overclosedTokens :=
    eq_ok_of_toOption (by decide +kernel)
  have unclosed : Token.scan unclosedSource = .ok unclosedTokens :=
    eq_ok_of_toOption (by decide +kernel)
  have twoFaults : Token.scan twoFaultsSource = .ok twoFaultsTokens :=
    eq_ok_of_toOption (by decide +kernel)
  have none : ∀ i, ¬ Token.Unopened unclosedTokens i := fun i unopened =>
    (by decide +kernel : ∀ i < unclosedTokens.length, ¬ Token.Unopened unclosedTokens i) i
      unopened.lt_length unopened
  have none' : ∀ i, ¬ Token.Unopened twoFaultsTokens i := fun i unopened =>
    (by decide +kernel : ∀ i < twoFaultsTokens.length, ¬ Token.Unopened twoFaultsTokens i) i
      unopened.lt_length unopened
  refine ⟨⟨overclosed, by decide +kernel, ?_⟩, ⟨unclosed, none, by decide +kernel, ?_⟩,
    ⟨twoFaults, none', by decide +kernel, ?_⟩⟩
  · obtain ⟨i, token, fault, unopened, first, found, failed, place⟩ :=
      ((parse_blames overclosedSource).1 _ overclosed).1 ⟨3, by decide +kernel⟩
    have third : i = 3 := (by decide +kernel : ∀ i < overclosedTokens.length,
      Token.Unopened overclosedTokens i → (∀ j < i, ¬ Token.Unopened overclosedTokens j) → i = 3) i
        unopened.lt_length unopened first
    subst third
    cases found
    exact ⟨fault, failed, place⟩
  · obtain ⟨i, token, fault, stillOpen, -, found, failed, place⟩ :=
      ((parse_blames unclosedSource).1 _ unclosed).2.1 none (by decide +kernel)
    exact ⟨i, token, fault, stillOpen, found, failed, place⟩
  · obtain ⟨forms, before, stop, -, -, -, read, blames⟩ :=
      ((parse_blames twoFaultsSource).1 _ twoFaults).2.2 none' (by decide +kernel)
    refine ⟨forms, read, fun fault failed => ⟨?_, ((parse_blames twoFaultsSource).2 _ failed).2⟩⟩
    obtain ⟨form, -, first, -⟩ := (blames fault).mp failed
    exact ⟨form, first⟩

end Program

end MazeRobot
