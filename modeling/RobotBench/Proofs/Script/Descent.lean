import RobotBench.Proofs.Script.Scope

/-!
# Reading by recursive descent

The same reading of scripts as `Script.ofText`, with a function for a block that calls itself for
the blocks inside. All calls share a cursor, which is where the next line is looked up, and every
look-up may be out of range. `Progress` also keeps count of what happens: which lines were visited,
how many blocks are being read, how many have been at a time, and where the cursor was when a block
ended. The laws of reading are about one part of it at a time: `Descent.Meets` says that the part
has moved on as it should, and with which result.
-/

namespace RobotBench

namespace Descent

/-- A line of a text that says something: its number and its words. -/
structure SourceLine where
  number : Nat
  tokens : List String

/-- The lines of which words are left, numbered from `number` on; the number of the first line with
an open quote if there is one. -/
def sourceLines : Nat → List (List Char) → Except Nat (List SourceLine)
  | _, [] => .ok []
  | number, cs :: more =>
    match lineWords? cs with
    | none => .error number
    | some words => (sourceLines (number + 1) more).map fun lines =>
      if words.isEmpty then lines else ⟨number, words⟩ :: lines

/-- What ends a block: a line with `end`, one with `else`, or the end of the lines. -/
inductive Terminator where
  | finish
  | otherwise
  | eof
  deriving DecidableEq

/-- Why reading stops early. -/
inductive Stop where
  | fault (fault : ParseFault)
  /-- Something was looked up where there is nothing. -/
  | outOfRange
  /-- The recursion has gone deeper than it was allowed to. -/
  | unfinished
  deriving DecidableEq

/-- How far reading has come. -/
structure Progress where
  /-- The index of the line that is next. -/
  cursor : Nat
  /-- The indices of the lines that blocks have looked at, in the order in which they have. -/
  visits : List Nat
  /-- How many blocks are being read, each but the first inside the one before it. -/
  active : Nat
  /-- How many blocks have been read at a time at most. -/
  deepest : Nat
  /-- What ended each block that was read, and the cursor at its end. -/
  ends : List (Terminator × Nat)
  deriving DecidableEq

/-- Nothing is read yet. -/
def Progress.start : Progress := ⟨0, [], 0, 0, []⟩

/-- A part of reading with results in `α`. -/
abbrev Reader (α : Type) : Type := ExceptT Stop (StateM Progress) α

/-- A block: its nodes, and what ended it. -/
abbrev Block : Type := List Node × Terminator

/-- Fails for a line. -/
def fail {α : Type} (line : Nat) (cause : ParseCause) : Reader α := throw (.fault ⟨line, cause⟩)

/-- The next line has been visited. -/
def Progress.visited (p : Progress) : Progress :=
  { p with cursor := p.cursor + 1, visits := p.visits ++ [p.cursor] }

/-- Goes on to the next line. -/
def visit : Reader Unit := modify Progress.visited

/-- Reads a block inside those that are being read. -/
def activate (x : Reader Block) : Reader Block := fun p =>
  match x { p with active := p.active + 1, deepest := max p.deepest (p.active + 1) } with
  | (.ok block, p) =>
    (.ok block, { p with active := p.active - 1, ends := p.ends ++ [(block.2, p.cursor)] })
  | (.error stop, p) => (.error stop, { p with active := p.active - 1 })

section

variable (lines : List SourceLine)

/-- The line before the cursor. -/
def lineBefore : Reader SourceLine := do
  match (← get).cursor with
  | 0 => throw .outOfRange
  | cursor + 1 => match lines[cursor]? with
    | some line => return line
    | none => throw .outOfRange

/-- Reads a block that must be closed with `end`. -/
def readClosed (block : Reader Block) (openedAt : Nat) (keyword : String) :
    Reader (List Node) := do
  match ← block with
  | (body, .finish) => return body
  | (_, .otherwise) => do
    let line ← lineBefore lines
    fail line.number (.strayElse keyword openedAt)
  | (_, .eof) => fail openedAt (.missingEnd keyword)

/-- Reads what follows the opening line of a block. The block of an `if` may be followed by a
second one. -/
def readOpened (block : Reader Block) (number : Nat) : Opener → Reader Statement
  | .branch condition => do
    match ← block with
    | (yes, .finish) => return .branch condition yes []
    | (yes, .otherwise) => return .branch condition yes (← readClosed lines block number "if")
    | (_, .eof) => fail number (.missingEnd "if")
  | opener => return opener.close (← readClosed lines block number opener.keyword)

/-- Reads a line and the blocks that it opens, in a scope: the line ends a block, or there is a
statement. -/
def readLine (block : Scope → Reader Block) (scope : Scope) (line : SourceLine) :
    Reader (Terminator ⊕ Statement) :=
  match line.tokens with
  | [] => throw .outOfRange
  | head :: rest => match (⟨line.number, head, rest⟩ : TokenLine).role with
    | .error cause => fail line.number cause
    | .ok .finish => return .inl .finish
    | .ok .otherwise => return .inl .otherwise
    | .ok (.simple statement) => return .inr statement
    | .ok (.opening opener) =>
      if maxBlockDepth ≤ scope.depth then fail line.number (.tooDeep opener.keyword maxBlockDepth)
      else return .inr (← readOpened lines (block (scope.inside opener)) line.number opener)
    | .ok .leave =>
      if scope.inLoop then return .inr .leave else fail line.number .leaveOutsideLoop
    | .ok (.answer words) =>
      if scope.inProcedure then match readAnswer words with
        | .ok statement => return .inr statement
        | .error cause => fail line.number cause
      else fail line.number .answerOutsideProcedure

/-- Reads lines in a scope after nodes of the same block, up to the end of the block. The recursion,
into blocks and on to the next line, goes no deeper than `fuel`. -/
def readNodes : Nat → Scope → List Node → Reader Block
  | 0, _, _ => throw .unfinished
  | fuel + 1, scope, nodes => do
    match lines[(← get).cursor]? with
    | none => return (nodes, .eof)
    | some line =>
      visit
      match ← readLine lines (fun inner => activate (readNodes fuel inner [])) scope line with
      | .inl terminator => return (nodes, terminator)
      | .inr statement => readNodes fuel scope (nodes ++ [.mk line.number statement])

/-- Reads a block. -/
def readBlock (fuel : Nat) (scope : Scope) : Reader Block :=
  activate (readNodes lines fuel scope [])

/-- Fails for the line before the cursor, which ends a block where none is open. -/
def strayEnd : Reader Script := do
  let line ← lineBefore lines
  match line.tokens with
  | [] => throw .outOfRange
  | head :: _ => fail line.number (.noOpenBlock head)

/-- Reads a script, on the top level of which no block is open. -/
def readScript : Reader Script := do
  match ← readBlock lines (lines.length + 1) .top with
  | (body, .eof) => return body
  | (_, .finish) => strayEnd lines
  | (_, .otherwise) => strayEnd lines

end

/-- Reads the script that a text is, its lines numbered from `firstLine` on. -/
def ofText (text : String) (firstLine : Nat) : Except Stop Script × Progress :=
  match sourceLines firstLine (Text.lines text.toList) with
  | .error line => (.error (.fault ⟨line, .unclosedQuote⟩), .start)
  | .ok lines => readScript lines .start

/-! ## Laws of reading -/

section

variable {α β : Type}

theorem bind_apply (x : Reader α) (f : α → Reader β) (p : Progress) :
    (x >>= f) p = match x p with
      | (.ok a, p) => f a p
      | (.error stop, p) => (.error stop, p) := by
  show ExceptT.bindCont f (x p).1 (x p).2 = _
  rcases x p with ⟨r, p'⟩
  cases r <;> rfl

theorem bind_ok {x : Reader α} {f : α → Reader β} {p p' : Progress} {a : α}
    (h : x p = (.ok a, p')) : (x >>= f) p = f a p' := by
  rw [bind_apply, h]

theorem get_apply (p : Progress) : (get : Reader Progress) p = (.ok p, p) := rfl

end

/-! ## What a part of reading does -/

/-- The cursor is behind a line on which only the keyword stands. -/
def Behind (lines : List SourceLine) (keyword : String) (cursor : Nat) : Prop :=
  0 < cursor ∧ ∃ line, lines[cursor - 1]? = some line ∧ line.tokens = [keyword]

/-- The block ended where the cursor says: behind the line of its terminator, or behind all
lines. -/
def EndsAt (lines : List SourceLine) : Terminator → Nat → Prop
  | .finish, cursor => Behind lines "end" cursor
  | .otherwise, cursor => Behind lines "else" cursor
  | .eof, cursor => cursor = lines.length

/-- Reading goes on from one state to another: the cursor does not go back or leave the lines, the
lines in between are visited one after the other, the blocks that were begun are ended, and no more
than the greatest number are read at a time. -/
structure Progress.Moves (lines : List SourceLine) (p p' : Progress) : Prop where
  forward : p.cursor ≤ p'.cursor
  inside : p'.cursor ≤ lines.length
  visits : p'.visits = p.visits ++ List.range' p.cursor (p'.cursor - p.cursor)
  active : p'.active = p.active
  deepest : p'.deepest ≤ max p.deepest (maxBlockDepth + 1)
  ends : ∀ entry ∈ p'.ends, entry ∈ p.ends ∨ EndsAt lines entry.1 entry.2

namespace Progress.Moves

variable {lines : List SourceLine} {p p₁ p₂ : Progress}

/-- Where nothing is read the cursor has moved, by no line. -/
theorem refl (h : p.cursor ≤ lines.length) : p.Moves lines p where
  forward := Nat.le_refl _
  inside := h
  visits := by simp
  active := rfl
  deepest := Nat.le_max_left _ _
  ends _ h := .inl h

/-- Two moves in a row are one. -/
theorem trans (h : p.Moves lines p₁) (h' : p₁.Moves lines p₂) : p.Moves lines p₂ where
  forward := Nat.le_trans h.forward h'.forward
  inside := h'.inside
  visits := by
    have hfirst := h.forward
    have hnext := h'.forward
    have hlength : p₂.cursor - p.cursor = (p₁.cursor - p.cursor) + (p₂.cursor - p₁.cursor) := by
      omega
    have hstart : p₁.cursor = p.cursor + 1 * (p₁.cursor - p.cursor) := by omega
    rw [h'.visits, h.visits, List.append_assoc, hlength, ← List.range'_append, ← hstart]
  active := h'.active.trans h.active
  deepest := by
    have hfirst := h.deepest
    have hnext := h'.deepest
    omega
  ends entry hentry := (h'.ends entry hentry).elim (h.ends entry) .inr

end Progress.Moves

/-- The cursor moves past the line that is visited. -/
theorem Progress.moves_visited {lines : List SourceLine} (p : Progress)
    (h : p.cursor < lines.length) : p.Moves lines p.visited where
  forward := Nat.le_succ p.cursor
  inside := h
  visits := by simp [visited]
  active := rfl
  deepest := Nat.le_max_left _ _
  ends _ h := .inl h

/-- Reading has moved on and ended with a result that is good, or with a fault that is right. -/
inductive Meets (lines : List SourceLine) {α : Type} (p : Progress) (good : α → Progress → Prop)
    (right : ParseFault → Prop) : Except Stop α × Progress → Prop
  | done {a : α} {p' : Progress} (hmoves : p.Moves lines p') (h : good a p') :
      Meets lines p good right (.ok a, p')
  | failed {f : ParseFault} {p' : Progress} (hmoves : p.Moves lines p') (h : right f) :
      Meets lines p good right (.error (.fault f), p')

namespace Meets

variable {lines : List SourceLine} {α β : Type} {p : Progress} {good : α → Progress → Prop}
  {right right' : ParseFault → Prop}

/-- Parts in a row meet what the second of them meets from every end of the first. -/
theorem bind {x : Reader α} {f : α → Reader β} {good' : β → Progress → Prop}
    (h : Meets lines p good right (x p))
    (hf : ∀ a p', p.Moves lines p' → good a p' → Meets lines p' good' right' (f a p'))
    (hright : ∀ fault, right fault → right' fault) : Meets lines p good' right' ((x >>= f) p) := by
  rw [bind_apply]
  generalize x p = result at h
  cases h with
  | @done a p' hmoves h =>
      have hlater := hf a p' hmoves h
      simp only
      generalize f a p' = result at hlater
      cases hlater with
      | done hmoves' h' => exact .done (hmoves.trans hmoves') h'
      | failed hmoves' h' => exact .failed (hmoves.trans hmoves') h'
  | failed hmoves h => exact .failed hmoves (hright _ h)

/-- What a part meets includes that it moves forwards. -/
theorem moves {result : Except Stop α × Progress} (h : Meets lines p good right result) :
    p.Moves lines result.2 := by
  cases h with
  | done hmoves _ => exact hmoves
  | failed hmoves _ => exact hmoves

/-- What is met may be weakened, for a value and for a fault. -/
theorem imp {good' : α → Progress → Prop} {result : Except Stop α × Progress}
    (h : Meets lines p good right result) (hgood : ∀ a p', good a p' → good' a p')
    (hright : ∀ fault, right fault → right' fault) : Meets lines p good' right' result := by
  cases h with
  | done hmoves h => exact .done hmoves (hgood _ _ h)
  | failed hmoves h => exact .failed hmoves (hright _ h)

/-- A value is met where the cursor stands. -/
theorem pure (hp : p.cursor ≤ lines.length) {a : α} (h : good a p) :
    Meets lines p good right ((Pure.pure a : Reader α) p) :=
  .done (.refl hp) h

/-- A fault is met where the cursor stands. -/
theorem fail (hp : p.cursor ≤ lines.length) {line : Nat} {cause : ParseCause}
    (h : right ⟨line, cause⟩) : Meets lines p good right ((Descent.fail line cause : Reader α) p) :=
  .failed (.refl hp) h

end Meets

/-- A block that is read moves on as its nodes do. -/
theorem Meets.activate {lines : List SourceLine} {x : Reader Block} {p : Progress}
    {good : Block → Nat → Prop} {right : ParseFault → Prop} (hactive : p.active ≤ maxBlockDepth)
    (h : Meets lines { p with active := p.active + 1, deepest := max p.deepest (p.active + 1) }
      (fun block p' => EndsAt lines block.2 p'.cursor ∧ good block p'.cursor) right
      (x { p with active := p.active + 1, deepest := max p.deepest (p.active + 1) })) :
    Meets lines p (fun block p' => EndsAt lines block.2 p'.cursor ∧ good block p'.cursor) right
      (activate x p) := by
  unfold Descent.activate
  generalize x _ = result at h
  have hdeepest {most : Nat} (h : most ≤ max (max p.deepest (p.active + 1)) (maxBlockDepth + 1)) :
      most ≤ max p.deepest (maxBlockDepth + 1) := by
    omega
  cases h with
  | @done block p' hmoves h =>
      refine .done ⟨hmoves.forward, hmoves.inside, hmoves.visits, ?_, hdeepest hmoves.deepest, ?_⟩ h
      · exact congrArg (· - 1) hmoves.active
      · intro entry hentry
        rcases List.mem_append.1 hentry with hentry | hentry
        · exact hmoves.ends entry hentry
        · obtain rfl := List.mem_singleton.1 hentry
          exact .inr h.1
  | failed hmoves h =>
      exact .failed ⟨hmoves.forward, hmoves.inside, hmoves.visits,
        congrArg (· - 1) hmoves.active, hdeepest hmoves.deepest, hmoves.ends⟩ h

end Descent

end RobotBench
