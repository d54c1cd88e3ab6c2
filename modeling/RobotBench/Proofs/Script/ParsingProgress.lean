import RobotBench.Proofs.Script.Descent
import RobotBench.Proofs.Script.Reading
import RobotBench.Proofs.Script.TokenLines

/-!
# Progress of parsing

Reading by recursive descent gives the script or the fault that `Script.ofText` gives, whatever the
text is (`Descent.script_meets`), and it always makes progress (`parsing_makes_progress`). Each
function for a part of a script is compared with what the lines of the part do to an `OpenScript`,
from the inside out: a block that must be closed, what follows an opening line, a line, the lines of
a block.
-/

namespace RobotBench

/-! ## Agreement -/

/-- The line with its words in one list. -/
def TokenLine.source (line : TokenLine) : Descent.SourceLine := ⟨line.number, line.tokens⟩

namespace OpenScript

/-- What lines make after what has been read. -/
def readOn (q : OpenScript) (lines : List TokenLine) : Except ParseFault Script :=
  match q.steps lines with
  | .error fault => .error fault
  | .ok q => q.finish

variable {q q' : OpenScript} {line : TokenLine} {more : List TokenLine}

theorem read_on_error {cause : ParseCause} (h : line.role = .error cause) :
    q.readOn (line :: more) = .error ⟨line.number, cause⟩ := by
  simp only [readOn, steps, step, h]

theorem read_on_act {role : LineRole} (h : line.role = .ok role) :
    q.readOn (line :: more) = match q.act line.number role with
      | .error cause => .error ⟨line.number, cause⟩
      | .ok q' => q'.readOn more := by
  simp only [readOn, steps, step, h]
  cases q.act line.number role <;> rfl

theorem read_on_reads (h : q.Reads line q') : q.readOn (line :: more) = q'.readOn more := by
  rw [readOn, steps_cons h]
  rfl

theorem read_on_end (h : q.blocks = []) : q.readOn [] = .ok q.top.reverse := by
  simp only [readOn, steps, finish, h]

/-- At the end of the lines an open block is missing its `end`. -/
theorem read_on_open {block : OpenBlock} {outer : List OpenBlock} (h : q.blocks = block :: outer) :
    q.readOn [] = .error ⟨block.line, .missingEnd block.opener.keyword⟩ := by
  simp only [readOn, steps, finish, h]

/-- An `else` is a fault in a block that is not the first one of an `if`. -/
theorem read_on_stray {block : OpenBlock} {outer : List OpenBlock} (hwords : line.tokens = ["else"])
    (h : q.blocks = block :: outer) (hopener : ∀ condition, block.opener ≠ .branch condition) :
    q.readOn (line :: more) =
      .error ⟨line.number, .strayElse block.opener.keyword block.line⟩ := by
  have hrole : line.role = .ok .otherwise := TokenLine.role_iff.2 hwords
  rw [read_on_act hrole, act, h]
  obtain ⟨number, opener, body⟩ := block
  cases opener with
  | branch condition => exact absurd rfl (hopener condition)
  | _ => rfl

/-- Without an open block nothing can be closed or set off. -/
theorem read_on_unopened {keyword : String} (hwords : line.tokens = [keyword])
    (hkeyword : keyword = "end" ∨ keyword = "else") (h : q.blocks = []) :
    q.readOn (line :: more) = .error ⟨line.number, .noOpenBlock keyword⟩ := by
  rcases hkeyword with rfl | rfl
  · have hrole : line.role = .ok .finish := TokenLine.role_iff.2 hwords
    rw [read_on_act hrole, act, h]
  · have hrole : line.role = .ok .otherwise := TokenLine.role_iff.2 hwords
    rw [read_on_act hrole, act, h]

end OpenScript

namespace Descent

/-- The line from which reading goes on for those around a block: that of the terminator, if there
is one. -/
def Terminator.start : Terminator → Nat → Nat
  | .finish, cursor => cursor - 1
  | .otherwise, cursor => cursor - 1
  | .eof, cursor => cursor

section

variable (lines : List TokenLine)

/-- The lines as they are read here. -/
abbrev sources : List SourceLine := lines.map TokenLine.source

/-- What is known of a block when it has been read after nodes, beside where it ends: reading line
by line has come to the end of the block too, with its nodes added. -/
def Continues (q : OpenScript) (nodes : List Node) (cursor : Nat) (block : Block) (last : Nat) :
    Prop :=
  ∃ body, block.1 = nodes ++ body ∧
    q.readOn (lines.drop cursor) = (q.addAll body).readOn (lines.drop (block.2.start last))

/-- The block is read as reading line by line reads it after what has been read. -/
def Agrees (q : OpenScript) (nodes : List Node) (x : Reader Block) (p : Progress) : Prop :=
  Meets (sources lines) p
    (fun block p' => EndsAt (sources lines) block.2 p'.cursor ∧
      Continues lines q nodes p.cursor block p'.cursor)
    (fun fault => q.readOn (lines.drop p.cursor) = .error fault) (x p)

variable {lines}

/-- The line that is looked up is the first one left. -/
theorem drop_eq {cursor : Nat} {line : SourceLine} (h : (sources lines)[cursor]? = some line) :
    ∃ source : TokenLine, line = source.source ∧
      lines.drop cursor = source :: lines.drop (cursor + 1) := by
  rw [List.getElem?_map] at h
  obtain ⟨source, hsource, rfl⟩ := Option.map_eq_some_iff.1 h
  obtain ⟨hcursor, rfl⟩ := List.getElem?_eq_some_iff.1 hsource
  exact ⟨_, rfl, List.drop_eq_getElem_cons hcursor⟩

/-- The line of a keyword that the cursor is behind is the first one left before it. -/
theorem Behind.line {keyword : String} {cursor : Nat} (h : Behind (sources lines) keyword cursor) :
    ∃ line : TokenLine, line.tokens = [keyword] ∧
      lines.drop (cursor - 1) = line :: lines.drop cursor ∧
      ∀ p : Progress, p.cursor = cursor → lineBefore (sources lines) p = (.ok line.source, p) := by
  obtain ⟨hpos, source, hsource, htokens⟩ := h
  obtain ⟨last, rfl⟩ := Nat.exists_eq_add_one_of_ne_zero (Nat.ne_of_gt hpos)
  rw [Nat.add_sub_cancel] at hsource ⊢
  obtain ⟨line, rfl, hdrop⟩ := drop_eq hsource
  refine ⟨line, htokens, hdrop, fun p hcursor => ?_⟩
  rw [lineBefore, bind_ok (get_apply p), hcursor]
  simp only [hsource]
  rfl

/-! ### Blocks -/

section

variable {q : OpenScript} {p : Progress} {block : Reader Block} {number : Nat}

/-- A block that a line has opened, once its nodes are read. -/
theorem read_on_block (opener : Opener) (body : List Node) :
    (q.push number opener).addAll body =
      ⟨⟨number, opener, body.reverse⟩ :: q.blocks, q.top⟩ := by
  obtain ⟨blocks, top⟩ := q
  show OpenScript.addAll body ⟨⟨number, opener, []⟩ :: blocks, top⟩ = _
  rw [OpenScript.add_all_block, List.append_nil]

/-- With `end` a block becomes a statement of the block around it. -/
theorem read_on_finish (opener : Opener) (body : List Node) {last : Nat}
    (h : EndsAt (sources lines) .finish last) :
    ((q.push number opener).addAll body).readOn (lines.drop (last - 1)) =
      (q.add (.mk number (opener.close body))).readOn (lines.drop last) := by
  obtain ⟨line, htokens, hdrop, -⟩ := Behind.line h
  rw [read_on_block, hdrop, OpenScript.read_on_reads (.finish htokens rfl), OpenScript.close,
    List.reverse_reverse]

/-- With `else` the second block of an `if` is open, with the nodes of the first one. -/
theorem read_on_otherwise (condition : Condition) (body : List Node) {last : Nat}
    (h : EndsAt (sources lines) .otherwise last) :
    ((q.push number (.branch condition)).addAll body).readOn (lines.drop (last - 1)) =
      (q.push number (.otherwise condition body)).readOn (lines.drop last) := by
  obtain ⟨line, htokens, hdrop, -⟩ := Behind.line h
  rw [read_on_block, hdrop, OpenScript.read_on_reads (.otherwise htokens rfl rfl),
    List.reverse_reverse]
  rfl

/-- Behind all lines a block is missing its `end`. -/
theorem read_on_eof (opener : Opener) (body : List Node) {last : Nat}
    (h : EndsAt (sources lines) .eof last) :
    ((q.push number opener).addAll body).readOn (lines.drop last) =
      .error ⟨number, .missingEnd opener.keyword⟩ := by
  have hend : last = (sources lines).length := h
  rw [read_on_block, hend, List.length_map, List.drop_length, OpenScript.read_on_open rfl]

/-- A block that must be closed with `end` is read as reading line by line reads it, as a statement
of the block around it. -/
theorem closed_meets {opener : Opener} (hopener : ∀ condition, opener ≠ .branch condition)
    (h : Agrees lines (q.push number opener) [] block p) :
    Meets (sources lines) p
      (fun body p' => (q.push number opener).readOn (lines.drop p.cursor) =
        (q.add (.mk number (opener.close body))).readOn (lines.drop p'.cursor))
      (fun fault => (q.push number opener).readOn (lines.drop p.cursor) = .error fault)
      (readClosed (sources lines) block number opener.keyword p) := by
  refine h.bind (fun ⟨nodes, terminator⟩ p' hmoves ⟨hends, body, hbody, hread⟩ => ?_) fun _ => id
  obtain rfl : nodes = body := hbody
  cases terminator with
  | finish => exact .pure hmoves.inside (hread.trans (read_on_finish opener nodes hends))
  | otherwise =>
      obtain ⟨line, htokens, hdrop, hline⟩ := Behind.line hends
      have hstray : (q.push number opener).readOn (lines.drop p.cursor) =
          .error ⟨line.number, .strayElse opener.keyword number⟩ := by
        rw [hread, read_on_block]
        dsimp only [Terminator.start]
        rw [hdrop, OpenScript.read_on_stray htokens rfl hopener]
      simp only [bind_ok (hline p' rfl)]
      exact .fail hmoves.inside hstray
  | eof => exact .fail hmoves.inside (hread.trans (read_on_eof opener nodes hends))

/-- What follows an opening line is read as reading line by line reads it, if that holds of all
blocks that are in the same scope. -/
theorem opened_meets {opener : Opener}
    (h : ∀ (o : Opener) (p' : Progress), (∀ scope : Scope, scope.inside o = scope.inside opener) →
      p.Moves (sources lines) p' → Agrees lines (q.push number o) [] block p')
    (hp : p.cursor ≤ (sources lines).length) :
    Meets (sources lines) p
      (fun s p' => (q.push number opener).readOn (lines.drop p.cursor) =
        (q.add (.mk number s)).readOn (lines.drop p'.cursor))
      (fun fault => (q.push number opener).readOn (lines.drop p.cursor) = .error fault)
      (readOpened (sources lines) block number opener p) := by
  have hfirst := h opener p (fun _ => rfl) (.refl hp)
  have hclosed (hopener : ∀ condition, opener ≠ .branch condition) :
      Meets (sources lines) p
        (fun s p' => (q.push number opener).readOn (lines.drop p.cursor) =
          (q.add (.mk number s)).readOn (lines.drop p'.cursor))
        (fun fault => (q.push number opener).readOn (lines.drop p.cursor) = .error fault)
        ((readClosed (sources lines) block number opener.keyword >>= fun body =>
          pure (opener.close body) : Reader Statement) p) :=
    (closed_meets hopener hfirst).bind (fun body p' hmoves hread => .pure hmoves.inside hread)
      fun _ => id
  cases opener with
  | branch condition =>
      refine hfirst.bind (fun ⟨nodes, terminator⟩ p' hmoves ⟨hends, body, hbody, hread⟩ => ?_)
        fun _ => id
      obtain rfl : nodes = body := hbody
      cases terminator with
      | finish =>
          exact .pure hmoves.inside (hread.trans (read_on_finish (.branch condition) nodes hends))
      | otherwise =>
          -- the block of the second branch is in the same scope
          have hset := hread.trans (read_on_otherwise condition nodes hends)
          have hsecond := closed_meets (fun _ hsame => by cases hsame)
            (h (.otherwise condition nodes) p' (fun _ => rfl) hmoves)
          refine hsecond.bind (fun no p₂ hmoves' hclosed => ?_)
            fun fault hfault => hset.trans hfault
          exact .pure hmoves'.inside (hset.trans hclosed)
      | eof => exact .fail hmoves.inside (hread.trans (read_on_eof (.branch condition) nodes hends))
  | _ => exact hclosed fun _ hsame => by cases hsame

/-! ### Lines -/

/-- What is known when a line is read with the blocks that it opens: it ends the block that it is
in, or reading line by line has come as far and has a statement more. -/
def Follows (lines : List TokenLine) (q : OpenScript) (line : TokenLine) (cursor : Nat) :
    Terminator ⊕ Statement → Nat → Prop
  | .inl terminator, last =>
    last = cursor ∧ EndsAt (sources lines) terminator last ∧ terminator.start last + 1 = last
  | .inr statement, last =>
    q.readOn (line :: lines.drop cursor) =
      (q.add (.mk line.number statement)).readOn (lines.drop last)

/-- A line is read as reading line by line reads it, if that holds of the blocks in its scope. -/
theorem line_meets (blockIn : Scope → Reader Block) {line : TokenLine}
    (hp : p.cursor ≤ (sources lines).length) (hpos : 0 < p.cursor)
    (hline : (sources lines)[p.cursor - 1]? = some line.source)
    (h : (Scope.ofBlocks q.blocks).HasRoom → ∀ (o : Opener) (p' : Progress),
      p.Moves (sources lines) p' →
        Agrees lines (q.push line.number o) [] (blockIn ((Scope.ofBlocks q.blocks).inside o)) p') :
    Meets (sources lines) p (fun read p' => Follows lines q line p.cursor read p'.cursor)
      (fun fault => q.readOn (line :: lines.drop p.cursor) = .error fault)
      (readLine (sources lines) blockIn (.ofBlocks q.blocks) line.source p) := by
  have hbehind {keyword : String} (hwords : line.tokens = [keyword]) :
      Behind (sources lines) keyword p.cursor :=
    ⟨hpos, line.source, hline, hwords⟩
  obtain ⟨number, head, rest⟩ := line
  simp only [readLine, TokenLine.source, TokenLine.tokens]
  cases hrole : TokenLine.role ⟨number, head, rest⟩ with
  | error cause => exact .fail hp (OpenScript.read_on_error hrole)
  | ok role =>
      have hact : q.readOn (⟨number, head, rest⟩ :: lines.drop p.cursor) = _ :=
        OpenScript.read_on_act hrole
      have hwords := TokenLine.said_of_role hrole
      cases role with
      | finish => exact .pure hp ⟨rfl, hbehind hwords, Nat.sub_add_cancel hpos⟩
      | otherwise => exact .pure hp ⟨rfl, hbehind hwords, Nat.sub_add_cancel hpos⟩
      | simple s => exact .pure hp hact
      | opening o =>
          rw [OpenScript.act] at hact
          simp only
          split
          · rename_i hfull
            rw [if_pos (show maxBlockDepth ≤ q.blocks.length from hfull)] at hact
            exact .fail hp hact
          · rename_i hroom
            rw [if_neg (show ¬ maxBlockDepth ≤ q.blocks.length from hroom)] at hact
            -- after `else` the same block is read again behind another opener, which changes
            -- nothing in the scope
            have hblock (other : Opener) (p' : Progress)
                (hsame : ∀ scope : Scope, scope.inside other = scope.inside o)
                (hmoves : p.Moves (sources lines) p') :
                Agrees lines (q.push number other) []
                  (blockIn ((Scope.ofBlocks q.blocks).inside o)) p' :=
              hsame (.ofBlocks q.blocks) ▸ h (Nat.lt_of_not_le hroom) other p' hmoves
            have hopened := opened_meets hblock hp
            refine hopened.bind (fun s p' hmoves hread => .pure hmoves.inside (hact.trans hread))
              fun fault hfault => hact.trans hfault
      | leave =>
          rw [OpenScript.act] at hact
          simp only
          split
          · rename_i hloop
            rw [if_pos (show insideLoop q.blocks from hloop)] at hact
            exact .pure hp hact
          · rename_i hnone
            rw [if_neg (show ¬ insideLoop q.blocks from hnone)] at hact
            exact .fail hp hact
      | answer words =>
          rw [OpenScript.act] at hact
          simp only
          split
          · rename_i hprocedure
            rw [if_pos (show insideProcedure q.blocks from hprocedure)] at hact
            cases hanswer : readAnswer words with
            | ok s =>
                rw [hanswer] at hact
                exact .pure hp hact
            | error cause =>
                rw [hanswer] at hact
                exact .fail hp hact
          · rename_i hnone
            rw [if_neg (show ¬ insideProcedure q.blocks from hnone)] at hact
            exact .fail hp hact

/-! ### Blocks in their scopes -/

/-- Where a statement has been read, the block is read after it as it is read with it. -/
theorem Agrees.after {q : OpenScript} {nodes : List Node} {node : Node} {x : Reader Block}
    {p p' : Progress}
    (hread : q.readOn (lines.drop p.cursor) = (q.add node).readOn (lines.drop p'.cursor))
    (h : Agrees lines (q.add node) (nodes ++ [node]) x p') :
    Meets (sources lines) p'
      (fun block last => EndsAt (sources lines) block.2 last.cursor ∧
        Continues lines q nodes p.cursor block last.cursor)
      (fun fault => q.readOn (lines.drop p.cursor) = .error fault) (x p') := by
  refine h.imp (fun block last ⟨hends, body, hbody, hlast⟩ => ⟨hends, node :: body, ?_, ?_⟩)
    fun fault hfault => hread.trans hfault
  · exact hbody.trans (List.append_assoc _ _ _)
  · exact hread.trans hlast

/-- Lines in a scope are read as reading line by line reads them, by induction on how deep
the recursion may go. -/
theorem nodes_meet (fuel : Nat) {q : OpenScript} {p : Progress} (nodes : List Node)
    (hp : p.cursor ≤ (sources lines).length) (hfuel : (sources lines).length < p.cursor + fuel)
    (hdepth : q.blocks.length ≤ maxBlockDepth) (hactive : p.active = q.blocks.length + 1) :
    Agrees lines q nodes (readNodes (sources lines) fuel (.ofBlocks q.blocks) nodes) p := by
  induction fuel generalizing q p nodes with
  | zero => exact absurd hp (Nat.not_le.2 hfuel)
  | succ fuel ih =>
      unfold Agrees
      rw [readNodes, bind_ok (get_apply p)]
      cases hline : (sources lines)[p.cursor]? with
      | none =>
          -- there are no more lines, so that the cursor is at their end
          have hend : p.cursor = (sources lines).length :=
            Nat.le_antisymm hp (List.getElem?_eq_none_iff.1 hline)
          exact .pure hp ⟨hend, [], (List.append_nil nodes).symm, rfl⟩
      | some source =>
          obtain ⟨line, rfl, hdrop⟩ := drop_eq hline
          have hnext : p.cursor < (sources lines).length := (List.getElem?_eq_some_iff.1 hline).1
          -- a block begins behind its line, so that the fuel that is left is enough for it
          have hinner : (Scope.ofBlocks q.blocks).HasRoom → ∀ (o : Opener) (p' : Progress),
              (p.visited).Moves (sources lines) p' → Agrees lines (q.push line.number o) []
                (activate (readNodes (sources lines) fuel ((Scope.ofBlocks q.blocks).inside o) []))
                p' := by
            intro hroom o p' hmoves
            have hforward : p.cursor + 1 ≤ p'.cursor := hmoves.forward
            have hsame : p'.active = q.blocks.length + 1 := hmoves.active.trans hactive
            refine Meets.activate (hsame ▸ hroom) ?_
            rw [← OpenScript.of_blocks_push line.number]
            exact ih [] hmoves.inside (by dsimp only; omega) hroom (congrArg (· + 1) hsame)
          have hvisit : Meets (sources lines) p (fun _ p' => p' = p.visited)
              (fun fault => q.readOn (lines.drop p.cursor) = .error fault) (visit p) :=
            .done (p.moves_visited hnext) rfl
          refine hvisit.bind (fun _ p₁ hmoves hp₁ => ?_) fun _ => id
          subst hp₁
          have hline := line_meets (fun inner => activate (readNodes (sources lines) fuel inner []))
            hmoves.inside (Nat.succ_pos p.cursor) hline hinner
          refine hline.bind (fun read p' hmoves hfollows => ?_) fun fault hfault => hdrop ▸ hfault
          cases read with
          | inl terminator =>
              obtain ⟨hlast, hends, hstart⟩ := hfollows
              refine .pure hmoves.inside ⟨hends, [], (List.append_nil nodes).symm, ?_⟩
              -- the block around reads the terminator itself, from the line that was looked up here
              have hback : terminator.start p'.cursor = p.cursor :=
                Nat.succ.inj (hstart.trans hlast)
              rw [hback]
              rfl
          | inr s =>
              have hforward : p.cursor + 1 ≤ p'.cursor := hmoves.forward
              have hscope := OpenScript.of_blocks_add (.mk line.number s) q
              have hblocks : (q.add (.mk line.number s)).blocks.length = q.blocks.length :=
                congrArg Scope.depth hscope
              have hmore : Agrees lines (q.add (.mk line.number s)) (nodes ++ [.mk line.number s])
                  (readNodes (sources lines) fuel (.ofBlocks q.blocks)
                    (nodes ++ [.mk line.number s])) p' := by
                rw [← hscope]
                exact ih _ hmoves.inside (by omega) (hblocks ▸ hdepth)
                  (hblocks ▸ hmoves.active.trans hactive)
              exact Agrees.after ((congrArg q.readOn hdrop).trans hfollows) hmore

/-- A script is read as reading line by line reads it. -/
theorem script_meets (lines : List TokenLine) :
    Meets (sources lines) .start (fun script _ => Script.ofLines lines = .ok script)
      (fun fault => Script.ofLines lines = .error fault) (readScript (sources lines) .start) := by
  have hnodes : Agrees lines .start []
      (readBlock (sources lines) ((sources lines).length + 1) .top) .start :=
    Meets.activate (Nat.zero_le _)
      (nodes_meet _ [] (Nat.zero_le _) (by dsimp only; omega) (Nat.zero_le _) rfl)
  refine hnodes.bind (fun ⟨nodes, terminator⟩ p' hmoves ⟨hends, body, hbody, hread⟩ => ?_)
    fun _ => id
  obtain rfl : nodes = body := hbody
  change Script.ofLines lines = (OpenScript.addAll nodes ⟨[], []⟩).readOn _ at hread
  rw [OpenScript.add_all_top, List.append_nil] at hread
  have hstray {keyword : String} (hbehind : Behind (sources lines) keyword p'.cursor)
      (hkeyword : keyword = "end" ∨ keyword = "else")
      (hread : Script.ofLines lines =
        (⟨[], nodes.reverse⟩ : OpenScript).readOn (lines.drop (p'.cursor - 1))) :
      Meets (sources lines) p' (fun script _ => Script.ofLines lines = .ok script)
        (fun fault => Script.ofLines lines = .error fault)
        (strayEnd (sources lines) p') := by
    obtain ⟨line, htokens, hdrop, hline⟩ := hbehind.line
    rw [strayEnd, bind_ok (hline p' rfl)]
    simp only [TokenLine.source, htokens]
    refine .fail hmoves.inside ?_
    rw [hread, hdrop, OpenScript.read_on_unopened htokens hkeyword rfl]
  cases terminator with
  | finish => exact hstray hends (.inl rfl) hread
  | otherwise => exact hstray hends (.inr rfl) hread
  | eof =>
      have hend : p'.cursor = (sources lines).length := hends
      dsimp only [Terminator.start] at hread
      refine .pure hmoves.inside ?_
      rw [hread, hend, List.length_map, List.drop_length, OpenScript.read_on_end rfl,
        List.reverse_reverse]

/-- The script or the fault is the one of the lines. -/
theorem read_script_result (lines : List TokenLine) :
    (readScript (sources lines) .start).1 = (Script.ofLines lines).mapError .fault := by
  have h := script_meets lines
  generalize readScript (sources lines) .start = result at h
  cases h with
  | done _ h =>
      rw [h]
      rfl
  | failed _ h =>
      rw [h]
      rfl

/-- The lines as they are read here are the lines of the script. -/
theorem source_lines_eq (number : Nat) (ls : List (List Char)) :
    sourceLines number ls = (tokenLines number ls).map sources := by
  induction ls generalizing number with
  | nil => rfl
  | cons cs more ih =>
      rw [sourceLines, tokenLines, ih]
      cases lineWords? cs with
      | none => rfl
      | some words =>
          cases tokenLines (number + 1) more with
          | error line => rfl
          | ok lines => cases words <;> rfl

end

end

end Descent

/-! ## Progress -/

/-- Reading a text by recursive descent always makes progress and never looks up what is not there,
whether the text is a script or not. The script or the fault is that of the text, so that reading
comes to an end and stays within the lines. Every line that is read has words, those of a line of
the text. Each round of a block visits the line at the cursor, which all blocks share, and goes on
to the next: the lines before the cursor have been visited once each and in their order, and no
others. No more than 33 blocks are read at a time. Wherever a block has ended with `end` or `else`,
the line of that word is the one before the cursor, and wherever one has ended without, the cursor
was at the end of the lines. -/
theorem parsing_makes_progress (text : String) (firstLine : Nat) :
    let read := Descent.ofText text firstLine
    read.1 = (Script.ofText text firstLine).mapError .fault ∧
    read.1 ≠ .error .outOfRange ∧ read.1 ≠ .error .unfinished ∧
    ∀ lines, Descent.sourceLines firstLine (Text.lines text.toList) = .ok lines →
      (∀ line ∈ lines, line.tokens ≠ [] ∧
        ∃ raw ∈ Text.lines text.toList, lineWords? raw = some line.tokens) ∧
      read.2.cursor ≤ lines.length ∧ read.2.visits = List.range read.2.cursor ∧
      read.2.active = 0 ∧ read.2.deepest ≤ 33 ∧
      ∀ terminator cursor, (terminator, cursor) ∈ read.2.ends →
        Descent.EndsAt lines terminator cursor := by
  intro read
  have hsources := Descent.source_lines_eq firstLine (Text.lines text.toList)
  cases htokens : tokenLines firstLine (Text.lines text.toList) with
  | error line =>
      rw [htokens] at hsources
      have hread : read = (.error (.fault ⟨line, .unclosedQuote⟩), .start) := by
        simp only [read, Descent.ofText, hsources, Except.map]
      have htext : Script.ofText text firstLine = .error ⟨line, .unclosedQuote⟩ := by
        simp only [Script.ofText, htokens]
      rw [hread, htext]
      refine ⟨rfl, nofun, nofun, fun lines hlines => ?_⟩
      cases hsources.symm.trans hlines
  | ok lines =>
      rw [htokens] at hsources
      have hread : read = Descent.readScript (Descent.sources lines) .start := by
        simp only [read, Descent.ofText, hsources, Except.map]
      have htext : Script.ofText text firstLine = Script.ofLines lines := by
        simp only [Script.ofText, htokens]
      have hresult := Descent.read_script_result lines
      rw [hread, htext]
      refine ⟨hresult, ?_, ?_, fun found hfound => ?_⟩
      · rw [hresult]
        cases Script.ofLines lines <;> nofun
      · rw [hresult]
        cases Script.ofLines lines <;> nofun
      · cases hsources.symm.trans hfound
        obtain ⟨-, hinside, hvisits, hactive, hdeepest, hends⟩ := (Descent.script_meets lines).moves
        refine ⟨fun source hsource => ?_, hinside, ?_, hactive, hdeepest,
          fun terminator cursor hentry => (hends _ hentry).resolve_left List.not_mem_nil⟩
        · obtain ⟨line, hline, rfl⟩ := List.mem_map.1 hsource
          rw [(token_lines_iff.1 htokens).2] at hline
          obtain ⟨index, raw, hraw, hwords, -⟩ := mem_significant_lines hline
          exact ⟨List.cons_ne_nil _ _, raw, List.mem_of_getElem? hraw, hwords⟩
        · rw [hvisits, List.range_eq_range']
          rfl

/-- A loop with an `if` of two branches, and a line with `end` too many. -/
theorem parsing_makes_progress_stray :
    let text := "loop\nif $x\nbreak\nelse\nstop\nend\nend\nend"
    let read := Descent.ofText text 1
    read.1 = .error (.fault ⟨8, .noOpenBlock "end"⟩) ∧ read.2.visits = List.range 8 ∧
      read.2.deepest = 3 ∧
      read.2.ends = [(.otherwise, 4), (.finish, 6), (.finish, 7), (.finish, 8)] := by
  intro text read
  have htext : Script.ofText text 1 = .error ⟨8, .noOpenBlock "end"⟩ := by
    unfold text
    rfl
  have hcursor : read.2.cursor = 8 := by decide +kernel
  have hdeepest : read.2.deepest = 3 := by decide +kernel
  have hends : read.2.ends = [(.otherwise, 4), (.finish, 6), (.finish, 7), (.finish, 8)] := by
    decide +kernel
  obtain ⟨lines, hlines⟩ : ∃ lines, Descent.sourceLines 1 (Text.lines text.toList) = .ok lines := by
    unfold text
    exact ⟨_, rfl⟩
  obtain ⟨hresult, -, -, hread⟩ := parsing_makes_progress text 1
  obtain ⟨-, -, hvisits, -⟩ := hread lines hlines
  rw [htext] at hresult
  rw [show read.2.cursor = 8 from hcursor] at hvisits
  exact ⟨hresult, hvisits, hdeepest, hends⟩

end RobotBench
