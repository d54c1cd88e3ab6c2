import RobotBench.Proofs.Script.OpenBlocks

/-!
# Two spellings of a loop

A `loop` may also be written `while true`. `NodesRespelled` relates nodes that differ in
nothing but that, wherever it stands, and `of_text_respelled` says that such nodes are what
texts come to whose lines differ in nothing but that.
-/

namespace RobotBench

/-! ## Trees -/

/-- The condition `true`. -/
def Condition.always : Condition := .truthy (.literal (.bool true))

mutual

/-- The statements are the same but for the spelling of loops, which may be the statements
themselves or nested in them. -/
inductive Statement.Respelled : Statement → Statement → Prop
  | plain {s : Statement} (h : s.IsPlain) : Statement.Respelled s s
  | define (name : String) {body body' : List Node}
      (h : List.Forall₂ Node.Respelled body body') :
      Statement.Respelled (.define name body) (.define name body')
  | repeated (count : Atom) {body body' : List Node}
      (h : List.Forall₂ Node.Respelled body body') :
      Statement.Respelled (.repeated count body) (.repeated count body')
  | loop {body body' : List Node} (h : List.Forall₂ Node.Respelled body body') :
      Statement.Respelled (.loop body) (.loop body')
  | whilst (condition : Condition) {body body' : List Node}
      (h : List.Forall₂ Node.Respelled body body') :
      Statement.Respelled (.whilst condition body) (.whilst condition body')
  | branch (condition : Condition) {yes yes' no no' : List Node}
      (hyes : List.Forall₂ Node.Respelled yes yes') (hno : List.Forall₂ Node.Respelled no no') :
      Statement.Respelled (.branch condition yes no) (.branch condition yes' no')
  | toWhilst {body body' : List Node} (h : List.Forall₂ Node.Respelled body body') :
      Statement.Respelled (.loop body) (.whilst .always body')
  | toLoop {body body' : List Node} (h : List.Forall₂ Node.Respelled body body') :
      Statement.Respelled (.whilst .always body) (.loop body')

/-- The nodes stand on the same line and are the same but for the spelling of loops. -/
inductive Node.Respelled : Node → Node → Prop
  | mk (line : Nat) {s s' : Statement} (h : Statement.Respelled s s') :
      Node.Respelled (.mk line s) (.mk line s')

end

/-- The nodes are one by one the same but for the spelling of loops. -/
abbrev NodesRespelled : List Node → List Node → Prop := List.Forall₂ Node.Respelled

mutual

theorem Statement.respelled_refl (s : Statement) : s.Respelled s := by
  cases s with
  | define name body => exact .define name (nodes_respelled_refl body)
  | repeated count body => exact .repeated count (nodes_respelled_refl body)
  | loop body => exact .loop (nodes_respelled_refl body)
  | whilst condition body => exact .whilst condition (nodes_respelled_refl body)
  | branch condition yes no =>
      exact .branch condition (nodes_respelled_refl yes) (nodes_respelled_refl no)
  | _ => exact .plain trivial
  termination_by structural s

/-- Nodes are spelled like themselves. -/
theorem nodes_respelled_refl (nodes : List Node) : NodesRespelled nodes nodes := by
  cases nodes with
  | nil => exact .nil
  | cons node more =>
      obtain ⟨line, s⟩ := node
      exact .cons (.mk line s.respelled_refl) (nodes_respelled_refl more)
  termination_by structural nodes

end

/-! ## Lines -/

/-- The words are the same but for the spelling of a loop. -/
inductive WordsRespelled : List String → List String → Prop
  | same (words : List String) : WordsRespelled words words
  | toWhilst : WordsRespelled ["loop"] ["while", "true"]
  | toLoop : WordsRespelled ["while", "true"] ["loop"]

/-- A keyword on its own has one spelling, if it is not `loop`. -/
theorem WordsRespelled.keyword {keyword : String} {words : List String}
    (h : WordsRespelled [keyword] words) (hkeyword : keyword ≠ "loop") : words = [keyword] := by
  cases h with
  | same => rfl
  | toWhilst => exact absurd rfl hkeyword

/-- The lines have the same number and are the same but for the spelling of a loop. -/
structure TokenLine.Respelled (line line' : TokenLine) : Prop where
  number : line.number = line'.number
  tokens : WordsRespelled line.tokens line'.tokens

/-- The lines of text can both be read or not, and have the same words but for the spelling
of a loop. -/
def LineRespelled (cs cs' : List Char) : Prop :=
  Option.Rel WordsRespelled (lineWords? cs) (lineWords? cs')

/-- The openers are the same first ones of their statement, but for the spelling of a loop. -/
inductive Opener.Respelled : Opener → Opener → Prop
  | same {o : Opener} (h : o.IsFirst) : Opener.Respelled o o
  | toWhilst : Opener.Respelled .loop (.whilst .always)
  | toLoop : Opener.Respelled (.whilst .always) .loop

namespace Opener

variable {o o' : Opener}

/-- A line opens one block only. -/
theorem eq_of_heading {body body' : List Node} {line : TokenLine} (ho : o.IsFirst)
    (ho' : o'.IsFirst) (h : (o.close body).Heading line.tokens)
    (h' : (o'.close body').Heading line.tokens) : o = o' := by
  have hrole : line.role = .ok (.opening o) :=
    TokenLine.role_of_said ⟨ho, (heading_close body []).1 h⟩
  have hrole' : line.role = .ok (.opening o') :=
    TokenLine.role_of_said ⟨ho', (heading_close body' []).1 h'⟩
  exact LineRole.opening.inj (Except.ok.inj (hrole.symm.trans hrole'))

theorem heading_loop (body : List Node) : (loop.close body).Heading ["loop"] := rfl

theorem heading_always (body : List Node) :
    ((whilst .always).close body).Heading ["while", "true"] := by
  refine ⟨["true"], rfl, "true", rfl, ?_⟩
  show Atom.ofWord "true" = .literal (.bool true)
  rfl

/-- A line that is respelled opens a block that is respelled. -/
theorem respelled_of_heading (o : Opener) (body : List Node) {line : TokenLine}
    {words : List String} (ho : o.IsFirst) (h : (o.close body).Heading line.tokens)
    (hwords : WordsRespelled line.tokens words) :
    ∃ o', o.Respelled o' ∧ ∀ body', (o'.close body').Heading words := by
  generalize htokens : line.tokens = tokens at hwords
  cases hwords with
  | same =>
      rw [htokens] at h
      exact ⟨o, .same ho, fun body' => (heading_close body body').1 h⟩
  | toWhilst =>
      have hloop : (loop.close []).Heading line.tokens := htokens ▸ heading_loop []
      obtain rfl : o = loop := eq_of_heading ho trivial h hloop
      exact ⟨whilst .always, .toWhilst, heading_always⟩
  | toLoop =>
      have hwhilst : ((whilst .always).close []).Heading line.tokens :=
        htokens ▸ heading_always []
      obtain rfl : o = whilst .always := eq_of_heading ho trivial h hwhilst
      exact ⟨loop, .toLoop, heading_loop⟩

theorem Respelled.first (h : o.Respelled o') : o'.IsFirst := by
  cases h with
  | same ho => exact ho
  | toWhilst | toLoop => trivial

/-- Around the body of a loop there is the same, however it is spelled. -/
theorem Respelled.inside (h : o.Respelled o') (scope : Scope) :
    scope.inside o = scope.inside o' := by
  cases h <;> rfl

/-- The statement may stand wherever it may stand with the loop spelled another way, if its
body may. -/
theorem Respelled.scoped (h : o.Respelled o') {body body' : List Node}
    (hbody : ∀ scope, NodesScoped scope body → NodesScoped scope body') {scope : Scope}
    (hscope : (o.close body).Scoped scope) : (o'.close body').Scoped scope := by
  obtain ⟨hroom, -, hbodyscope⟩ := scoped_close.1 hscope
  rw [h.inside] at hbodyscope
  refine scoped_close.2 ⟨hroom, ?_, hbody _ hbodyscope⟩
  rw [Layout.kept_first h.first]
  trivial

theorem Respelled.close (h : o.Respelled o') {body body' : List Node}
    (hbody : NodesRespelled body body') : (o.close body).Respelled (o'.close body') := by
  cases h with
  | same ho =>
      cases o with
      | define name => exact .define name hbody
      | repeated count => exact .repeated count hbody
      | loop => exact .loop hbody
      | whilst condition => exact .whilst condition hbody
      | branch condition => exact .branch condition hbody .nil
      | otherwise condition yes => exact False.elim ho
  | toWhilst => exact .toWhilst hbody
  | toLoop => exact .toLoop hbody

end Opener

/-- A line without blocks of its own has one spelling. -/
theorem Statement.Heading.respelled {s : Statement} {line : TokenLine} {words : List String}
    (h : s.Heading line.tokens) (hs : s.IsPlain) (hwords : WordsRespelled line.tokens words) :
    s.Heading words := by
  have hopens := (h.not_block hs).1
  generalize htokens : line.tokens = tokens at hwords
  cases hwords with
  | same => exact htokens ▸ h
  | toWhilst | toLoop =>
      obtain ⟨hhead, -⟩ := List.cons.inj htokens
      rw [TokenLine.Opens, hhead] at hopens
      exact absurd (by decide) hopens

/-! ## Texts -/

/-- What is related to lines with one set off among them has one set off, too. -/
theorem forall_append_cons {α β : Type} {Rel : α → β → Prop} {before : List α} {a : α}
    {after : List α} {bs : List β} (h : List.Forall₂ Rel (before ++ a :: after) bs) :
    ∃ before' b after', bs = before' ++ b :: after' ∧ List.Forall₂ Rel before before' ∧
      Rel a b ∧ List.Forall₂ Rel after after' := by
  induction before generalizing bs with
  | nil =>
      cases h with
      | cons hab hafter => exact ⟨[], _, _, rfl, .nil, hab, hafter⟩
  | cons first before ih =>
      cases h with
      | cons hfirst hmore =>
          obtain ⟨before', b, after', rfl, hbefore, hab, hafter⟩ := ih hmore
          exact ⟨_ :: before', b, after', rfl, .cons hfirst hbefore, hab, hafter⟩

/-- Lines that nodes are laid out on are, respelled, lines that respelled nodes are laid out
on. These may stand wherever the nodes may. -/
theorem Layout.respelled {nodes : List Node} {lines lines' : List TokenLine}
    (h : Layout nodes lines) (hlines : List.Forall₂ TokenLine.Respelled lines lines') :
    ∃ nodes', Layout nodes' lines' ∧ NodesRespelled nodes nodes' ∧
      ∀ scope, NodesScoped scope nodes → NodesScoped scope nodes' := by
  induction h generalizing lines' with
  | nil =>
      cases hlines
      exact ⟨[], .nil, .nil, fun _ h => h⟩
  | @plain s line _ _ hs hheading _ ih =>
      cases hlines with
      | @cons _ line' _ _ hline hmore =>
          obtain ⟨nodes', hlayout, hnodes, hscoped⟩ := ih hmore
          have hnode : (Node.mk line.number s).Respelled (.mk line'.number s) :=
            hline.number ▸ .mk _ (.plain hs)
          exact ⟨_, .plain hs (hheading.respelled hs hline.tokens) hlayout, .cons hnode hnodes,
            fun scope h => ⟨h.1, hscoped scope h.2⟩⟩
  | @block o body line _ _ _ _ ho hheading _ hlast _ ihbody ihmore =>
      cases hlines with
      | @cons _ line' _ _ hline hrest =>
          obtain ⟨inner', last', more', rfl, hinner, hend, hmore⟩ := forall_append_cons hrest
          obtain ⟨body', hbody, hbodies, hbodyscoped⟩ := ihbody hinner
          obtain ⟨nodes', hlayout, hnodes, hscoped⟩ := ihmore hmore
          obtain ⟨o', ho', hheading'⟩ := o.respelled_of_heading body ho hheading hline.tokens
          have hlast' := (hlast ▸ hend.tokens).keyword (by decide)
          have hnode : (Node.mk line.number (o.close body)).Respelled
              (.mk line'.number (o'.close body')) := hline.number ▸ .mk _ (ho'.close hbodies)
          exact ⟨_, .block ho'.first (hheading' body') hbody hlast' hlayout, .cons hnode hnodes,
            fun scope h => ⟨ho'.scoped hbodyscoped h.1, hscoped scope h.2⟩⟩
  | @choice condition yes no line _ _ _ _ _ _ hheading _ hmiddle _ hlast _ ihyes ihno ihmore =>
      cases hlines with
      | @cons _ line' _ _ hline hrest =>
          -- the lines are taken apart where the layout was put together: at `else` and at `end`
          obtain ⟨first', middle', rest', rfl, hfirst, helse, hrest⟩ := forall_append_cons hrest
          obtain ⟨second', last', more', rfl, hsecond, hend, hmore⟩ := forall_append_cons hrest
          obtain ⟨yes', hyes, hyess, hyesscoped⟩ := ihyes hfirst
          obtain ⟨no', hno, hnos, hnoscoped⟩ := ihno hsecond
          obtain ⟨nodes', hlayout, hnodes, hscoped⟩ := ihmore hmore
          obtain ⟨o', ho', hheading'⟩ :=
            Opener.respelled_of_heading (.branch condition) yes trivial hheading hline.tokens
          cases ho'
          have hheading' : (Statement.branch condition yes' no').Heading line'.tokens :=
            hheading' yes'
          have hmiddle' := (hmiddle ▸ helse.tokens).keyword (by decide)
          have hlast' := (hlast ▸ hend.tokens).keyword (by decide)
          have hnode : (Node.mk line.number (.branch condition yes no)).Respelled
              (.mk line'.number (.branch condition yes' no')) :=
            hline.number ▸ .mk _ (.branch condition hyess hnos)
          exact ⟨_, .choice hheading' hyes hmiddle' hno hlast' hlayout,
            .cons hnode hnodes, fun scope h =>
              ⟨⟨h.1.1, hyesscoped _ h.1.2.1, hnoscoped _ h.1.2.2⟩, hscoped scope h.2⟩⟩

/-- Lines of text that are respelled make token lines that are. -/
theorem significant_lines_respelled (number : Nat) {ls ls' : List (List Char)}
    (h : List.Forall₂ LineRespelled ls ls') :
    List.Forall₂ TokenLine.Respelled (significantLines number ls)
      (significantLines number ls') := by
  induction h generalizing number with
  | nil => exact .nil
  | @cons cs cs' more more' hline _ ih =>
      rw [significant_lines_cons, significant_lines_cons, TokenLine.ofLine?, TokenLine.ofLine?]
      refine List.rel_append ?_ (ih (number + 1))
      rw [LineRespelled] at hline
      generalize lineWords? cs = words at hline
      generalize lineWords? cs' = words' at hline
      cases hline with
      | none => exact .nil
      | some hwords =>
          cases hwords with
          | same =>
              rename_i words
              cases words with
              | nil => exact .nil
              | cons head rest => exact .cons ⟨rfl, .same _⟩ .nil
          | toWhilst => exact .cons ⟨rfl, .toWhilst⟩ .nil
          | toLoop => exact .cons ⟨rfl, .toLoop⟩ .nil

theorem readable_respelled {ls ls' : List (List Char)} (h : List.Forall₂ LineRespelled ls ls')
    (hreadable : ∀ cs ∈ ls, lineWords? cs ≠ none) : ∀ cs ∈ ls', lineWords? cs ≠ none := by
  induction h with
  | nil => exact hreadable
  | cons hline _ ih =>
      obtain ⟨hfirst, hmore⟩ := List.forall_mem_cons.1 hreadable
      refine List.forall_mem_cons.2 ⟨fun hnone => ?_, ih hmore⟩
      rw [LineRespelled, hnone] at hline
      generalize lineWords? _ = words at hline hfirst
      cases hline
      exact hfirst rfl

/-- A text that is a script is, with loops spelled another way, one that is respelled. -/
theorem of_text_respelled {text text' : String} {firstLine : Nat} {script : Script}
    (h : Script.ofText text firstLine = .ok script)
    (hlines : List.Forall₂ LineRespelled (Text.lines text.toList) (Text.lines text'.toList)) :
    ∃ script', Script.ofText text' firstLine = .ok script' ∧ NodesRespelled script script' := by
  obtain ⟨hreadable, hread⟩ := of_text_lines h
  obtain ⟨hlayout, hscoped⟩ := OpenScript.of_lines_sound hread
  obtain ⟨script', hlayout', hscript, hscoped'⟩ :=
    hlayout.respelled (significant_lines_respelled firstLine hlines)
  have htokens : tokenLines firstLine (Text.lines text'.toList) = .ok _ :=
    token_lines_iff.2 ⟨readable_respelled hlines hreadable, rfl⟩
  refine ⟨script', ?_, hscript⟩
  rw [Script.ofText, htokens]
  exact OpenScript.of_lines_complete hlayout' (hscoped' _ hscoped)

end RobotBench
