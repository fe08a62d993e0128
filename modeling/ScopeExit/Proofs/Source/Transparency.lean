import ScopeExit.Proofs.Source.Comment
/-!
Comments leave no trace in programs.

A text with a comment and the text with blanks in its place are lowered side by side.  The concrete trees are assumed
to differ in the node of the comment alone, and the two sources agree wherever it is clear of the comment, so what has
to be shown is that no rule looks at the comment: not when it chooses the children of its node, by their parts, by
their places in a list or by their types, and not when it takes text from the source.  Places are copied, and they are
the same.

The two trees need not be of the same height, so neither are the steps that lowering takes at most.  `Alike` relates
the lowering of parts with different numbers of steps left, each enough for its tree.

**Main result.** `ofTextBy_blanks`: lowering succeeds for both texts or for none of them, and both give the same
program, except that it may start at another place if the comment comes first.
-/
namespace ScopeExit

open Node SourceNode

namespace Lowering

/-! ### Results that are the same -/

/-- Both results are failures, or they are the same. -/
def Same {α : Type} (x y : Lowered α) : Prop := x.toOption = y.toOption

section

variable {α β : Type} {x y : Lowered α} {f g : α → Lowered β}

theorem Same.refl (x : Lowered α) : Same x x := rfl

theorem Same.pure {a b : α} (h : a = b) : Same (.ok a) (.ok b) := congrArg some h

theorem same_error (e e' : Failure) : Same (.error e : Lowered α) (.error e') := rfl

theorem Same.bind (h : Same x y) (next : ∀ a, Same (f a) (g a)) : Same (x >>= f) (y >>= g) := by
  cases x with
  | error e =>
    cases y with
    | error e' => exact same_error e e'
    | ok b => contradiction
  | ok a =>
    cases y with
    | error e' => contradiction
    | ok b =>
      obtain rfl : a = b := Option.some.inj h
      exact next a

/-- Whatever comes first, there is a failure in the end. -/
theorem same_of_failing {x y : Lowered α} (hf : ∀ a, (f a).toOption = none) (hg : ∀ a, (g a).toOption = none) :
    Same (x >>= f) (y >>= g) := by
  have none {z : Lowered α} {k : α → Lowered β} (fails : ∀ a, (k a).toOption = none) : (z >>= k).toOption = none := by
    cases z with
    | error e => rfl
    | ok a => exact fails a
  exact (none hf).trans (none hg).symm

theorem Same.mapM {γ : Type} {t : α → γ} {f : α → Lowered β} {g : γ → Lowered β} {l : List α}
    (h : ∀ a ∈ l, Same (f a) (g (t a))) : Same (l.mapM f) ((l.map t).mapM g) := by
  induction l with
  | nil => exact .refl _
  | cons a l ih =>
    rw [List.map_cons, List.mapM_cons, List.mapM_cons]
    refine (h a List.mem_cons_self).bind fun b => ?_
    exact (ih fun a' mem => h a' (List.mem_cons_of_mem a mem)).bind fun bs => .refl _

end

/-! ### Lowering side by side -/

/-- The lowering of the parts of nodes of a text with a comment, and of the text with blanks in its place. -/
structure Alike (lo lo' : Lowering) (low high most most' : Nat) : Prop where
  language : lo'.language = lo.language
  source : Source.Agree lo.source lo'.source low high
  /-- A comment is lowered to nothing. -/
  comment : ∀ {n : SourceNode}, n.isComment = true → n.height ≤ most → lo.statement n = .ok .emptyNode
  statement : ∀ {n : SourceNode}, n.Fits low high most most' →
    Same (lo.statement n) (lo'.statement (n.without low high))
  expression : ∀ {n : SourceNode}, n.Fits low high most most' →
    Same (lo.expression n) (lo'.expression (n.without low high))

/-- The statements of several nodes, without those that leave no trace. -/
def statementsOf (f : SourceNode → Lowered Node) (cs : List SourceNode) : Lowered (List Node) := do
  let lowered ← cs.mapM f
  pure (lowered.filter fun s => !s.isEmpty)

theorem statementsOf_cons (f : SourceNode → Lowered Node) (c : SourceNode) (cs : List SourceNode) :
    statementsOf f (c :: cs) = (do
      let s ← f c
      let others ← statementsOf f cs
      pure (if !s.isEmpty then s :: others else others)) := by
  unfold statementsOf
  rw [List.mapM_cons]
  cases f c with
  | error e => rfl
  | ok s =>
    cases cs.mapM f with
    | error e => rfl
    | ok ss => exact congrArg Except.ok List.filter_cons

/-- The texts of several nodes, one after the other. -/
def textsOf (f : SourceNode → Lowered Text) (cs : List SourceNode) : Lowered Text := do
  pure (Text.concat (← cs.mapM f))

theorem textsOf_cons (f : SourceNode → Lowered Text) (c : SourceNode) (cs : List SourceNode) :
    textsOf f (c :: cs) = (do
      let t ← f c
      let others ← textsOf f cs
      pure (t ++ others)) := by
  unfold textsOf
  rw [List.mapM_cons]
  cases f c with
  | error e => rfl
  | ok t =>
    cases cs.mapM f with
    | error e => rfl
    | ok ts => exact congrArg Except.ok (Text.concat_cons t ts)

section Rules

variable {lo lo' : Lowering} {low high most most' : Nat} {n c : SourceNode} (h : Alike lo lo' low high most most')

/-! ### Parts -/

section

variable {β : Type} {o : Option SourceNode} {f g : SourceNode → Lowered β}

/-- A node that is used if it is there, in whatever way it is a failure that it is not. -/
theorem same_found {F : Option SourceNode → Lowered SourceNode} {e : Failure} (there : ∀ c, F (some c) = .ok c)
    (missing : F none = .error e) (next : ∀ c ∈ o, Same (f c) (g (c.without low high))) :
    Same (F o >>= f) (F (o.map (without low high)) >>= g) := by
  cases o with
  | none =>
    rw [Option.map_none, missing]
    exact same_error e e
  | some c =>
    rw [Option.map_some, there, there]
    exact next c rfl

variable (next : ∀ c ∈ o, Same (f c) (g (c.without low high)))
include next

theorem same_present : Same (present o >>= f) (present (o.map (without low high)) >>= g) :=
  same_found (fun _ => rfl) rfl next

theorem same_element : Same (element o >>= f) (element (o.map (without low high)) >>= g) :=
  same_found (fun _ => rfl) rfl next

theorem same_sought : Same (sought o >>= f) (sought (o.map (without low high)) >>= g) :=
  same_found (fun _ => rfl) rfl next

end

include h

theorem Alike.span (n : SourceNode) : lo'.span (n.without low high) = lo.span n := by
  rw [Lowering.span, Lowering.span, start_without, stop_without, h.source.span]

theorem Alike.plain (kind : NodeKind) (n : SourceNode) (children : List Node) :
    lo'.plain kind (n.without low high) children = lo.plain kind n children := by
  rw [Lowering.plain, Lowering.plain, h.span]

theorem Alike.unsupported {α : Type} (n : SourceNode) (what : String) :
    (lo'.unsupported (n.without low high) what : Lowered α) = lo.unsupported n what := by
  rw [Lowering.unsupported, Lowering.unsupported, h.span]

theorem Alike.literal (n : SourceNode) (value : Datum) :
    lo'.literal (n.without low high) value = lo.literal n value := by
  rw [Lowering.literal, Lowering.literal, h.span]

theorem Alike.textOf {start stop : Nat} (clear : Source.Clear low high start stop) :
    lo'.textOf start stop = lo.textOf start stop := by
  unfold Lowering.textOf
  rw [h.source.text? clear]

theorem Alike.text (clear : Source.Clear low high n.start n.stop) : lo'.text (n.without low high) = lo.text n := by
  rw [Lowering.text, Lowering.text, start_without, stop_without, h.textOf clear]

variable (hn : n.Fits low high (most + 1) (most' + 1))
include hn

theorem Alike.expressionPart (field : String) (other : field ≠ "body") :
    Same (lo.expressionPart (n.part? field)) (lo'.expressionPart ((n.without low high).part? field)) := by
  rw [hn.own.part? field (.inl other)]
  exact same_present fun c part => h.expression (hn.part (.inl other) part)

theorem Alike.statementPart (field : String) (steady : field ≠ "body" ∨ n.isClause = false) :
    Same (lo.statementPart (n.part? field)) (lo'.statementPart ((n.without low high).part? field)) := by
  rw [hn.own.part? field steady]
  exact same_present fun c part => h.statement (hn.part steady part)

theorem Alike.optionalFirst : Same (lo.optionalFirst n) (lo'.optionalFirst (n.without low high)) := by
  unfold Lowering.optionalFirst
  rw [named_without]
  cases named : n.named with
  | nil => exact .refl _
  | cons e rest =>
    exact (h.expression (hn.named (named ▸ List.mem_cons_self))).bind fun e => .refl _

/-! ### Statements -/

/-- Where a comment is among statements, nothing is left out. -/
theorem Alike.statementsOf {cs : List SourceNode} (among : ∀ c ∈ cs, c ∈ n.children) :
    Same (statementsOf lo.statement cs) (statementsOf lo'.statement (withoutAll low high cs)) := by
  induction cs with
  | nil => exact .refl _
  | cons c cs ih =>
    obtain ⟨mem, others⟩ := List.forall_mem_cons.mp among
    rw [withoutAll, statementsOf_cons]
    split
    · rename_i gone
      rw [h.comment (isComment_of_isCommentAt gone) (height_le_of_mem mem hn.height)]
      show Same (Lowering.statementsOf lo.statement cs >>= fun others => pure others) _
      rw [bind_pure]
      exact ih others
    · rename_i kept
      rw [statementsOf_cons]
      refine (h.statement (hn.child mem (Bool.not_eq_true _ ▸ kept))).bind fun s => ?_
      exact (ih others).bind fun ss => .refl _

theorem Alike.statements : Same (lo.statements n) (lo'.statements (n.without low high)) := by
  have chosen : ((n.without low high).children.filter SourceNode.isNamed) =
      withoutAll low high (n.children.filter SourceNode.isNamed) := by
    rw [children_without, filter_withoutAll fun c => isNamed_without low high c]
  show Same (Lowering.statementsOf _ _) (Lowering.statementsOf _ _)
  rw [chosen]
  exact h.statementsOf hn fun c mem => List.mem_of_mem_filter mem

theorem Alike.block : Same (lo.block n) (lo'.block (n.without low high)) :=
  (h.statements hn).bind fun _ => .pure (h.plain _ _ _).symm

theorem Alike.expressionStatement :
    Same (lo.expressionStatement n) (lo'.expressionStatement (n.without low high)) := by
  unfold Lowering.expressionStatement
  rw [named_without]
  cases named : n.named with
  | nil => exact .refl _
  | cons e rest =>
    exact (h.expression (hn.named (named ▸ List.mem_cons_self))).bind fun e => .pure (h.plain _ _ _).symm

theorem Alike.returnStatement : Same (lo.returnStatement n) (lo'.returnStatement (n.without low high)) :=
  (h.optionalFirst hn).bind fun _ => .pure (h.plain _ _ _).symm

theorem Alike.throwStatement : Same (lo.throwStatement n) (lo'.throwStatement (n.without low high)) := by
  unfold Lowering.throwStatement
  rw [named_without, List.isEmpty_map]
  split
  · exact same_error _ _
  · exact (h.optionalFirst hn).bind fun _ => .pure (h.plain _ _ _).symm

theorem Alike.jump (kind : NodeKind) : Same (lo.jump kind n) (lo'.jump kind (n.without low high)) := by
  have label : lo'.jumpLabel (n.without low high) = lo.jumpLabel n := by
    unfold Lowering.jumpLabel
    rw [hn.own.part? "label" (.inl (by decide))]
    cases part : n.part? "label" with
    | none => rfl
    | some l =>
      show (do pure (some (← lo'.text (l.without low high)))) = _
      rw [h.text (hn.own.token "label" (by decide) l part)]
  unfold Lowering.jump
  rw [label, h.span]
  exact .refl _

omit hn in
/-- The statement after `else`. -/
theorem Alike.alternative (hc : c.Fits low high most most') :
    Same (lo.alternative c) (lo'.alternative (c.without low high)) := by
  unfold Lowering.alternative
  rw [named_without, type_without]
  cases named : c.named with
  | nil => exact h.statement hc
  | cons s rest =>
    show Same (if _ then _ else _) (if _ then _ else _)
    split
    · exact h.statement (hc.mono.named (named ▸ List.mem_cons_self))
    · exact h.statement hc

theorem Alike.ifStatement : Same (lo.ifStatement n) (lo'.ifStatement (n.without low high)) := by
  refine (h.expressionPart hn "condition" (by decide)).bind fun condition => ?_
  refine (h.statementPart hn "consequence" (.inl (by decide))).bind fun consequence => ?_
  rw [hn.own.part? "alternative" (.inl (by decide))]
  cases part : n.part? "alternative" with
  | none => exact .pure (h.plain _ _ _).symm
  | some a =>
    exact (h.alternative (hn.part (.inl (by decide)) part)).bind fun s => .pure (h.plain _ _ _).symm

theorem Alike.whileStatement (plain : n.isClause = false) :
    Same (lo.whileStatement n) (lo'.whileStatement (n.without low high)) := by
  refine (h.expressionPart hn "condition" (by decide)).bind fun condition => ?_
  refine (h.statementPart hn "body" (.inr plain)).bind fun body => ?_
  exact .pure (h.plain _ _ _).symm

theorem Alike.doStatement (plain : n.isClause = false) :
    Same (lo.doStatement n) (lo'.doStatement (n.without low high)) := by
  refine (h.statementPart hn "body" (.inr plain)).bind fun body => ?_
  refine (h.expressionPart hn "condition" (by decide)).bind fun condition => ?_
  exact .pure (h.plain _ _ _).symm

omit h hn in
theorem isBlankPart_without : isBlankPart (n.without low high) = isBlankPart n := by
  rw [isBlankPart, isBlankPart, type_without]

theorem Alike.loopCondition :
    Same (lo.loopCondition (n.part? "condition")) (lo'.loopCondition ((n.without low high).part? "condition")) := by
  rw [hn.own.part? "condition" (.inl (by decide))]
  cases part : n.part? "condition" with
  | none => exact .refl _
  | some c =>
    have hc := hn.part (.inl (by decide)) part
    rw [Option.map_some]
    unfold Lowering.loopCondition
    dsimp only
    rw [isBlankPart_without, type_without, named_without]
    split
    · exact .refl _
    · split
      · cases named : c.named with
        | nil => exact .refl _
        | cons e rest => exact h.expression (hc.mono.named (named ▸ List.mem_cons_self))
      · exact h.expression hc

theorem Alike.loopStart :
    Same (lo.loopStart (n.part? "initializer")) (lo'.loopStart ((n.without low high).part? "initializer")) := by
  rw [hn.own.part? "initializer" (.inl (by decide))]
  cases part : n.part? "initializer" with
  | none => exact .refl _
  | some c =>
    have hc := hn.part (.inl (by decide)) part
    rw [Option.map_some]
    unfold Lowering.loopStart
    dsimp only
    rw [isBlankPart_without, type_without, h.language]
    split
    · exact .refl _
    · split
      · exact h.statement hc
      · exact (h.expression hc).bind fun e => .pure (h.plain _ _ _).symm

theorem Alike.forStatement (plain : n.isClause = false) :
    Same (lo.forStatement n) (lo'.forStatement (n.without low high)) := by
  refine (h.loopStart hn).bind fun start => ?_
  refine (h.loopCondition hn).bind fun condition => ?_
  have finish (step : Node) : Same (do
      let body ← lo.statementPart (n.part? "body")
      pure (lo.plain .forLoop n [start, condition, step, body])) (do
      let body ← lo'.statementPart ((n.without low high).part? "body")
      pure (lo'.plain .forLoop (n.without low high) [start, condition, step, body])) :=
    (h.statementPart hn "body" (.inr plain)).bind fun body => .pure (h.plain _ _ _).symm
  have step : ((n.without low high).part? "increment").or ((n.without low high).part? "update") =
      ((n.part? "increment").or (n.part? "update")).map (without low high) := by
    rw [hn.own.part? "increment" (.inl (by decide)), hn.own.part? "update" (.inl (by decide)), Option.map_or]
  rw [step]
  cases found : (n.part? "increment").or (n.part? "update") with
  | none => exact finish .emptyNode
  | some u =>
    have hu : u.Fits low high most most' := by
      rcases Option.or_eq_some_iff.mp found with part | ⟨-, part⟩
      · exact hn.part (.inl (by decide)) part
      · exact hn.part (.inl (by decide)) part
    exact (h.expression hu).bind fun step => finish step

theorem Alike.labeledStatement (plain : n.isClause = false) :
    Same (lo.labeledStatement n) (lo'.labeledStatement (n.without low high)) := by
  unfold Lowering.labeledStatement Lowering.part
  rw [hn.own.part? "label" (.inl (by decide))]
  refine same_present fun l part => ?_
  rw [h.text (hn.own.token "label" (by decide) l part)]
  refine (Same.refl _).bind fun label => (h.statementPart hn "body" (.inr plain)).bind fun body => ?_
  rw [h.span]
  exact .refl _

omit hn in
/-- Names and numbers are read as they stand, and so are the pieces of texts. -/
theorem Alike.verbatim (hc : c.Spares low high) {type : String} (typed : c.type = type) (known : type ∈ verbatimTypes) :
    lo'.text (c.without low high) = lo.text c :=
  h.text (hc.verbatim (typed ▸ known))

omit hn in
/-- A name where other patterns are unsupported. -/
theorem Alike.nameOf {β : Type} {d : SourceNode} {what : String} {f g : Text → Lowered β} (hc : c.Spares low high)
    (next : ∀ t, Same (f t) (g t)) :
    Same (if c.type != "identifier" then lo.unsupported d what else lo.text c >>= f)
      (if (c.without low high).type != "identifier" then lo'.unsupported (d.without low high) what
      else lo'.text (c.without low high) >>= g) := by
  rw [type_without]
  split
  · exact same_error _ _
  · rename_i identifier
    rw [h.verbatim hc (by simpa using identifier) (by decide)]
    exact (Same.refl (lo.text c)).bind next

theorem Alike.declarator : Same (lo.declarator n) (lo'.declarator (n.without low high)) := by
  unfold Lowering.declarator Lowering.part
  rw [hn.own.part? "name" (.inl (by decide)), hn.own.part? "value" (.inl (by decide)), h.span]
  refine same_present fun name part => h.nameOf (hn.part (.inl (by decide)) part).own fun name => ?_
  cases part : n.part? "value" with
  | none => exact .refl _
  | some v => exact (h.expression (hn.part (.inl (by decide)) part)).bind fun e => .refl _

theorem Alike.declaration (inner : n.type ≠ "program") :
    Same (lo.declaration n) (lo'.declaration (n.without low high)) := by
  have declarators : ((n.without low high).children.filter fun c => c.type == "variable_declarator") =
      (n.children.filter fun c => c.type == "variable_declarator").map (without low high) := by
    rw [children_without]
    exact filter_withoutAll_map (fun c => by rw [type_without]) fun c _ chosen =>
      isComment_of_type (beq_iff_eq.mp chosen) (by decide)
  unfold Lowering.declaration
  rw [hn.own.head? inner, declarators]
  refine same_element fun kind _ => ?_
  refine (Same.mapM fun c mem => ?_).bind fun declarators => .pure (by rw [h.span, type_without])
  obtain ⟨mem, chosen⟩ := List.mem_filter.mp mem
  have other : c.isComment = false := isComment_of_type (beq_iff_eq.mp chosen) (by decide)
  exact h.declarator (hn.child mem (isCommentAt_of_other other)).mono

omit hn in
/-- A loop variable is found however many steps are left, if they are enough for the tree. -/
theorem Alike.loopVariable {fuel fuel' : Nat} (hc : c.Fits low high fuel fuel') :
    Same (lo.loopVariable fuel c) (lo'.loopVariable fuel' (c.without low high)) := by
  induction fuel generalizing fuel' c with
  | zero => exact absurd c.height_pos (Nat.not_lt.mpr hc.height)
  | succ fuel ih =>
    cases fuel' with
    | zero => exact absurd (c.without low high).height_pos (Nat.not_lt.mpr hc.height')
    | succ fuel' =>
      unfold Lowering.loopVariable Lowering.part
      rw [type_without, find?_without (by decide)]
      split
      · rename_i identifier
        rw [h.verbatim hc.own (beq_iff_eq.mp identifier) (by decide)]
        exact .refl _
      · split
        · cases declarator : c.children.find? fun d => d.type == "variable_declarator" with
          | none => exact same_error _ _
          | some d =>
            have hd := hc.find? (by decide) declarator
            rw [Option.map_some]
            dsimp only
            rw [hd.own.part? "name" (.inl (by decide))]
            exact same_present fun m part => ih (hd.mono.part (.inl (by decide)) part)
        · exact same_error _ _

theorem Alike.forOfStatement (plain : n.isClause = false) :
    Same (lo.forOfStatement n) (lo'.forOfStatement (n.without low high)) := by
  have finish (isOf : Bool) : Same (α := Node) (if !isOf then lo.unsupported n "for...in loop"
      else if n.hasToken "await" then lo.unsupported n "for await...of loop"
      else do
        let left ← part n "left"
        let name ← lo.loopVariable left.height left
        let iterable ← lo.expressionPart (n.part? "right")
        let body ← lo.statementPart (n.part? "body")
        pure { kind := .forOfLoop, value := .text name, children := [iterable, body], span := lo.span n })
      (if !isOf then lo'.unsupported (n.without low high) "for...in loop"
      else if (n.without low high).hasToken "await" then lo'.unsupported (n.without low high) "for await...of loop"
      else do
        let left ← part (n.without low high) "left"
        let name ← lo'.loopVariable left.height left
        let iterable ← lo'.expressionPart ((n.without low high).part? "right")
        let body ← lo'.statementPart ((n.without low high).part? "body")
        pure { kind := .forOfLoop, value := .text name, children := [iterable, body],
               span := lo'.span (n.without low high) }) := by
    rw [hasToken_without (by decide)]
    split
    · exact same_error _ _
    · split
      · exact same_error _ _
      · unfold Lowering.part
        rw [hn.own.part? "left" (.inl (by decide))]
        refine same_present fun left part => ?_
        have fits : left.Fits low high left.height (left.without low high).height :=
          ⟨(hn.part (.inl (by decide)) part).spared, le_rfl, le_rfl⟩
        refine (h.loopVariable fits).bind fun name => ?_
        refine (h.expressionPart hn "right" (by decide)).bind fun iterable => ?_
        refine (h.statementPart hn "body" (.inr plain)).bind fun body => ?_
        rw [h.span]
        exact .refl _
  unfold Lowering.forOfStatement
  rw [hn.own.part? "operator" (.inl (by decide))]
  cases part : n.part? "operator" with
  | none => exact finish false
  | some o =>
    rw [Option.map_some]
    dsimp only
    rw [h.text (hn.own.token "operator" (by decide) o part)]
    exact Same.bind (.refl (lo.text o)) fun t => finish (t == "of")

theorem Alike.clauseStatements : Same (lo.clauseStatements n) (lo'.clauseStatements (n.without low high)) := by
  unfold Lowering.clauseStatements
  rw [filter_parts_without]
  refine (Same.mapM fun c mem => ?_).bind fun ss => .refl _
  obtain ⟨mem, other⟩ := List.mem_filter.mp mem
  exact h.statement (hn.child (List.mem_of_mem_filter mem) (isCommentAt_of_other (Bool.not_eq_true' _ ▸ other)))

theorem Alike.switchClause : Same (lo.switchClause n) (lo'.switchClause (n.without low high)) := by
  unfold Lowering.switchClause
  rw [type_without]
  refine (h.clauseStatements hn).bind fun body => ?_
  split
  · exact .pure (h.plain _ _ _).symm
  · exact (h.expressionPart hn "value" (by decide)).bind fun test => .pure (h.plain _ _ _).symm

theorem Alike.switchStatement (plain : n.isClause = false) :
    Same (lo.switchStatement n) (lo'.switchStatement (n.without low high)) := by
  unfold Lowering.switchStatement Lowering.part
  rw [hn.own.part? "body" (.inr plain)]
  refine same_present fun body part => ?_
  rw [named_without]
  have clauses : ∀ c ∈ body.named, Same (lo.switchClause c) (lo'.switchClause (c.without low high)) :=
    fun c mem => h.switchClause ((hn.part (.inr plain) part).mono.named mem).mono
  refine (Same.mapM clauses).bind fun clauses => ?_
  exact (h.expressionPart hn "value" (by decide)).bind fun discriminant => .pure (h.plain _ _ _).symm

/-- The block that is a part of a node. -/
theorem Alike.blockPart (plain : n.isClause = false) :
    Same (do lo.block (← part n "body")) (do lo'.block (← part (n.without low high) "body")) := by
  unfold Lowering.part
  rw [hn.own.part? "body" (.inr plain)]
  exact same_present fun body part => h.block (hn.part (.inr plain) part).mono

theorem Alike.catchClause (plain : n.isClause = false) :
    Same (lo.catchClause n) (lo'.catchClause (n.without low high)) := by
  have finish (value : Datum) : Same (α := Node) (do
      let body ← lo.block (← part n "body")
      pure { kind := .catch, value, children := [body], span := lo.span n }) (do
      let body ← lo'.block (← part (n.without low high) "body")
      pure { kind := .catch, value, children := [body], span := lo'.span (n.without low high) }) := by
    rw [h.span, ← bind_assoc, ← bind_assoc]
    exact (h.blockPart hn plain).bind fun body => .refl _
  unfold Lowering.catchClause
  rw [hn.own.part? "parameter" (.inl (by decide))]
  cases part : n.part? "parameter" with
  | none => exact finish .null
  | some p =>
    exact h.nameOf (hn.part (.inl (by decide)) part).own fun name => finish (.text name)

theorem Alike.tryStatement (plain : n.isClause = false) :
    Same (lo.tryStatement n) (lo'.tryStatement (n.without low high)) := by
  have finish (handler finalizer : Node) : Same (do
      let body ← lo.block (← part n "body")
      pure (lo.plain .try n [body, handler, finalizer])) (do
      let body ← lo'.block (← part (n.without low high) "body")
      pure (lo'.plain .try (n.without low high) [body, handler, finalizer])) := by
    rw [← bind_assoc, ← bind_assoc]
    exact (h.blockPart hn plain).bind fun body => .pure (h.plain _ _ _).symm
  have withFinalizer (handler : Node) {f : SourceNode} (found : n.part? "finalizer" = some f) : Same (do
      let finalizer ← lo.block (← part f "body")
      let body ← lo.block (← part n "body")
      pure (lo.plain .try n [body, handler, finalizer])) (do
      let finalizer ← lo'.block (← part (f.without low high) "body")
      let body ← lo'.block (← part (n.without low high) "body")
      pure (lo'.plain .try (n.without low high) [body, handler, finalizer])) := by
    have hf := hn.part (.inl (by decide)) found
    rw [← bind_assoc, ← bind_assoc (part (f.without low high) "body")]
    exact (h.blockPart hf.mono (hf.plain_of_part found)).bind fun finalizer => finish handler finalizer
  unfold Lowering.tryStatement
  rw [hn.own.part? "handler" (.inl (by decide)), hn.own.part? "finalizer" (.inl (by decide))]
  cases handler : n.part? "handler" with
  | none =>
    cases finalizer : n.part? "finalizer" with
    | none => exact finish .emptyNode .emptyNode
    | some f => exact withFinalizer .emptyNode finalizer
  | some c =>
    have hc := hn.part (.inl (by decide)) handler
    refine (h.catchClause hc.mono (hc.plain_of_part handler)).bind fun c => ?_
    cases finalizer : n.part? "finalizer" with
    | none => exact finish c .emptyNode
    | some f => exact withFinalizer c finalizer

/-! ### Expressions -/

theorem Alike.identifier {type : String} (typed : n.type = type) (known : type ∈ verbatimTypes) :
    Same (lo.identifier n) (lo'.identifier (n.without low high)) := by
  unfold Lowering.identifier
  rw [h.verbatim hn.own typed known, h.span]
  exact .refl _

theorem Alike.parenthesized : Same (lo.parenthesized n) (lo'.parenthesized (n.without low high)) := by
  unfold Lowering.parenthesized
  rw [named_without]
  cases named : n.named with
  | nil => exact same_error _ _
  | cons e rest => exact h.expression (hn.named (named ▸ List.mem_cons_self))

theorem Alike.binary (typed : n.type = "binary_expression") :
    Same (lo.binary n) (lo'.binary (n.without low high)) := by
  obtain ⟨o, part⟩ := Option.isSome_iff_exists.mp (hn.own.operator (.inl typed))
  unfold Lowering.binary
  rw [hn.own.part? "operator" (.inl (by decide)), part, Option.map_some]
  dsimp only
  rw [h.text (hn.own.token "operator" (by decide) o part), h.span]
  refine (Same.refl (lo.text o)).bind fun op => ?_
  refine (h.expressionPart hn "left" (by decide)).bind fun left => ?_
  exact (h.expressionPart hn "right" (by decide)).bind fun right => .refl _

theorem Alike.unary (typed : n.type = "unary_expression") :
    Same (lo.unary n) (lo'.unary (n.without low high)) := by
  obtain ⟨o, operator⟩ := Option.isSome_iff_exists.mp (hn.own.operator (.inr typed))
  obtain ⟨a, operand⟩ := Option.isSome_iff_exists.mp (hn.own.operand (.inl typed))
  unfold Lowering.unary
  rw [hn.own.part? "operator" (.inl (by decide)), hn.own.part? "argument" (.inl (by decide)), operator, operand]
  simp only [Option.map_some, pure_bind]
  rw [h.text (hn.own.token "operator" (by decide) o operator), h.span]
  refine (Same.refl (lo.text o)).bind fun op => ?_
  exact (h.expression (hn.part (.inl (by decide)) operand)).bind fun e => .refl _

omit hn in
theorem Alike.target (hc : c.Fits low high most most') : Same (lo.target c) (lo'.target (c.without low high)) := by
  unfold Lowering.target
  rw [type_without, h.unsupported]
  exact (h.expression hc).bind fun t => .refl _

omit h hn in
theorem isUpdateToken_without : isUpdateToken (n.without low high) = isUpdateToken n := by
  rw [isUpdateToken, isUpdateToken, type_without]

theorem Alike.update (typed : n.type = "update_expression") :
    Same (lo.update n) (lo'.update (n.without low high)) := by
  obtain ⟨a, operand⟩ := Option.isSome_iff_exists.mp (hn.own.operand (.inr typed))
  have inner : n.type ≠ "program" := by
    rw [typed]
    decide
  have finish (op : Text) : Same (α := Node) (do
      let first ← element n.children.head?
      pure { kind := .update, value := .text op, isLeading := isUpdateToken first, children := [← lo.target a],
             span := lo.span n }) (do
      let first ← element (n.without low high).children.head?
      pure { kind := .update, value := .text op, isLeading := isUpdateToken first,
             children := [← lo'.target (a.without low high)], span := lo'.span (n.without low high) }) := by
    rw [hn.own.head? inner, h.span]
    refine same_element fun first _ => ?_
    rw [isUpdateToken_without]
    exact (h.target (hn.part (.inl (by decide)) operand)).bind fun t => .refl _
  have token : (n.without low high).children.find? isUpdateToken =
      (n.children.find? isUpdateToken).map (without low high) := by
    rw [children_without]
    refine find?_withoutAll (fun c => isUpdateToken_without) fun c _ chosen => ?_
    rcases Bool.or_eq_true_iff.mp chosen with plus | minus
    · exact isComment_of_type (beq_iff_eq.mp plus) (by decide)
    · exact isComment_of_type (beq_iff_eq.mp minus) (by decide)
  unfold Lowering.update
  rw [hn.own.part? "argument" (.inl (by decide)), hn.own.part? "operator" (.inl (by decide)), operand, token]
  simp only [Option.map_some, pure_bind]
  cases operator : n.part? "operator" with
  | some o =>
    rw [Option.map_some]
    dsimp only
    rw [h.text (hn.own.token "operator" (by decide) o operator)]
    exact (Same.refl (lo.text o)).bind finish
  | none =>
    rw [Option.map_none]
    refine same_sought fun t _ => ?_
    rw [type_without]
    exact finish _

theorem Alike.assignment : Same (lo.assignment n) (lo'.assignment (n.without low high)) := by
  have finish (op : Text) : Same (α := Node) (do
      let left ← lo.target (← part n "left")
      let right ← lo.expressionPart (n.part? "right")
      pure { kind := .assign, value := .text op, children := [left, right], span := lo.span n }) (do
      let left ← lo'.target (← part (n.without low high) "left")
      let right ← lo'.expressionPart ((n.without low high).part? "right")
      pure { kind := .assign, value := .text op, children := [left, right],
             span := lo'.span (n.without low high) }) := by
    unfold Lowering.part
    rw [hn.own.part? "left" (.inl (by decide)), h.span]
    refine same_present fun left part => ?_
    refine (h.target (hn.part (.inl (by decide)) part)).bind fun left => ?_
    exact (h.expressionPart hn "right" (by decide)).bind fun right => .refl _
  unfold Lowering.assignment
  rw [hn.own.part? "operator" (.inl (by decide))]
  cases part : n.part? "operator" with
  | none => exact finish "="
  | some o =>
    rw [Option.map_some]
    dsimp only
    rw [h.text (hn.own.token "operator" (by decide) o part)]
    exact (Same.refl (lo.text o)).bind finish

theorem Alike.expressions : Same (n.named.mapM lo.expression) ((n.without low high).named.mapM lo'.expression) := by
  rw [named_without]
  exact Same.mapM fun c mem => h.expression (hn.named mem)

theorem Alike.row (kind : NodeKind) : Same (lo.row kind n) (lo'.row kind (n.without low high)) :=
  (h.expressions hn).bind fun _ => .pure (h.plain _ _ _).symm

theorem Alike.arguments :
    Same (lo.arguments (n.part? "arguments")) (lo'.arguments ((n.without low high).part? "arguments")) := by
  rw [hn.own.part? "arguments" (.inl (by decide))]
  cases part : n.part? "arguments" with
  | none => exact .refl _
  | some c =>
    rw [Option.map_some]
    unfold Lowering.arguments
    dsimp only
    rw [type_without]
    split
    · exact same_error _ _
    · exact h.expressions (hn.part (.inl (by decide)) part).mono

theorem Alike.call (kind : NodeKind) (field : String) (other : field ≠ "body") :
    Same (lo.call kind field n) (lo'.call kind field (n.without low high)) := by
  refine (h.expressionPart hn field other).bind fun callee => ?_
  exact (h.arguments hn).bind fun arguments => .pure (h.plain _ _ _).symm

theorem Alike.member : Same (lo.member n) (lo'.member (n.without low high)) := by
  unfold Lowering.member Lowering.part
  rw [hn.own.part? "property" (.inl (by decide)), h.span]
  refine same_present fun p part => ?_
  rw [h.text (hn.own.token "property" (by decide) p part)]
  refine (Same.refl (lo.text p)).bind fun name => ?_
  exact (h.expressionPart hn "object" (by decide)).bind fun object => .refl _

theorem Alike.subscript : Same (lo.subscript n) (lo'.subscript (n.without low high)) := by
  refine (h.expressionPart hn "object" (by decide)).bind fun object => ?_
  exact (h.expressionPart hn "index" (by decide)).bind fun key => .pure (h.plain _ _ _).symm

theorem Alike.ternary : Same (lo.ternary n) (lo'.ternary (n.without low high)) := by
  refine (h.expressionPart hn "condition" (by decide)).bind fun condition => ?_
  refine (h.expressionPart hn "consequence" (by decide)).bind fun consequence => ?_
  exact (h.expressionPart hn "alternative" (by decide)).bind fun alternative => .pure (h.plain _ _ _).symm

theorem Alike.awaitExpression : Same (lo.awaitExpression n) (lo'.awaitExpression (n.without low high)) := by
  unfold Lowering.awaitExpression
  rw [named_without, List.head?_map]
  refine same_element fun e first => ?_
  exact (h.expression (hn.named (List.mem_of_head? first))).bind fun e => .pure (h.plain _ _ _).symm

theorem Alike.yieldExpression : Same (lo.yieldExpression n) (lo'.yieldExpression (n.without low high)) := by
  unfold Lowering.yieldExpression
  rw [hasToken_without (by decide)]
  split
  · exact same_error _ _
  · exact (h.optionalFirst hn).bind fun _ => .pure (h.plain _ _ _).symm

omit hn in
theorem Alike.numberOf (hc : c.Spares low high) (typed : c.type = "number") :
    lo'.numberOf (c.without low high) = lo.numberOf c := by
  unfold Lowering.numberOf
  rw [h.verbatim hc typed (by decide)]

omit hn in
theorem Alike.stringPiece (hc : c.Spares low high) : lo'.stringPiece (c.without low high) = lo.stringPiece c := by
  unfold Lowering.stringPiece
  rw [type_without]
  split
  · rename_i fragment
    exact h.verbatim hc (beq_iff_eq.mp fragment) (by decide)
  · split
    · rename_i escape
      rw [h.verbatim hc (beq_iff_eq.mp escape) (by decide)]
    · rfl

/-- A comment adds nothing to the text of a string. -/
theorem Alike.stringValue : Same (lo.stringValue n) (lo'.stringValue (n.without low high)) := by
  have pieces (cs : List SourceNode) (among : ∀ c ∈ cs, c ∈ n.children) :
      Same (textsOf lo.stringPiece cs) (textsOf lo'.stringPiece (withoutAll low high cs)) := by
    induction cs with
    | nil => exact .refl _
    | cons c cs ih =>
      obtain ⟨mem, others⟩ := List.forall_mem_cons.mp among
      rw [withoutAll, textsOf_cons]
      split
      · rename_i gone
        have nothing : lo.stringPiece c = .ok .empty := by
          unfold Lowering.stringPiece
          rw [beq_iff_eq.mp (isComment_of_isCommentAt gone)]
          rfl
        rw [nothing]
        show Same (textsOf lo.stringPiece cs >>= fun others => pure others) _
        rw [bind_pure]
        exact ih others
      · rename_i kept
        rw [textsOf_cons, h.stringPiece (hn.child mem (Bool.not_eq_true _ ▸ kept)).own]
        exact (Same.refl (lo.stringPiece c)).bind fun t => (ih others).bind fun ts => .refl _
  have found := pieces n.children fun c mem => mem
  rw [← children_without] at found
  exact found

omit hn in
theorem Alike.chunk {start stop : Nat} (near : SourceNode) (clear : Source.Clear low high start stop) :
    lo'.chunk start stop (near.without low high) = lo.chunk start stop near := by
  unfold Lowering.chunk
  split
  · rw [h.textOf clear]
    simp only [h.literal]
  · rfl

theorem Alike.templatePieces (cs : List SourceNode) (among : ∀ c ∈ cs, c ∈ n.children) (place : Nat)
    (raw : ∀ s ∈ n.rawStretches place cs, Source.Clear low high s.1 s.2) :
    Same (lo.templatePieces n place cs) (lo'.templatePieces (n.without low high) place (withoutAll low high cs)) := by
  induction cs generalizing place with
  | nil =>
    have clear : Source.Clear low high place (n.stop - 1) := raw (place, n.stop - 1) List.mem_cons_self
    rw [withoutAll, Lowering.templatePieces, Lowering.templatePieces, stop_without, h.chunk n clear]
    exact .refl _
  | cons c rest ih =>
    obtain ⟨mem, others⟩ := List.forall_mem_cons.mp among
    rw [rawStretches] at raw
    rw [withoutAll, Lowering.templatePieces]
    by_cases gone : c.isCommentAt low high = true
    · have typed : c.type = "comment" := beq_iff_eq.mp (isComment_of_isCommentAt gone)
      rw [if_pos gone]
      rw [typed] at raw ⊢
      exact ih others place raw
    · have hc := hn.child mem (Bool.not_eq_true _ ▸ gone)
      rw [if_neg gone, Lowering.templatePieces, type_without, start_without, stop_without]
      split
      · rename_i escape
        rw [if_pos (.inl (beq_iff_eq.mp escape))] at raw
        obtain ⟨before, later⟩ := List.forall_mem_cons.mp raw
        have clear : Source.Clear low high place c.start := before
        rw [h.chunk c clear, h.verbatim hc.own (beq_iff_eq.mp escape) (by decide)]
        refine (Same.refl (lo.chunk place c.start c)).bind fun before => ?_
        refine (Same.refl (lo.text c)).bind fun t => (Same.refl (Source.decodeEscape t)).bind fun value => ?_
        exact (ih others c.stop later).bind fun after => .pure (by rw [h.literal])
      · rename_i escape
        split
        · rename_i substitution
          rw [if_pos (.inr (beq_iff_eq.mp substitution))] at raw
          obtain ⟨before, later⟩ := List.forall_mem_cons.mp raw
          have clear : Source.Clear low high place c.start := before
          rw [h.chunk c clear, named_without, List.head?_map]
          refine (Same.refl (lo.chunk place c.start c)).bind fun before => same_element fun e first => ?_
          refine (h.expression (hc.mono.named (List.mem_of_head? first))).bind fun value => ?_
          exact (ih others c.stop later).bind fun after => .refl _
        · rename_i substitution
          have other : ¬(c.type = "escape_sequence" ∨ c.type = "template_substitution") := by
            rintro (typed | typed)
            · exact escape (beq_iff_eq.mpr typed)
            · exact substitution (beq_iff_eq.mpr typed)
          rw [if_neg other] at raw
          exact ih others place raw

theorem Alike.template (typed : n.type = "template_string") :
    Same (lo.template n) (lo'.template (n.without low high)) := by
  unfold Lowering.template
  rw [start_without, children_without]
  refine (h.templatePieces hn n.children (fun c mem => mem) _ (hn.own.raw typed)).bind fun _ => ?_
  exact .pure (h.plain _ _ _).symm

/-! ### Functions and objects -/

theorem Alike.plainParameter : Same (lo.plainParameter n) (lo'.plainParameter (n.without low high)) := by
  unfold Lowering.plainParameter Lowering.part
  rw [type_without, h.span, h.unsupported, hn.own.part? "left" (.inl (by decide))]
  split
  · rename_i identifier
    rw [h.verbatim hn.own (beq_iff_eq.mp identifier) (by decide)]
    exact .refl _
  · split
    · refine same_present fun left part => h.nameOf (hn.part (.inl (by decide)) part).own fun name => ?_
      exact (h.expressionPart hn "right" (by decide)).bind fun default => .refl _
    · exact .refl _

theorem Alike.typedParameter : Same (lo.typedParameter n) (lo'.typedParameter (n.without low high)) := by
  unfold Lowering.typedParameter
  rw [hn.own.part? "pattern" (.inl (by decide)), hn.own.part? "value" (.inl (by decide)),
    find?_without (by decide), h.span]
  cases pattern : n.part? "pattern" with
  | some p =>
    refine h.nameOf (hn.part (.inl (by decide)) pattern).own fun name => ?_
    cases part : n.part? "value" with
    | none => exact .refl _
    | some d => exact (h.expression (hn.part (.inl (by decide)) part)).bind fun e => .refl _
  | none =>
    cases found : n.children.find? fun c => c.type == "identifier" with
    | none => exact same_error _ _
    | some m =>
      refine h.nameOf (hn.find? (by decide) found).own fun name => ?_
      cases part : n.part? "value" with
      | none => exact .refl _
      | some d => exact (h.expression (hn.part (.inl (by decide)) part)).bind fun e => .refl _

theorem Alike.parameter : Same (lo.parameter n) (lo'.parameter (n.without low high)) := by
  unfold Lowering.parameter
  rw [type_without, h.language]
  split
  · exact h.typedParameter hn
  · exact h.plainParameter hn

theorem Alike.parameters : Same (lo.parameters n) (lo'.parameters (n.without low high)) := by
  unfold Lowering.parameters
  rw [hn.own.part? "parameter" (.inl (by decide)), hn.own.part? "parameters" (.inl (by decide))]
  cases single : n.part? "parameter" with
  | some p =>
    exact (h.parameter (hn.part (.inl (by decide)) single).mono).bind fun p => .refl _
  | none =>
    cases several : n.part? "parameters" with
    | none => exact .refl _
    | some ps =>
      simp only [Option.map_none, Option.map_some]
      rw [named_without]
      exact Same.mapM fun p mem => h.parameter ((hn.part (.inl (by decide)) several).mono.named mem).mono

theorem Alike.function (kind : NodeKind) (plain : n.isClause = false)
    (name : ∀ m ∈ n.part? "name", Source.Clear low high m.start m.stop) :
    Same (lo.function kind n) (lo'.function kind (n.without low high)) := by
  have finish (name : Text) (body : Node) : Same (α := Node) (do
      let params ← lo.parameters n
      pure { kind, value := .text name, params, children := [body], isAsync := n.hasToken "async",
             isGenerator := n.hasToken "*", span := lo.span n }) (do
      let params ← lo'.parameters (n.without low high)
      pure { kind, value := .text name, params, children := [body], isAsync := (n.without low high).hasToken "async",
             isGenerator := (n.without low high).hasToken "*", span := lo'.span (n.without low high) }) := by
    rw [hasToken_without (by decide), hasToken_without (by decide), h.span]
    exact (h.parameters hn).bind fun params => .refl _
  have named (name : Text) : Same (α := Node) (do
      let bodyNode ← part n "body"
      let body ← if bodyNode.type == "statement_block" then lo.block bodyNode else lo.expression bodyNode
      let params ← lo.parameters n
      pure { kind, value := .text name, params, children := [body], isAsync := n.hasToken "async",
             isGenerator := n.hasToken "*", span := lo.span n }) (do
      let bodyNode ← part (n.without low high) "body"
      let body ← if bodyNode.type == "statement_block" then lo'.block bodyNode else lo'.expression bodyNode
      let params ← lo'.parameters (n.without low high)
      pure { kind, value := .text name, params, children := [body], isAsync := (n.without low high).hasToken "async",
             isGenerator := (n.without low high).hasToken "*", span := lo'.span (n.without low high) }) := by
    unfold Lowering.part
    rw [hn.own.part? "body" (.inr plain)]
    refine same_present fun body part => ?_
    have hb := hn.part (.inr plain) part
    rw [type_without]
    split
    · exact (h.block hb.mono).bind (finish name)
    · exact (h.expression hb).bind (finish name)
  unfold Lowering.function
  rw [hn.own.part? "name" (.inl (by decide))]
  cases part : n.part? "name" with
  | none => exact named anonymousName
  | some m =>
    rw [Option.map_some]
    dsimp only
    rw [h.text (name m part)]
    exact (Same.refl (lo.text m)).bind named

omit hn in
theorem Alike.propertyKey (hc : c.Fits low high (most + 1) (most' + 1))
    (key : c.type = "computed_property_name" ∨ Source.Clear low high c.start c.stop) :
    Same (lo.propertyKey c) (lo'.propertyKey (c.without low high)) := by
  unfold Lowering.propertyKey
  rw [type_without]
  split
  · exact h.stringValue hc
  · split
    · rename_i number
      rw [h.numberOf hc.own (beq_iff_eq.mp number)]
      exact .refl _
    · split
      · exact same_error _ _
      · rename_i known
        have clear : Source.Clear low high c.start c.stop :=
          key.resolve_left fun typed => known (beq_iff_eq.mpr typed)
        rw [h.text clear]
        exact .refl _

omit h hn in
theorem property_computed (lo : Lowering) (value : Node) (typed : c.type = "computed_property_name") :
    (do
      let name ← lo.propertyKey (← present (some c))
      pure { kind := .property, value := .text name, children := [value],
             span := lo.span n : Node }).toOption = none := by
  have unsupported : lo.propertyKey c = lo.unsupported c "computed property name" := by
    rw [Lowering.propertyKey, typed]
    rfl
  rw [present]
  show (lo.propertyKey c >>= _).toOption = none
  rw [unsupported]
  rfl

omit hn in
/-- A member of an object literal from its key and its value on. -/
theorem Alike.property (key : Option SourceNode) (value : Node)
    (known : ∀ c ∈ key, c.Fits low high (most + 1) (most' + 1) ∧
      (c.type = "computed_property_name" ∨ Source.Clear low high c.start c.stop)) :
    Same (do
      let name ← lo.propertyKey (← present key)
      pure { kind := .property, value := .text name, children := [value], span := lo.span n : Node }) (do
      let name ← lo'.propertyKey (← present (key.map (without low high)))
      pure { kind := .property, value := .text name, children := [value],
             span := lo'.span (n.without low high) : Node }) := by
  rw [h.span]
  refine same_present fun c mem => ?_
  exact (h.propertyKey (known c mem).1 (known c mem).2).bind fun name => .refl _

/-- A method.  The name of its function is the text of its key, which may be any text if the key is computed. -/
theorem Alike.method (typed : n.type = "method_definition") :
    Same (do
      let value ← lo.function .functionExpression n
      let name ← lo.propertyKey (← present (n.part? "name"))
      pure { kind := .property, value := .text name, children := [value], span := lo.span n : Node }) (do
      let value ← lo'.function .functionExpression (n.without low high)
      let name ← lo'.propertyKey (← present ((n.part? "name").map (without low high)))
      pure { kind := .property, value := .text name, children := [value],
             span := lo'.span (n.without low high) : Node }) := by
  have plain : n.isClause = false := by
    rw [isClause, typed]
    rfl
  have key : keyField? n.type = some "name" := by
    rw [typed]
    rfl
  by_cases computed : ∃ m ∈ n.part? "name", m.type = "computed_property_name"
  · obtain ⟨m, part, computed⟩ := computed
    rw [part]
    refine same_of_failing (fun value => property_computed lo value computed) fun value => ?_
    exact property_computed lo' value ((type_without low high m).trans computed)
  · have clear : ∀ m ∈ n.part? "name", Source.Clear low high m.start m.stop := fun m part =>
      (hn.own.key "name" key m part).resolve_left fun typed => computed ⟨m, part, typed⟩
    refine (h.function hn .functionExpression plain clear).bind fun value => h.property _ value fun m part => ?_
    exact ⟨(hn.part (.inl (by decide)) part).mono, .inr (clear m part)⟩

theorem Alike.objectMember : Same (lo.objectMember n) (lo'.objectMember (n.without low high)) := by
  unfold Lowering.objectMember Lowering.memberValue
  rw [type_without, hn.own.part? "key" (.inl (by decide)), hn.own.part? "name" (.inl (by decide))]
  split
  · rename_i pair
    simp only [bind_assoc, pure_bind]
    have key : keyField? n.type = some "key" := by
      rw [beq_iff_eq.mp pair]
      rfl
    refine (h.expressionPart hn "value" (by decide)).bind fun value => h.property _ value fun c part => ?_
    exact ⟨(hn.part (.inl (by decide)) part).mono, hn.own.key "key" key c part⟩
  · split
    · rename_i shorthand
      simp only [bind_assoc, pure_bind]
      refine (h.identifier hn (beq_iff_eq.mp shorthand) (by decide)).bind fun value => ?_
      refine h.property (some n) value fun c mem => ?_
      cases mem
      exact ⟨hn, .inr (hn.own.verbatim (beq_iff_eq.mp shorthand ▸ by decide))⟩
    · split
      · rename_i method
        simp only [bind_assoc, pure_bind]
        exact h.method hn (beq_iff_eq.mp method)
      · exact same_error _ _

theorem Alike.object : Same (lo.object n) (lo'.object (n.without low high)) := by
  unfold Lowering.object
  rw [named_without]
  refine (Same.mapM fun c mem => ?_).bind fun _ => .pure (h.plain _ _ _).symm
  exact h.objectMember (hn.named mem).mono

/-! ### The rules -/

omit h hn in
theorem plain_of_type {type : String} (typed : n.type = type)
    (other : (type == "switch_case" || type == "switch_default") = false) : n.isClause = false := by
  rw [isClause, typed, other]

theorem Alike.statementRule : Same (lo.statementRule n) (lo'.statementRule (n.without low high)) := by
  unfold Lowering.statementRule
  rw [type_without]
  generalize typed : n.type = type
  split
  · exact h.expressionStatement hn
  · exact h.declaration hn (by rw [typed]; decide)
  · exact h.declaration hn (by rw [typed]; decide)
  · exact h.returnStatement hn
  · exact h.ifStatement hn
  · exact h.whileStatement hn (plain_of_type typed rfl)
  · exact h.doStatement hn (plain_of_type typed rfl)
  · exact h.forStatement hn (plain_of_type typed rfl)
  · exact h.forOfStatement hn (plain_of_type typed rfl)
  · exact h.function hn .function (plain_of_type typed rfl) (hn.own.name (by rw [typed]; decide))
  · exact h.function hn .function (plain_of_type typed rfl) (hn.own.name (by rw [typed]; decide))
  · exact h.throwStatement hn
  · exact h.block hn
  · exact h.jump hn .break
  · exact h.jump hn .continue
  · exact h.tryStatement hn (plain_of_type typed rfl)
  · exact h.switchStatement hn (plain_of_type typed rfl)
  · exact h.labeledStatement hn (plain_of_type typed rfl)
  · exact .refl _

/-- A statement may be an expression in its place, which is then lowered with one step less. -/
theorem Alike.lowerStatement (itself : Same (lo.expression n) (lo'.expression (n.without low high))) :
    Same (lo.lowerStatement n) (lo'.lowerStatement (n.without low high)) := by
  unfold Lowering.lowerStatement
  rw [isComment_without, type_without, h.language]
  split
  · exact .refl _
  · split
    · exact h.statementRule hn
    · exact itself.bind fun e => .pure (h.plain _ _ _).symm

theorem Alike.typed {o : Option SourceNode} (among : ∀ e ∈ o, e ∈ n.named) :
    Same (lo.typed o) (lo'.typed (o.map (without low high))) :=
  same_element fun e mem => h.expression (hn.named (among e mem))

theorem Alike.lowerExpression : Same (lo.lowerExpression n) (lo'.lowerExpression (n.without low high)) := by
  unfold Lowering.lowerExpression
  rw [type_without, named_without, List.head?_map, List.getLast?_map, h.language]
  generalize typed : n.type = type
  split
  · exact h.identifier hn typed (by decide)
  · exact h.identifier hn typed (by decide)
  · rw [h.numberOf hn.own typed]
    exact (Same.refl (lo.numberOf n)).bind fun x => .pure (h.literal _ _).symm
  · exact (h.stringValue hn).bind fun t => .pure (h.literal _ _).symm
  · exact h.template hn typed
  · exact .pure (h.literal _ _).symm
  · exact .pure (h.literal _ _).symm
  · exact .pure (h.literal _ _).symm
  · exact h.binary hn typed
  · exact h.unary hn typed
  · exact h.update hn typed
  · exact h.call hn .call "function" (by decide)
  · exact h.call hn .new "constructor" (by decide)
  · exact h.member hn
  · exact h.subscript hn
  · exact h.parenthesized hn
  · exact h.row hn .array
  · exact h.object hn
  · exact h.assignment hn
  · exact h.assignment hn
  · exact h.function hn .functionExpression (plain_of_type typed rfl) (hn.own.name (by rw [typed]; decide))
  · exact h.function hn .functionExpression (plain_of_type typed rfl) (hn.own.name (by rw [typed]; decide))
  · exact h.function hn .functionExpression (plain_of_type typed rfl) (hn.own.name (by rw [typed]; decide))
  · exact h.function hn .functionExpression (plain_of_type typed rfl) (hn.own.name (by rw [typed]; decide))
  · exact h.ternary hn
  · exact h.awaitExpression hn
  · exact h.yieldExpression hn
  · exact h.row hn .sequence
  · split
    · split
      · exact h.typed hn fun _ => List.mem_of_head?
      · exact h.typed hn fun _ => List.mem_of_head?
      · exact h.typed hn fun _ => List.mem_of_head?
      · exact h.typed hn fun _ => List.mem_of_getLast?
      · exact same_error _ _
    · exact same_error _ _

end Rules

/-! ### All nodes -/

/-- The number of steps that a node in a role does not need of the two for its level. -/
def Role.spare : Role → Nat
  | .statement => 0
  | .expression => 1

theorem Role.spare_le (role : Role) : role.spare ≤ 1 := by cases role <;> decide

section Runs

variable {source source' : Source} {low high : Nat} (agree : Source.Agree source source' low high) (language : Language)

theorem run_comment {n : SourceNode} (comment : n.isComment = true) (fuel : Nat) :
    run source language (fuel + 1) .statement n = .ok .emptyNode := by
  show lowerStatement _ n = _
  unfold lowerStatement
  rw [comment]
  rfl

include agree

theorem alike_of_run {fuel fuel' most most' : Nat} (enough : 2 * most ≤ fuel)
    (same : ∀ role n, n.Fits low high most most' →
      Same (run source language fuel role n) (run source' language fuel' role (n.without low high))) :
    Alike (lowering source language fuel) (lowering source' language fuel') low high most most' where
  language := rfl
  source := agree
  comment := by
    intro n comment fits
    obtain ⟨fuel, rfl⟩ : ∃ f, fuel = f + 1 := ⟨fuel - 1, by have := n.height_pos; omega⟩
    exact run_comment language comment fuel
  statement := same .statement _
  expression := same .expression _

/-- A node is lowered alike whatever steps are left, as long as they are enough for its tree. -/
theorem same_run (fuel : Nat) (role : Role) {fuel' most most' : Nat} {n : SourceNode}
    (enough : 2 * most ≤ fuel + role.spare) (enough' : 2 * most' ≤ fuel' + role.spare)
    (hn : n.Fits low high most most') :
    Same (run source language fuel role n) (run source' language fuel' role (n.without low high)) := by
  induction fuel generalizing role fuel' most most' n with
  | zero =>
    have := role.spare_le
    have := n.height_pos.trans_le hn.height
    omega
  | succ fuel ih =>
    have spare := role.spare_le
    have pos := n.height_pos.trans_le hn.height
    have pos' := (n.without low high).height_pos.trans_le hn.height'
    obtain ⟨fuel', rfl⟩ : ∃ f, fuel' = f + 1 := ⟨fuel' - 1, by omega⟩
    obtain ⟨most, rfl⟩ : ∃ m, most = m + 1 := ⟨most - 1, by omega⟩
    obtain ⟨most', rfl⟩ : ∃ m, most' = m + 1 := ⟨most' - 1, by omega⟩
    have h : Alike (lowering source language fuel) (lowering source' language fuel') low high most most' :=
      alike_of_run agree language (by omega) fun role c hc => ih role (by omega) (by omega) hc
    cases role with
    | expression => exact h.lowerExpression hn
    | statement =>
      have enough : 2 * (most + 1) ≤ fuel + 1 := enough
      have enough' : 2 * (most' + 1) ≤ fuel' + 1 := enough'
      exact h.lowerStatement hn (ih .expression enough enough' hn)

end Runs

end Lowering

/-! ### Programs -/

namespace SourceNode

/-- The tree of a whole text is nested, and it starts with its first child. -/
structure Rooted (root : SourceNode) : Prop where
  nested : root.Nested
  start : ∀ c ∈ root.children.head?, c.start = root.start

/-- A token comes before a place. -/
def HasTokenBefore (place : Nat) (root : SourceNode) : Prop :=
  ∃ n ∈ nodesOfAll root.children, n.children = [] ∧ n.isComment = false ∧ n.start < place

instance (place : Nat) (root : SourceNode) : Decidable (root.HasTokenBefore place) :=
  inferInstanceAs (Decidable (∃ _ ∈ _, _))

/-- The second tree is the first one without a comment, but it may start at another place. -/
def Blanked (low high : Nat) (root root' : SourceNode) : Prop :=
  root' = { root.without low high with start := root'.start }

section

variable {low high : Nat} {root root' : SourceNode} (blanked : root.Blanked low high root')
include blanked

theorem Blanked.children : root'.children = (root.without low high).children := by
  rw [blanked]

theorem Blanked.stop : root'.stop = root.stop := by
  rw [blanked]
  exact stop_without low high root

theorem Blanked.height : root'.height = (root.without low high).height := by
  rw [blanked]
  cases root
  rfl

/-- Where a token comes before the comment, the comment is not what the tree starts with. -/
theorem Blanked.start (rooted : root.Rooted) (rooted' : root'.Rooted) (token : root.HasTokenBefore low) :
    root'.start = root.start := by
  obtain ⟨n, mem, -, -, earlier⟩ := token
  have after : root.start ≤ n.start := (rooted.nested.below (nodes_eq root ▸ List.mem_cons_of_mem root mem)).first
  cases children : root.children with
  | nil =>
    rw [children] at mem
    contradiction
  | cons first rest =>
    have starts : first.start = root.start := rooted.start first (by rw [children]; rfl)
    have kept : first.isCommentAt low high = false := by
      rw [← Bool.not_eq_true]
      intro gone
      have := start_of_isCommentAt gone
      omega
    have first' : root'.children.head? = some (first.without low high) := by
      rw [blanked.children, children_without, children, withoutAll, kept]
      rfl
    rw [← rooted'.start _ first', start_without, starts]

end

end SourceNode

namespace Node

theorem toOption_lower (root : SourceNode) (source : Source) (language : Language) :
    (root.lower source language).toOption =
      ((Lowering.lowering source language (2 * root.height)).statements root).toOption.map
        ((Lowering.lowering source language (2 * root.height)).plain .program root) := by
  unfold SourceNode.lower
  show ((Lowering.lowering source language (2 * root.height)).statements root >>= _).toOption = _
  cases (Lowering.lowering source language (2 * root.height)).statements root <;> rfl

theorem span_of_lower {root : SourceNode} {source : Source} {language : Language} {program : Node}
    (lowered : root.lower source language = .ok program) : program.span = source.span root.start root.stop := by
  have found := toOption_lower root source language
  rw [lowered] at found
  obtain ⟨ss, -, rfl⟩ := Option.map_eq_some_iff.mp found.symm
  rfl

/-- Two trees that differ in a comment have the same program, but for where it starts. -/
theorem lower_blanked {source source' : Source} {low high : Nat} {root root' : SourceNode} (language : Language)
    (agree : Source.Agree source source' low high) (spared : root.Spared low high)
    (blanked : root.Blanked low high root') :
    (root'.lower source' language).toOption =
      (root.lower source language).toOption.map fun p => { p with span := source.span root'.start root.stop } := by
  obtain ⟨most, height⟩ : ∃ m, root.height = m + 1 := ⟨root.height - 1, by have := root.height_pos; omega⟩
  obtain ⟨most', height'⟩ : ∃ m, root'.height = m + 1 := ⟨root'.height - 1, by have := root'.height_pos; omega⟩
  have fits : root.Fits low high (most + 1) (most' + 1) := ⟨spared, height.le, (blanked.height ▸ height').le⟩
  have alike : (Lowering.lowering source language (2 * root.height)).Alike
      (Lowering.lowering source' language (2 * root'.height)) low high most most' :=
    Lowering.alike_of_run agree language (by omega) fun role n hn =>
      Lowering.same_run agree language _ role (by omega) (by omega) hn
  have statements : Lowering.Same ((Lowering.lowering source language (2 * root.height)).statements root)
      ((Lowering.lowering source' language (2 * root'.height)).statements root') := by
    have found := alike.statements fits
    unfold Lowering.statements at found ⊢
    rw [blanked.children]
    exact found
  have program (ss : List Node) : (Lowering.lowering source' language (2 * root'.height)).plain .program root' ss =
      { (Lowering.lowering source language (2 * root.height)).plain .program root ss with
        span := source.span root'.start root.stop } := by
    rw [Lowering.plain, Lowering.span, blanked.stop, alike.source.span]
    rfl
  rw [toOption_lower, toOption_lower, ← statements, Option.map_map]
  exact congrArg (Option.map · _) (funext program)

/-- **Comments are transparent.**  A text is lowered exactly if the text with blanks in place of a comment is, and to
the same program, places included, except that the program may start at another place if no token comes before the
comment. -/
theorem ofTextBy_blanks {read : Language → String → Option SourceNode}
    (rooted : ∀ language text root, read language text = some root → root.Rooted)
    {language : Language} {before comment after : String}
    (alike : Option.Rel (Blanked before.utf8ByteSize (before.utf8ByteSize + comment.utf8ByteSize))
      (read language (before ++ comment ++ after)) (read language (before ++ Source.blanks comment ++ after)))
    (spared : ∀ root ∈ read language (before ++ comment ++ after),
      root.Spared before.utf8ByteSize (before.utf8ByteSize + comment.utf8ByteSize)) :
    (ofTextBy read language (before ++ Source.blanks comment ++ after)).isOk =
        (ofTextBy read language (before ++ comment ++ after)).isOk ∧
      ∀ program program', ofTextBy read language (before ++ comment ++ after) = .ok program →
        ofTextBy read language (before ++ Source.blanks comment ++ after) = .ok program' →
        program' = { program with span := { program.span with startLine := program'.span.startLine,
                                                              startCol := program'.span.startCol } } ∧
          ∀ root ∈ read language (before ++ comment ++ after), root.HasTokenBefore before.utf8ByteSize →
            program' = program := by
  unfold ofTextBy
  cases commented : read language (before ++ comment ++ after) with
  | none =>
    cases blanked : read language (before ++ Source.blanks comment ++ after) with
    | none =>
      refine ⟨rfl, ?_⟩
      rintro program program' ⟨⟩
    | some root' =>
      rw [commented, blanked] at alike
      cases alike
  | some root =>
    cases blanked : read language (before ++ Source.blanks comment ++ after) with
    | none =>
      rw [commented, blanked] at alike
      cases alike
    | some root' =>
      rw [commented, blanked] at alike
      obtain ⟨alike⟩ := alike
      have same := lower_blanked language (Source.agree_blanks before comment after) (spared root commented) alike
      have isOk (x : Lowered Node) : x.isOk = x.toOption.isSome := by cases x <;> rfl
      dsimp only
      refine ⟨by rw [isOk, isOk, same, Option.isSome_map], fun program program' lowered lowered' => ?_⟩
      have span := span_of_lower lowered
      rw [lowered, lowered'] at same
      obtain rfl := Option.some.inj same
      refine ⟨?_, fun other found token => ?_⟩
      · rw [span]
        rfl
      · obtain rfl : root = other := Option.some.inj found
        have start := alike.start (rooted _ _ _ commented) (rooted _ _ _ blanked) token
        rw [start, ← span]
        cases program
        rfl

/-- A `switch` up to a comment between the statements of a clause. -/
def clauseBefore : String := "switch (a) \x7b\n  case 1: b; "

/-- A comment over two lines, in which a character takes two bytes. -/
def clauseComment : String := "/* é\n */"

/-- The rest of the `switch`. -/
def clauseAfter : String := " c;\n\x7d"

/-- The concrete tree of the `switch`, with the comments between the statements. -/
def clauseTree (comments : List SourceNode) : SourceNode :=
  { type := "program", start := 0, stop := 40, children := [
    { type := "switch_statement", start := 0, stop := 40, children := [
      { type := "switch", isNamed := false, start := 0, stop := 6 },
      { type := "parenthesized_expression", field := some "value", start := 7, stop := 10, children := [
        { type := "(", isNamed := false, start := 7, stop := 8 },
        { type := "identifier", start := 8, stop := 9 },
        { type := ")", isNamed := false, start := 9, stop := 10 }] },
      { type := "switch_body", field := some "body", start := 11, stop := 40, children := [
        { type := "\x7b", isNamed := false, start := 11, stop := 12 },
        { type := "switch_case", start := 15, stop := 38, children := [
          { type := "case", isNamed := false, start := 15, stop := 19 },
          { type := "number", field := some "value", start := 20, stop := 21 },
          { type := ":", isNamed := false, start := 21, stop := 22 },
          { type := "expression_statement", field := some "body", start := 23, stop := 25, children := [
            { type := "identifier", start := 23, stop := 24 },
            { type := ";", isNamed := false, start := 24, stop := 25 }] }] ++ comments ++ [
          { type := "expression_statement", field := some "body", start := 36, stop := 38, children := [
            { type := "identifier", start := 36, stop := 37 },
            { type := ";", isNamed := false, start := 37, stop := 38 }] }] },
        { type := "\x7d", isNamed := false, start := 39, stop := 40 }] }] }] }

/-- A reader that knows the `switch`, with the comment and with blanks in its place. -/
def readClause (_ : Language) (text : String) : Option SourceNode :=
  if text = clauseBefore ++ clauseComment ++ clauseAfter then
    some (clauseTree [{ type := "comment", start := 26, stop := 35 }])
  else if text = clauseBefore ++ Source.blanks clauseComment ++ clauseAfter then some (clauseTree [])
  else none

theorem rooted_readClause (language : Language) (text : String) (root : SourceNode)
    (h : readClause language text = some root) : root.Rooted := by
  unfold readClause at h
  split at h
  · cases h
    exact ⟨by decide +kernel, by decide +kernel⟩
  · split at h
    · cases h
      exact ⟨by decide +kernel, by decide +kernel⟩
    · contradiction

/-- The `switch` has the same program with the comment and with blanks. -/
theorem ofTextBy_blanks_clause :
    ∃ program, ofTextBy readClause .javascript (clauseBefore ++ clauseComment ++ clauseAfter) = .ok program ∧
      ofTextBy readClause .javascript (clauseBefore ++ Source.blanks clauseComment ++ clauseAfter) = .ok program := by
  have commented : readClause .javascript (clauseBefore ++ clauseComment ++ clauseAfter) =
      some (clauseTree [{ type := "comment", start := 26, stop := 35 }]) := if_pos rfl
  have other : clauseBefore ++ Source.blanks clauseComment ++ clauseAfter ≠
      clauseBefore ++ clauseComment ++ clauseAfter := by decide +kernel
  have blanked : readClause .javascript (clauseBefore ++ Source.blanks clauseComment ++ clauseAfter) =
      some (clauseTree []) := (if_neg other).trans (if_pos rfl)
  have alike : Option.Rel (Blanked clauseBefore.utf8ByteSize (clauseBefore.utf8ByteSize + clauseComment.utf8ByteSize))
      (readClause .javascript (clauseBefore ++ clauseComment ++ clauseAfter))
      (readClause .javascript (clauseBefore ++ Source.blanks clauseComment ++ clauseAfter)) := by
    rw [commented, blanked]
    exact .some (by rfl)
  have spared : ∀ root ∈ readClause .javascript (clauseBefore ++ clauseComment ++ clauseAfter),
      root.Spared clauseBefore.utf8ByteSize (clauseBefore.utf8ByteSize + clauseComment.utf8ByteSize) := by
    rw [commented]
    rintro root ⟨⟩
    decide +kernel
  have ok : (ofTextBy readClause .javascript (clauseBefore ++ clauseComment ++ clauseAfter)).isOk = true := by
    decide +kernel
  obtain ⟨both, same⟩ := ofTextBy_blanks rooted_readClause alike spared
  obtain ⟨program, lowered⟩ := exists_of_isOk ok
  obtain ⟨program', lowered'⟩ := exists_of_isOk (both.trans ok)
  have token : (clauseTree [{ type := "comment", start := 26, stop := 35 }]).HasTokenBefore
      clauseBefore.utf8ByteSize := by decide +kernel
  obtain rfl := (same program program' lowered lowered').2 _ commented token
  exact ⟨program', lowered, lowered'⟩

end Node

end ScopeExit
