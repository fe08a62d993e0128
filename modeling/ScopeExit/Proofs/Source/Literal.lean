import ScopeExit.Proofs.Source.Token
import ScopeExit.Proofs.Source.Lowering
import ScopeExit.Proofs.Tree.Listing
/-!
Strings and templates are lowered piece by piece.

The two kinds of literals are read in different ways.  A string puts together what its tokens stand for.  A template
goes over its nodes with the place up to which it has read: fragments are passed over, and the raw text before an
escape or a substitution is taken from the source, from that place to the start of the node.  So the place has to keep
up with the nodes; nothing may be read twice and nothing left out, whatever number of bytes the characters take.

The nodes of a literal are those that the scanners find in its text.  What stands in a substitution is left open, as
is the lowering of the expression there.

**Main result.** `literal_pieces`: a string stands for the concatenation of what its pieces stand for, and so do the
literals between two substitutions of a template.  No null character may be among the pieces, since a text that holds
one is malformed.
-/
namespace ScopeExit.Literal

open Lowering

/-! ### Tokens in a source -/

section

variable {lo : Lowering} {place : Nat}

theorem ofString_ofList (cs : List Char) : Text.ofString (.ofList cs) = .ofChars cs := by
  rw [Text.ofString, String.toList_ofList]

/-- The text of a stretch of the source. -/
theorem textOf_holds {t : String} (holds : lo.source.Holds place t) :
    lo.textOf place (place + t.utf8ByteSize) = .ok (.ofString t) := by
  rw [Lowering.textOf, holds.text?]

theorem Cut.text_draft (c : Cut) : c.draft.text = .ofList c.chars := by
  cases c <;> exact Draft.text_leaf _ _ _

theorem text_cuts (cs : List Cut) : Draft.textOfAll (cs.map Cut.draft) = .ofList (cs.flatMap Cut.chars) := by
  induction cs with
  | nil => rfl
  | cons c cs ih => rw [List.map_cons, Draft.textOfAll, ih, c.text_draft, List.flatMap_cons, String.ofList_append]

/-- The node of a token. -/
def Cut.node (c : Cut) (place : Nat) : SourceNode :=
  { type := match c with
      | fragment _ => "string_fragment"
      | escape .. => "escape_sequence",
    start := place, stop := place + (String.ofList c.chars).utf8ByteSize }

theorem Cut.place_draft (c : Cut) : c.draft.place place = [c.node place] := by
  cases c <;> exact Draft.place_leaf _ _ _ _

theorem text_node {c : Cut} (holds : lo.source.Holds place (.ofList c.chars)) :
    lo.text (c.node place) = .ok (.ofChars c.chars) := by
  rw [← ofString_ofList]
  exact textOf_holds holds

/-! ### Strings -/

theorem stringPiece_node {c : Cut} (reads : c.Reads) (holds : lo.source.Holds place (.ofList c.chars)) :
    lo.stringPiece (c.node place) = .ok c.meaning := by
  cases c with
  | fragment run =>
    show lo.text ((Cut.fragment run).node place) = _
    exact text_node holds
  | escape chars meaning =>
    show (do Source.decodeEscape (← lo.text ((Cut.escape chars meaning).node place))) = _
    rw [text_node holds]
    exact reads

/-- The tokens of a string stand for what they stand for each. -/
theorem mapM_stringPiece {cs : List Cut} (reads : ∀ c ∈ cs, c.Reads)
    (holds : lo.source.Holds place (.ofList (cs.flatMap Cut.chars))) :
    (Draft.placeAll place (cs.map Cut.draft)).mapM lo.stringPiece = .ok (cs.map Cut.meaning) := by
  induction cs generalizing place with
  | nil => rfl
  | cons c cs ih =>
    rw [List.flatMap_cons, String.ofList_append] at holds
    have first := stringPiece_node (reads c List.mem_cons_self) holds.left
    have others := ih (fun d hd => reads d (List.mem_cons_of_mem c hd)) holds.right
    rw [List.map_cons, Draft.placeAll, c.place_draft, Draft.size, c.text_draft, List.singleton_append, List.mapM_cons,
      first, others]
    rfl

end

/-- The token that starts and ends a literal. -/
def Quote.mark (q : Quote) : String := .ofList [q.char]

/-- A string with the given text between its quotes. -/
def stringDraft (q : Quote) (field : Option String) (chars : List Char) : Draft :=
  .node "string" true field (.mark q.mark :: (q.tokensOf (chars ++ [q.char]) ++ [.mark q.mark]))

section

variable {q : Quote} {ps : List Piece} {lo : Lowering} {place : Nat} {n : SourceNode} {field : Option String}

theorem text_stringDraft (clear : q.Clear ps) :
    (stringDraft q field (spelling ps)).text = q.mark ++ (.ofList (spelling ps) ++ q.mark) := by
  have tokens := q.tokensOf_spelling clear (.inl ⟨[], rfl⟩)
  rw [stringDraft, tokens, Draft.text, Draft.textOfAll, Draft.textOfAll_append, text_cuts, chars_cuts]
  simp only [Draft.textOfAll, Draft.text_mark, String.append_empty]

/-- A string is lowered to the text that its pieces stand for. -/
theorem lower_string (clear : q.Clear ps) (stands : (stringDraft q field (spelling ps)).Stands lo.source n) :
    lo.lowerExpression n = .ok (lo.literal n (.text (meaning ps))) := by
  obtain ⟨place, holds, placed⟩ := stands
  have tokens := q.tokensOf_spelling clear (.inl ⟨[], rfl⟩)
  rw [text_stringDraft clear] at holds
  obtain rfl := (List.cons.inj placed).1
  -- the quotes are tokens that stand for nothing
  have quote (place : Nat) : lo.stringPiece
      { type := q.mark, isNamed := false, start := place, stop := place + q.mark.utf8ByteSize, children := [] } =
        .ok .empty := by
    cases q <;> rfl
  have middle := mapM_stringPiece (reads_cuts ps) (by rw [chars_cuts]; exact holds.right.left)
  have size (t : String) : (Draft.mark t).size = t.utf8ByteSize := by rw [Draft.size, Draft.text_mark]
  show (do pure (lo.literal _ (.text (← lo.stringValue _)))) = _
  rw [Lowering.stringValue]
  dsimp only
  rw [tokens, Draft.placeAll, Draft.place_mark, Draft.placeAll_append, Draft.placeAll, Draft.place_mark, Draft.placeAll,
    size, List.append_nil, List.singleton_append, List.mapM_cons, quote, List.mapM_append, middle, List.mapM_cons, quote]
  have value : Text.concat (.empty :: ((cuts ps).map Cut.meaning ++ [.empty])) = meaning ps := by
    rw [← meaning_cuts]
    apply Text.ext
    simp [Text.concat]
  rw [← value]
  rfl

end

/-! ### Templates -/

/-- A stretch of a template between two substitutions, as pieces. -/
abbrev Segment := List Piece

/-- A substitution with whatever stands between its braces. -/
def substitution (inner : List Draft) : Draft :=
  .node "template_substitution" true none (.mark "$\x7b" :: (inner ++ [.mark "\x7d"]))

/-- What stands behind a segment: the start of a substitution, or the end of the template. -/
def behind : List (List Draft × Segment) → List Char
  | [] => ['\x60']
  | _ :: _ => ['$', '\x7b']

/-- The tokens of a segment. -/
def segmentDrafts (ps : Segment) (others : List (List Draft × Segment)) : List Draft :=
  Quote.template.tokensOf (spelling ps ++ behind others)

/-- A template from a substitution on, or its end. -/
def templateRest : List (List Draft × Segment) → List Draft
  | [] => [.mark "\x60"]
  | (inner, ps) :: others => substitution inner :: (segmentDrafts ps others ++ templateRest others)

/-- A template that is made of a segment, and then of substitutions with a segment behind each of them. -/
def templateDraft (field : Option String) (first : Segment) (others : List (List Draft × Segment)) : Draft :=
  .node "template_string" true field (.mark "\x60" :: (segmentDrafts first others ++ templateRest others))

/-- Literals with the given texts. -/
def Literals (lo : Lowering) (ts : List Text) (ls : List Node) : Prop :=
  List.Forall₂ (fun t l => ∃ near, l = lo.literal near (.text t)) ts ls

/-- Literals that stand for a segment.  An empty one is there only for the end of a line behind a backslash. -/
def Spells (lo : Lowering) (ps : Segment) (ls : List Node) : Prop :=
  ∃ ts : List Text, Literals lo ts ls ∧ Text.concat ts = meaning ps ∧
    ts.countP Text.isEmpty = ps.countP Piece.isContinuation

/-- Nodes that stand for segments with a value between each two of them. -/
inductive Interleaves (lo : Lowering) : Segment → List Segment → List Node → List Node → Prop
  | last {ps : Segment} {ls : List Node} (spells : Spells lo ps ls) : Interleaves lo ps [] [] ls
  | next {ps ps' : Segment} {pss : List Segment} {ls vs ns : List Node} {v : Node} (spells : Spells lo ps ls)
      (rest : Interleaves lo ps' pss vs ns) : Interleaves lo ps (ps' :: pss) (v :: vs) (ls ++ v :: ns)

/-- The lowering of what stands in a substitution. -/
def substituted (lo : Lowering) (n : SourceNode) : Lowered Node := do lo.expression (← element n.named.head?)

/-- The substitutions of a template. -/
def isSubstitution (n : SourceNode) : Bool := n.type == "template_substitution"

/-! ### Raw text -/

/-- The text of a run of raw characters, if there are any. -/
def rawTexts : List Char → List Text
  | [] => []
  | run => [.ofChars run]

/-- The texts up to the last escape among tokens, and the raw characters behind it.  There are raw characters before
the tokens already. -/
def flush : List Char → List Cut → List Text × List Char
  | pending, [] => ([], pending)
  | pending, .fragment run :: cs => flush (pending ++ run) cs
  | pending, .escape _ meaning :: cs => (rawTexts pending ++ meaning :: (flush [] cs).1, (flush [] cs).2)

section

variable (run pending : List Char) (cs : List Cut)

theorem concat_rawTexts : Text.concat (rawTexts run) = .ofChars run := by
  cases run with
  | nil => rfl
  | cons c run => exact Text.ext (List.append_nil _)

theorem countP_rawTexts : (rawTexts run).countP Text.isEmpty = 0 := by
  cases run <;> rfl

theorem concat_append (ts us : List Text) : Text.concat (ts ++ us) = Text.concat ts ++ Text.concat us :=
  Text.ext List.flatMap_append

theorem ofChars_append (cs ds : List Char) : Text.ofChars (cs ++ ds) = .ofChars cs ++ .ofChars ds :=
  Text.ext List.map_append

theorem concat_flush : Text.concat ((flush pending cs).1 ++ rawTexts (flush pending cs).2) =
    .ofChars pending ++ Text.concat (cs.map Cut.meaning) := by
  induction cs generalizing pending with
  | nil =>
    rw [flush, List.nil_append, concat_rawTexts]
    exact Text.ext (List.append_nil _).symm
  | cons c cs ih =>
    rw [List.map_cons, Text.concat_cons]
    cases c with
    | fragment run =>
      rw [flush, ih, ofChars_append, Text.append_assoc]
      rfl
    | escape chars meaning =>
      have rest : Text.concat ((flush [] cs).1 ++ rawTexts (flush [] cs).2) = Text.concat (cs.map Cut.meaning) := ih []
      rw [flush, List.append_assoc, concat_append, concat_rawTexts, List.cons_append, Text.concat_cons, rest]
      rfl

theorem countP_flush : (flush pending cs).1.countP Text.isEmpty = cs.countP Cut.isVoid := by
  induction cs generalizing pending with
  | nil => rfl
  | cons c cs ih =>
    cases c with
    | fragment run =>
      rw [flush, ih]
      exact (List.countP_cons_of_neg Bool.false_ne_true).symm
    | escape chars meaning =>
      rw [flush, List.countP_append, countP_rawTexts, Nat.zero_add, List.countP_cons, List.countP_cons, ih]
      rfl

end

/-! ### Going over the nodes of a template -/

section

variable {lo : Lowering} {whole c : SourceNode} {place : Nat} {rest : List SourceNode}

theorem templatePieces_escape {before : List Node} {t value : Text} (type : c.type = "escape_sequence")
    (raw : lo.chunk place c.start c = .ok before) (text : lo.text c = .ok t)
    (decoded : Source.decodeEscape t = .ok value) :
    lo.templatePieces whole place (c :: rest) = (do
      let after ← lo.templatePieces whole c.stop rest
      pure ((before ++ [lo.literal c (.text value)]) ++ after)) := by
  simp only [List.append_assoc, List.singleton_append]
  rw [Lowering.templatePieces, if_pos (by rw [type]; rfl), raw, text]
  dsimp only [bind, Except.bind]
  rw [decoded]

theorem templatePieces_substitution {before : List Node} {value : Node} (type : c.type = "template_substitution")
    (raw : lo.chunk place c.start c = .ok before) (inner : substituted lo c = .ok value) :
    lo.templatePieces whole place (c :: rest) = (do
      let after ← lo.templatePieces whole c.stop rest
      pure (before ++ value :: after)) := by
  have rule : lo.templatePieces whole place (c :: rest) = (do
      let before ← lo.chunk place c.start c
      let value ← substituted lo c
      let after ← lo.templatePieces whole c.stop rest
      pure (before ++ value :: after)) := by
    rw [Lowering.templatePieces, if_neg (by rw [type]; decide), if_pos (by rw [type]; rfl)]
    simp only [substituted, bind_assoc]
  rw [rule, raw, inner]
  rfl

theorem templatePieces_other (notEscape : c.type ≠ "escape_sequence")
    (notSubstitution : c.type ≠ "template_substitution") :
    lo.templatePieces whole place (c :: rest) = lo.templatePieces whole place rest := by
  rw [Lowering.templatePieces, if_neg (by simpa using notEscape), if_neg (by simpa using notSubstitution)]

/-- The raw text up to a node. -/
theorem chunk_raw {near : SourceNode} {run : List Char} {more : String}
    (holds : lo.source.Holds place (.ofList run ++ more)) {stop : Nat}
    (ends : stop = place + (String.ofList run).utf8ByteSize) :
    lo.chunk place stop near = .ok ((rawTexts run).map fun t => lo.literal near (.text t)) := by
  subst ends
  unfold Lowering.chunk
  cases run with
  | nil => rw [if_neg (by simp)]; rfl
  | cons c run =>
    have some : 0 < (String.ofList (c :: run)).utf8ByteSize := by
      rw [Nat.pos_iff_ne_zero, Ne, String.utf8ByteSize_eq_zero_iff, String.ofList_eq_empty_iff]
      exact List.cons_ne_nil c run
    rw [if_pos (Nat.lt_add_of_pos_right some), textOf_holds holds.left, ofString_ofList]
    rfl

theorem literals_map (near : SourceNode) (ts : List Text) :
    Literals lo ts (ts.map fun t => lo.literal near (.text t)) := by
  induction ts with
  | nil => exact .nil
  | cons t ts ih => exact .cons ⟨near, rfl⟩ ih

/-- The tokens of a segment leave the literals behind that they stand for, and a place from which the raw characters
that are left are still to be read. -/
theorem templatePieces_cuts (whole : SourceNode) {cs : List Cut} (reads : ∀ c ∈ cs, c.Reads) (pending : List Char)
    {more : String} (holds : lo.source.Holds place (.ofList pending ++ (.ofList (cs.flatMap Cut.chars) ++ more)))
    (later : List SourceNode) :
    ∃ ls place', Literals lo (flush pending cs).1 ls ∧ lo.source.Holds place' (.ofList (flush pending cs).2 ++ more) ∧
      place' + (String.ofList (flush pending cs).2).utf8ByteSize =
        place + (String.ofList pending).utf8ByteSize + (String.ofList (cs.flatMap Cut.chars)).utf8ByteSize ∧
      lo.templatePieces whole place
          (Draft.placeAll (place + (String.ofList pending).utf8ByteSize) (cs.map Cut.draft) ++ later) = (do
        let after ← lo.templatePieces whole place' later
        pure (ls ++ after)) := by
  induction cs generalizing place pending with
  | nil => exact ⟨[], place, .nil, by simpa [flush] using holds, by simp [flush], by simp [Draft.placeAll]⟩
  | cons c cs ih =>
    have others : ∀ d ∈ cs, d.Reads := fun d hd => reads d (List.mem_cons_of_mem c hd)
    have size : c.draft.size = (String.ofList c.chars).utf8ByteSize := by rw [Draft.size, c.text_draft]
    rw [List.flatMap_cons, String.ofList_append, String.append_assoc] at holds
    rw [List.map_cons, Draft.placeAll, c.place_draft, size, List.singleton_append, List.cons_append]
    cases c with
    | fragment run =>
      have joined : lo.source.Holds place
          (.ofList (pending ++ run) ++ (.ofList (cs.flatMap Cut.chars) ++ more)) := by
        rw [String.ofList_append, String.append_assoc]
        exact holds
      obtain ⟨ls, place', literals, holds', same, lowered⟩ := ih others (pending ++ run) joined
      rw [String.ofList_append, String.utf8ByteSize_append, ← Nat.add_assoc] at same lowered
      refine ⟨ls, place', literals, holds', ?_, ?_⟩
      · rw [List.flatMap_cons, String.ofList_append, String.utf8ByteSize_append, ← Nat.add_assoc]
        exact same
      · rw [templatePieces_other (show "string_fragment" ≠ "escape_sequence" by decide)
          (show "string_fragment" ≠ "template_substitution" by decide)]
        exact lowered
    | escape chars meaning =>
      have nothing : (String.ofList []).utf8ByteSize = 0 := rfl
      obtain ⟨ls, place', literals, holds', same, lowered⟩ := ih others []
        (by rw [String.ofList_nil, String.empty_append]; exact holds.right.right)
      rw [nothing, Nat.add_zero] at same lowered
      let n := (Cut.escape chars meaning).node (place + (String.ofList pending).utf8ByteSize)
      have raw : lo.chunk place n.start n = .ok ((rawTexts pending).map fun t => lo.literal n (.text t)) :=
        chunk_raw holds rfl
      refine ⟨((rawTexts pending).map fun t => lo.literal n (.text t)) ++ [lo.literal n (.text meaning)] ++ ls, place',
        ?_, holds', ?_, ?_⟩
      · rw [flush, List.append_cons]
        exact List.rel_append (List.rel_append (literals_map n _) (.cons ⟨n, rfl⟩ .nil)) literals
      · rw [List.flatMap_cons, String.ofList_append, String.utf8ByteSize_append, ← Nat.add_assoc]
        exact same
      · rw [templatePieces_escape (by rfl) raw (text_node holds.right.left) (reads _ List.mem_cons_self)]
        have stop : n.stop = place + (String.ofList pending).utf8ByteSize +
            (String.ofList (Cut.escape chars meaning).chars).utf8ByteSize := rfl
        rw [stop, lowered]
        simp only [bind_assoc, pure_bind, List.append_assoc]

/-- No token of a segment is a substitution. -/
theorem filter_cuts (cs : List Cut) : (Draft.placeAll place (cs.map Cut.draft)).filter isSubstitution = [] := by
  induction cs generalizing place with
  | nil => rfl
  | cons c cs ih =>
    have other : ¬isSubstitution (c.node place) = true := by
      cases c <;> simp [isSubstitution, Cut.node]
    rw [List.map_cons, Draft.placeAll, c.place_draft, List.singleton_append, List.filter_cons_of_neg other, ih]

/-- The literals of a segment, those up to the last escape and those of the raw characters behind it. -/
theorem spells_flush {ps : Segment} {ls ls' : List Node} (escaped : Literals lo (flush [] (cuts ps)).1 ls)
    (raw : Literals lo (rawTexts (flush [] (cuts ps)).2) ls') : Spells lo ps (ls ++ ls') := by
  refine ⟨_, List.rel_append escaped raw, ?_, ?_⟩
  · rw [concat_flush, meaning_cuts]
    rfl
  · rw [List.countP_append, countP_rawTexts, Nat.add_zero, countP_flush, countP_cuts]

/-- A segment leaves the literals behind up to its last escape, and a place from which the rest is still to be read. -/
theorem templatePieces_segment (whole : SourceNode) {ps : Segment} {more : String}
    (holds : lo.source.Holds place (.ofList (spelling ps) ++ more)) (later : List SourceNode) :
    ∃ ls place', Literals lo (flush [] (cuts ps)).1 ls ∧
      lo.source.Holds place' (.ofList (flush [] (cuts ps)).2 ++ more) ∧
      place' + (String.ofList (flush [] (cuts ps)).2).utf8ByteSize = place + (String.ofList (spelling ps)).utf8ByteSize ∧
      lo.templatePieces whole place (Draft.placeAll place ((cuts ps).map Cut.draft) ++ later) = (do
        let after ← lo.templatePieces whole place' later
        pure (ls ++ after)) := by
  have nothing : (String.ofList []).utf8ByteSize = 0 := rfl
  have start : lo.source.Holds place (.ofList [] ++ (.ofList ((cuts ps).flatMap Cut.chars) ++ more)) := by
    rw [chars_cuts, String.ofList_nil, String.empty_append]
    exact holds
  have segment := templatePieces_cuts whole (reads_cuts ps) [] start later
  rw [nothing, Nat.add_zero, chars_cuts] at segment
  exact segment

/-- The scanners find the tokens of a segment, whatever is behind it. -/
theorem segmentDrafts_eq {ps : Segment} (clear : Quote.template.Clear ps) (others : List (List Draft × Segment)) :
    segmentDrafts ps others = (cuts ps).map Cut.draft := by
  refine Quote.template.tokensOf_spelling clear ?_
  cases others with
  | nil => exact .inl ⟨[], rfl⟩
  | cons other others => exact .inr ⟨rfl, [], rfl⟩

/-- The text of a template behind a segment. -/
theorem textOfAll_segment {ps : Segment} (clear : Quote.template.Clear ps) (others : List (List Draft × Segment)) :
    Draft.textOfAll (segmentDrafts ps others ++ templateRest others) =
      .ofList (spelling ps) ++ Draft.textOfAll (templateRest others) := by
  rw [segmentDrafts_eq clear, Draft.textOfAll_append, text_cuts, chars_cuts]

/-- The nodes of a template from a segment on. -/
theorem placeAll_segment {ps : Segment} (clear : Quote.template.Clear ps) (others : List (List Draft × Segment)) :
    Draft.placeAll place (segmentDrafts ps others ++ templateRest others) =
      Draft.placeAll place ((cuts ps).map Cut.draft) ++
        Draft.placeAll (place + (String.ofList (spelling ps)).utf8ByteSize) (templateRest others) := by
  rw [segmentDrafts_eq clear, Draft.placeAll_append, text_cuts, chars_cuts]

/-- **A template from the start of a segment on is lowered to literals with the values of the substitutions between
them.** -/
theorem templatePieces_segments {ps : Segment} {others : List (List Draft × Segment)} {values : List Node}
    (clear : Quote.template.Clear ps) (clears : ∀ o ∈ others, Quote.template.Clear o.2)
    (holds : lo.source.Holds place (Draft.textOfAll (segmentDrafts ps others ++ templateRest others)))
    (stop : whole.stop = place + (Draft.textOfAll (segmentDrafts ps others ++ templateRest others)).utf8ByteSize)
    (inner : ((Draft.placeAll place (segmentDrafts ps others ++ templateRest others)).filter isSubstitution).mapM
      (substituted lo) = .ok values) :
    ∃ ns, lo.templatePieces whole place (Draft.placeAll place (segmentDrafts ps others ++ templateRest others)) = .ok ns ∧
      Interleaves lo ps (others.map Prod.snd) values ns := by
  -- the induction is on the substitutions; the tokens of a segment go over to the place of its last raw characters
  induction others generalizing ps place values with
  | nil =>
    rw [textOfAll_segment clear] at holds stop
    rw [placeAll_segment clear, List.filter_append, filter_cuts, List.nil_append] at inner
    have mark : Draft.placeAll (place + (String.ofList (spelling ps)).utf8ByteSize) (templateRest []) =
        [{ type := "\x60", isNamed := false, start := place + (String.ofList (spelling ps)).utf8ByteSize,
           stop := place + (String.ofList (spelling ps)).utf8ByteSize + 1, children := [] }] := by
      rfl
    obtain ⟨ls, place', escaped, holds', same, lowered⟩ := templatePieces_segment whole holds
      (Draft.placeAll (place + (String.ofList (spelling ps)).utf8ByteSize) (templateRest []))
    obtain rfl : values = [] := by
      rw [mark] at inner
      exact (Except.ok.inj inner).symm
    have raw : lo.chunk place' (whole.stop - 1) whole = _ := chunk_raw holds' (by
      rw [same, stop, String.utf8ByteSize_append]
      rfl)
    refine ⟨_, ?_, .last (spells_flush escaped (literals_map whole _))⟩
    rw [placeAll_segment clear, lowered, mark, templatePieces_other (show "\x60" ≠ "escape_sequence" by decide)
      (show "\x60" ≠ "template_substitution" by decide), Lowering.templatePieces, raw]
    rfl
  | cons other others ih =>
    obtain ⟨parts, ps'⟩ := other
    have clear' : Quote.template.Clear ps' := clears _ List.mem_cons_self
    let n : SourceNode :=
      { type := "template_substitution", start := place + (String.ofList (spelling ps)).utf8ByteSize,
        stop := place + (String.ofList (spelling ps)).utf8ByteSize + (substitution parts).size,
        children := Draft.placeAll (place + (String.ofList (spelling ps)).utf8ByteSize)
          (.mark "$\x7b" :: (parts ++ [.mark "\x7d"])) }
    have first :
        Draft.placeAll (place + (String.ofList (spelling ps)).utf8ByteSize) (templateRest ((parts, ps') :: others)) =
          n :: Draft.placeAll n.stop (segmentDrafts ps' others ++ templateRest others) := rfl
    rw [textOfAll_segment clear, templateRest, Draft.textOfAll] at holds stop
    rw [placeAll_segment clear, List.filter_append, filter_cuts, List.nil_append, first,
      List.filter_cons_of_pos (by rfl), List.mapM_cons] at inner
    obtain ⟨ls, place', escaped, holds', same, lowered⟩ := templatePieces_segment whole holds
      (n :: Draft.placeAll n.stop (segmentDrafts ps' others ++ templateRest others))
    have raw : lo.chunk place' n.start n = _ := chunk_raw holds' same.symm
    obtain ⟨v, value, inner⟩ := exists_of_bind inner
    obtain ⟨vs, inner', same'⟩ := exists_of_bind inner
    obtain rfl : v :: vs = values := Except.ok.inj same'
    have holds'' : lo.source.Holds n.stop (Draft.textOfAll (segmentDrafts ps' others ++ templateRest others)) :=
      holds.right.right
    obtain ⟨ns, lowered', interleaves⟩ := ih clear' (fun o ho => clears o (List.mem_cons_of_mem _ ho)) holds''
      (by rw [stop, String.utf8ByteSize_append, String.utf8ByteSize_append, ← Nat.add_assoc, ← Nat.add_assoc]; rfl)
      inner'
    refine ⟨_, ?_, .next (spells_flush escaped (literals_map n _)) interleaves⟩
    rw [placeAll_segment clear, first, lowered, templatePieces_substitution (by rfl) raw value, lowered',
      List.append_assoc]
    rfl

/-- A template is lowered to literals for its segments with the values of its substitutions between them. -/
theorem lower_template {n : SourceNode} {field : Option String} {first : Segment} {others : List (List Draft × Segment)}
    {values : List Node} (clear : Quote.template.Clear first) (clears : ∀ o ∈ others, Quote.template.Clear o.2)
    (stands : (templateDraft field first others).Stands lo.source n)
    (inner : (n.children.filter isSubstitution).mapM (substituted lo) = .ok values) :
    ∃ children, lo.lowerExpression n = .ok (lo.plain .template n children) ∧
      Interleaves lo first (others.map Prod.snd) values children := by
  obtain ⟨place, holds, placed⟩ := stands
  have one : "\x60".utf8ByteSize = 1 := by decide +kernel
  have isTemplate : n.type = "template_string" := by rw [← (List.cons.inj placed).1]
  have start : n.start = place := by rw [← (List.cons.inj placed).1]
  have stop : n.stop =
      place + 1 + (Draft.textOfAll (segmentDrafts first others ++ templateRest others)).utf8ByteSize := by
    rw [← (List.cons.inj placed).1]
    dsimp only
    rw [Draft.textOfAll, Draft.text_mark, String.utf8ByteSize_append, one, Nat.add_assoc]
  have children : n.children =
      { type := "\x60", isNamed := false, start := place, stop := place + 1, children := [] } ::
        Draft.placeAll (place + 1) (segmentDrafts first others ++ templateRest others) := by
    rw [← (List.cons.inj placed).1]
    dsimp only
    rw [Draft.placeAll, Draft.place_mark, Draft.size, Draft.text_mark, one, List.singleton_append]
  rw [templateDraft, Draft.text, Draft.textOfAll, Draft.text_mark] at holds
  have holds := holds.right
  rw [one] at holds
  rw [children, List.filter_cons_of_neg (by simp [isSubstitution])] at inner
  obtain ⟨ns, pieces, interleaves⟩ := templatePieces_segments clear clears holds stop inner
  refine ⟨ns, ?_, interleaves⟩
  have rule : lo.lowerExpression n = lo.template n := by
    unfold Lowering.lowerExpression
    rw [isTemplate]
    rfl
  rw [rule, Lowering.template, start, children, templatePieces_other (show "\x60" ≠ "escape_sequence" by decide)
    (show "\x60" ≠ "template_substitution" by decide), pieces]
  rfl

/-- **Literals are lowered piece by piece.** -/
theorem literal_pieces (lo : Lowering) (field : Option String) (n : SourceNode) :
    (∀ q ps, q ≠ .template → q.Clear ps → (stringDraft q field (spelling ps)).Stands lo.source n →
      lo.lowerExpression n = .ok (lo.literal n (.text (meaning ps)))) ∧
    (∀ first others values, Quote.template.Clear first → (∀ o ∈ others, Quote.template.Clear o.2) →
      (templateDraft field first others).Stands lo.source n →
      (n.children.filter isSubstitution).mapM (substituted lo) = .ok values →
      ∃ children, lo.lowerExpression n = .ok (lo.plain .template n children) ∧
        Interleaves lo first (others.map Prod.snd) values children) :=
  ⟨fun _ _ _ clear stands => lower_string clear stands,
    fun _ _ _ clear clears stands inner => lower_template clear clears stands inner⟩

end

/-- An accented letter, an escape of two digits and an escaped line break. -/
def accented : List Piece :=
  [.raw '\u00e9', .escape (.hex ⟨4, false⟩ ⟨1, false⟩), .escape .line]

/-- The accented pieces as a string. -/
def accentedString : Draft := stringDraft .single none (spelling accented)

/-- The accented pieces with a dollar sign in front of a substitution. -/
def accentedTemplate : Draft :=
  templateDraft none (accented ++ [.raw '$']) [([.leaf "identifier" none "x"], [.escape .line])]

/-- A lowering with the text of a draft as its source, which takes the expression in a substitution for a blank. -/
def loweringOf (d : Draft) : Lowering :=
  { source := .ofString d.text, language := .javascript, statement := fun _ => .ok .emptyNode,
    expression := fun _ => .ok .emptyNode }

theorem literal_pieces_accented :
    (∃ n, accentedString.place 0 = [n] ∧ (loweringOf accentedString).lowerExpression n =
      .ok ((loweringOf accentedString).literal n (.text (.ofString "\u00e9A")))) ∧
    ∃ n values children, accentedTemplate.place 0 = [n] ∧
      (loweringOf accentedTemplate).lowerExpression n = .ok ((loweringOf accentedTemplate).plain .template n children) ∧
      Interleaves (loweringOf accentedTemplate) (accented ++ [.raw '$']) [[.escape .line]] values children := by
  have ok : ((((accentedTemplate.place 0).flatMap SourceNode.children).filter isSubstitution).mapM
      (substituted (loweringOf accentedTemplate))).isOk = true := by decide +kernel
  obtain ⟨values, inner⟩ := exists_of_isOk ok
  constructor
  · refine ⟨_, rfl, ?_⟩
    exact (literal_pieces (loweringOf accentedString) none _).1 .single accented (by decide) (by decide)
      (accentedString.stands_alone rfl)
  · obtain ⟨n, placed⟩ : ∃ n, accentedTemplate.place 0 = [n] := ⟨_, rfl⟩
    rw [placed, List.flatMap_singleton] at inner
    have pieces := (literal_pieces (loweringOf accentedTemplate) none n).2 (accented ++ [.raw '$'])
      [([.leaf "identifier" none "x"], [.escape .line])] values (by decide) (by decide)
    rw [← accentedTemplate] at pieces
    obtain ⟨children, lowered, interleaves⟩ := pieces (accentedTemplate.stands_alone placed) inner
    exact ⟨n, values, children, placed, lowered, interleaves⟩

end ScopeExit.Literal
