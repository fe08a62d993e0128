import ScopeExit.Proofs.Source.Blank
import ScopeExit.Proofs.Source.Location
/-!
Concrete trees without one of their comments.

When a comment is replaced by blanks, its node goes away and everything else stays, down to the bytes.  Comments may
stand between any two tokens, so a comment may be a child of almost any node.  What `Spares` takes from the grammar is
where they are not: within tokens and in front of the first token of a node.  A comment plays no part in its parent
either, except that one between the statements of a clause of a `switch` may count among them.

**Main results.** `named_without` and `Spares.part?`: the named children of a node are those that it has with the
comment, and so are its parts.
-/
namespace ScopeExit.SourceNode

open Source

section

variable (low high : Nat)

/-! ### Trees without a comment -/

/-- The comment that takes a stretch. -/
def isCommentAt (n : SourceNode) : Bool := n.isComment && n.start == low && n.stop == high

mutual

/-- A tree without the comment that takes a stretch. -/
def without : SourceNode → SourceNode
  | ⟨type, isNamed, field, start, stop, children⟩ => ⟨type, isNamed, field, start, stop, withoutAll children⟩

/-- Several trees without the comment that takes a stretch. -/
def withoutAll : List SourceNode → List SourceNode
  | [] => []
  | n :: ns => if n.isCommentAt low high then withoutAll ns else without n :: withoutAll ns

end

section

variable (n : SourceNode)

@[simp] theorem type_without : (n.without low high).type = n.type := by cases n; rfl

@[simp] theorem isNamed_without : (n.without low high).isNamed = n.isNamed := by cases n; rfl

@[simp] theorem field_without : (n.without low high).field = n.field := by cases n; rfl

@[simp] theorem start_without : (n.without low high).start = n.start := by cases n; rfl

@[simp] theorem stop_without : (n.without low high).stop = n.stop := by cases n; rfl

theorem children_without : (n.without low high).children = withoutAll low high n.children := by cases n; rfl

@[simp] theorem isComment_without : (n.without low high).isComment = n.isComment := by
  unfold isComment
  rw [type_without]

end

section

variable {low high} {n c : SourceNode} {ns : List SourceNode} {p : SourceNode → Bool}

theorem isComment_of_isCommentAt (h : n.isCommentAt low high = true) : n.isComment = true :=
  (Bool.and_eq_true_iff.mp (Bool.and_eq_true_iff.mp h).1).1

theorem start_of_isCommentAt (h : n.isCommentAt low high = true) : n.start = low :=
  beq_iff_eq.mp (Bool.and_eq_true_iff.mp (Bool.and_eq_true_iff.mp h).1).2

theorem isComment_of_type {type : String} (typed : n.type = type) (other : type ≠ "comment") : n.isComment = false := by
  rw [isComment, typed]
  exact beq_eq_false_iff_ne.mpr other

theorem isCommentAt_of_other (other : n.isComment = false) : n.isCommentAt low high = false := by
  rw [isCommentAt, other]
  rfl

/-! ### Children -/

theorem withoutAll_of_clear (clear : ∀ c ∈ ns, c.isCommentAt low high = false) :
    withoutAll low high ns = ns.map (without low high) := by
  induction ns with
  | nil => rfl
  | cons n ns ih =>
    obtain ⟨first, others⟩ := List.forall_mem_cons.mp clear
    rw [withoutAll, first, ih others]
    rfl

theorem mem_withoutAll (mem : c ∈ ns) (kept : c.isCommentAt low high = false) :
    c.without low high ∈ withoutAll low high ns := by
  induction ns with
  | nil => contradiction
  | cons n ns ih =>
    rw [withoutAll]
    rcases List.mem_cons.mp mem with rfl | mem
    · rw [kept]
      exact List.mem_cons_self
    · split
      · exact ih mem
      · exact List.mem_cons_of_mem _ (ih mem)

/-- A choice of children that only looks at the nodes themselves. -/
theorem filter_withoutAll (steady : ∀ c, p (c.without low high) = p c) :
    (withoutAll low high ns).filter p = withoutAll low high (ns.filter p) := by
  induction ns with
  | nil => rfl
  | cons n ns ih =>
    by_cases gone : n.isCommentAt low high = true
    · rw [withoutAll, if_pos gone, ih, List.filter_cons]
      split
      · rw [withoutAll, if_pos gone]
      · rfl
    · rw [withoutAll, if_neg gone, List.filter_cons, List.filter_cons, ih, steady]
      split
      · rw [withoutAll, if_neg gone]
      · rfl

/-- A choice of children that are no comments. -/
theorem filter_withoutAll_map (steady : ∀ c, p (c.without low high) = p c)
    (other : ∀ c ∈ ns, p c = true → c.isComment = false) :
    (withoutAll low high ns).filter p = (ns.filter p).map (without low high) := by
  rw [filter_withoutAll steady]
  refine withoutAll_of_clear fun c mem => ?_
  obtain ⟨mem, chosen⟩ := List.mem_filter.mp mem
  exact isCommentAt_of_other (other c mem chosen)

/-- A search among children that passes over comments. -/
theorem find?_withoutAll (steady : ∀ c, p (c.without low high) = p c)
    (other : ∀ c ∈ ns, p c = true → c.isComment = false) :
    (withoutAll low high ns).find? p = (ns.find? p).map (without low high) := by
  rw [← List.head?_filter, ← List.head?_filter, filter_withoutAll_map steady other, List.head?_map]

theorem named_without : (n.without low high).named = n.named.map (without low high) := by
  rw [named, children_without]
  refine filter_withoutAll_map (fun c => ?_) fun c _ chosen => ?_
  · rw [isNamed_without, isComment_without]
  · exact Bool.not_eq_true' _ ▸ (Bool.and_eq_true_iff.mp chosen).2

theorem find?_without {type : String} (other : type ≠ "comment") :
    (n.without low high).children.find? (fun c => c.type == type) =
      (n.children.find? fun c => c.type == type).map (without low high) := by
  rw [children_without]
  refine find?_withoutAll (fun c => by rw [type_without]) fun c _ chosen => ?_
  exact isComment_of_type (beq_iff_eq.mp chosen) other

theorem hasToken_without {type : String} (other : type ≠ "comment") :
    (n.without low high).hasToken type = n.hasToken type := by
  rw [hasToken, hasToken, Bool.eq_iff_iff, List.any_eq_true, List.any_eq_true, ← List.find?_isSome, ← List.find?_isSome,
    find?_without other, Option.isSome_map]

/-! ### Heights -/

theorem height_without_le_of_mem {bound : Nat} (mem : c ∈ n.children) (kept : c.isCommentAt low high = false)
    (fits : (n.without low high).height ≤ bound + 1) : (c.without low high).height ≤ bound :=
  height_le_of_mem (children_without low high n ▸ mem_withoutAll mem kept) fits

end

end

/-! ### Where comments are not -/

/-- Types of nodes that are taken as they stand: names, numbers and pieces of texts. -/
def verbatimTypes : List String :=
  ["identifier", "undefined", "number", "string", "string_fragment", "escape_sequence", "shorthand_property_identifier"]

/-- Types of functions with a name of their own. -/
def functionTypes : List String :=
  ["function_declaration", "generator_function_declaration", "arrow_function", "function", "function_expression",
    "generator_function"]

/-- A clause of a `switch`. -/
def isClause (n : SourceNode) : Bool := n.type == "switch_case" || n.type == "switch_default"

/-- The stretches of raw text of a template literal, from a place on. -/
def rawStretches (whole : SourceNode) : Nat → List SourceNode → List (Nat × Nat)
  | place, [] => [(place, whole.stop - 1)]
  | place, c :: rest =>
    if c.type = "escape_sequence" ∨ c.type = "template_substitution" then
      (place, c.start) :: rawStretches whole c.stop rest
    else rawStretches whole place rest

/-- The part of a member of an object that is its key. -/
def keyField? : String → Option String
  | "pair" => some "key"
  | "method_definition" => some "name"
  | _ => none

/-- What the grammar says about a node of a text in which a comment takes a stretch. -/
structure Spares (low high : Nat) (n : SourceNode) : Prop where
  verbatim : n.type ∈ verbatimTypes → Clear low high n.start n.stop
  /-- Labels, operators and names of properties are tokens. -/
  token : ∀ field ∈ ["label", "operator", "property"], ∀ c ∈ n.part? field, Clear low high c.start c.stop
  name : n.type ∈ functionTypes → ∀ c ∈ n.part? "name", Clear low high c.start c.stop
  /-- A key is a token unless it is computed. -/
  key : ∀ field ∈ keyField? n.type, ∀ c ∈ n.part? field,
    c.type = "computed_property_name" ∨ Clear low high c.start c.stop
  raw : n.type = "template_string" → ∀ s ∈ n.rawStretches (n.start + 1) n.children, Clear low high s.1 s.2
  /-- A comment in front of the first token of a node is not part of the node. -/
  first : n.type ≠ "program" → ∀ c ∈ n.children.head?, c.isComment = false
  field : ∀ c ∈ n.children, c.isComment = true → c.field = none ∨ c.field = some "body" ∧ n.isClause = true
  clause : n.isClause = true → n.field = none
  operator : n.type = "binary_expression" ∨ n.type = "unary_expression" → (n.part? "operator").isSome = true
  operand : n.type = "unary_expression" ∨ n.type = "update_expression" → (n.part? "argument").isSome = true

section

variable {low high : Nat} {n c : SourceNode}

theorem spares_iff : n.Spares low high ↔
    (n.type ∈ verbatimTypes → Clear low high n.start n.stop) ∧
    (∀ field ∈ ["label", "operator", "property"], ∀ c ∈ n.part? field, Clear low high c.start c.stop) ∧
    (n.type ∈ functionTypes → ∀ c ∈ n.part? "name", Clear low high c.start c.stop) ∧
    (∀ field ∈ keyField? n.type, ∀ c ∈ n.part? field,
      c.type = "computed_property_name" ∨ Clear low high c.start c.stop) ∧
    (n.type = "template_string" → ∀ s ∈ n.rawStretches (n.start + 1) n.children, Clear low high s.1 s.2) ∧
    (n.type ≠ "program" → ∀ c ∈ n.children.head?, c.isComment = false) ∧
    (∀ c ∈ n.children, c.isComment = true → c.field = none ∨ c.field = some "body" ∧ n.isClause = true) ∧
    (n.isClause = true → n.field = none) ∧
    (n.type = "binary_expression" ∨ n.type = "unary_expression" → (n.part? "operator").isSome = true) ∧
    (n.type = "unary_expression" ∨ n.type = "update_expression" → (n.part? "argument").isSome = true) :=
  ⟨fun ⟨a, b, c, d, e, f, g, h, i, j⟩ => ⟨a, b, c, d, e, f, g, h, i, j⟩,
    fun ⟨a, b, c, d, e, f, g, h, i, j⟩ => ⟨a, b, c, d, e, f, g, h, i, j⟩⟩

instance : Decidable (n.Spares low high) := decidable_of_iff _ spares_iff.symm

/-- What plays a part is no comment, but for the statements of a clause of a `switch`. -/
theorem Spares.isComment_of_field (h : n.Spares low high) {field : String}
    (steady : field ≠ "body" ∨ n.isClause = false) (mem : c ∈ n.children) (chosen : c.field = some field) :
    c.isComment = false := by
  rw [← Bool.not_eq_true]
  intro comment
  rcases h.field c mem comment with none | ⟨body, clause⟩
  · rw [none] at chosen
    contradiction
  · rcases steady with other | plain
    · exact other (Option.some.inj (chosen.symm.trans body))
    · rw [plain] at clause
      contradiction

/-- **Every part of a node is found again**, but for the statements of a clause of a `switch`. -/
theorem Spares.part? (h : n.Spares low high) (field : String) (steady : field ≠ "body" ∨ n.isClause = false) :
    (n.without low high).part? field = (n.part? field).map (without low high) := by
  rw [SourceNode.part?, children_without]
  refine find?_withoutAll (fun c => by rw [field_without]) fun c mem chosen => ?_
  exact h.isComment_of_field steady mem (beq_iff_eq.mp chosen)

/-- The statements of a clause of a `switch` are found again. -/
theorem filter_parts_without (field : String) :
    (((n.without low high).parts field).filter fun s => !s.isComment) =
      ((n.parts field).filter fun s => !s.isComment).map (without low high) := by
  unfold parts
  rw [List.filter_filter, List.filter_filter, children_without]
  refine filter_withoutAll_map (fun c => ?_) fun c _ chosen => ?_
  · rw [isComment_without, field_without]
  · exact Bool.not_eq_true' _ ▸ (Bool.and_eq_true_iff.mp chosen).1

theorem Spares.head? (h : n.Spares low high) (inner : n.type ≠ "program") :
    (n.without low high).children.head? = n.children.head?.map (without low high) := by
  rw [children_without]
  cases first : n.children with
  | nil => rfl
  | cons c rest =>
    rw [withoutAll, isCommentAt_of_other (h.first inner c (by rw [first]; rfl))]
    rfl

/-! ### Whole trees -/

/-- Every node of a tree keeps clear of the comment that takes a stretch. -/
def Spared (low high : Nat) (root : SourceNode) : Prop := ∀ n ∈ root.nodes, n.Spares low high

instance : Decidable (n.Spared low high) := inferInstanceAs (Decidable (∀ _ ∈ n.nodes, _))

/-- A tree that keeps clear of the comment that takes a stretch, and how high it is with and without the comment. -/
structure Fits (low high most most' : Nat) (n : SourceNode) : Prop where
  spared : n.Spared low high
  height : n.height ≤ most
  height' : (n.without low high).height ≤ most'

variable {most most' : Nat}

theorem Fits.own (h : n.Fits low high most most') : n.Spares low high := h.spared n (nodes_eq n ▸ List.mem_cons_self)

theorem Fits.mono (h : n.Fits low high most most') : n.Fits low high (most + 1) (most' + 1) :=
  ⟨h.spared, h.height.trans (Nat.le_succ most), h.height'.trans (Nat.le_succ most')⟩

theorem Fits.child (h : n.Fits low high (most + 1) (most' + 1)) (mem : c ∈ n.children)
    (kept : c.isCommentAt low high = false) : c.Fits low high most most' where
  spared m hm := h.spared m (nodes_eq n ▸ List.mem_cons_of_mem n (mem_nodesOfAll.mpr ⟨c, mem, hm⟩))
  height := height_le_of_mem mem h.height
  height' := height_without_le_of_mem mem kept h.height'

theorem Fits.find? (h : n.Fits low high (most + 1) (most' + 1)) {type : String} (other : type ≠ "comment")
    (found : n.children.find? (fun c => c.type == type) = some c) : c.Fits low high most most' := by
  have typed : c.type = type := by simpa using List.find?_some found
  exact h.child (List.mem_of_find?_eq_some found) (isCommentAt_of_other (isComment_of_type typed other))

theorem Fits.named (h : n.Fits low high (most + 1) (most' + 1)) (mem : c ∈ n.named) : c.Fits low high most most' := by
  obtain ⟨mem, chosen⟩ := List.mem_filter.mp mem
  exact h.child mem (isCommentAt_of_other (Bool.not_eq_true' _ ▸ (Bool.and_eq_true_iff.mp chosen).2))

theorem Fits.part (h : n.Fits low high (most + 1) (most' + 1)) {field : String}
    (steady : field ≠ "body" ∨ n.isClause = false) (part : n.part? field = some c) : c.Fits low high most most' := by
  have mem : c ∈ n.children := List.mem_of_find?_eq_some part
  have chosen : c.field = some field := by simpa using List.find?_some part
  exact h.child mem (isCommentAt_of_other (h.own.isComment_of_field steady mem chosen))

/-- What plays a part is no clause of a `switch`. -/
theorem Fits.plain_of_part (h : c.Fits low high most most') {field : String} (part : n.part? field = some c) :
    c.isClause = false := by
  have chosen : c.field = some field := by simpa using List.find?_some part
  rw [← Bool.not_eq_true]
  intro clause
  rw [h.own.clause clause] at chosen
  contradiction

end

end ScopeExit.SourceNode
