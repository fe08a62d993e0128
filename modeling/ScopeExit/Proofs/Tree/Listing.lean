import ScopeExit.Proofs.Text.Line
import ScopeExit.Proofs.Tree.Shape
import ScopeExit.Tree.Listing
/-!
What a listing tells about its tree.

The shape of a tree is an `Outline`: the kinds of its nodes and how they are nested.  A listing shows it in two ways on
each line, by the indentation and by the first word.  `Outline.ofListing?` reads both and puts the nodes together again:
what follows a node and is one level deeper are its children.

This goes wrong as soon as a line is broken, since what is after the break then looks like another node.  Literals
cannot do that, because they are quoted, and neither can places; but labels and the names of parameters are shown as
they are.  So the tree has to be `Unbroken`.

**Main results.** `lines_dump`: an unbroken tree has one line for each node.  `ofListing?_dump`: the outline comes back.
-/
namespace ScopeExit

open Text

/-! ### Outlines -/

/-- The kinds of a tree. -/
inductive Outline where
  | node (kind : NodeKind) (children : List Outline)

namespace Node

mutual

/-- The kinds of the nodes that are reachable through children. -/
def outline : Node → Outline
  | ⟨kind, _, _, _, children, _, _, _, _⟩ => .node kind (outlines children)

/-- The outlines of several trees. -/
def outlines : List Node → List Outline
  | [] => []
  | n :: ns => outline n :: outlines ns

end

mutual

/-- The nodes that are reachable through children with their levels, a node before those below it. -/
def levels : Nat → Node → List (Nat × Node)
  | level, ⟨kind, value, label, params, children, a, g, l, span⟩ =>
    (level, ⟨kind, value, label, params, children, a, g, l, span⟩) :: levelsOfAll (level + 1) children

/-- The nodes of several trees of one level. -/
def levelsOfAll : Nat → List Node → List (Nat × Node)
  | _, [] => []
  | level, n :: ns => levels level n ++ levelsOfAll level ns

end

theorem levels_eq (level : Nat) (n : Node) : levels level n = (level, n) :: levelsOfAll (level + 1) n.children := by
  cases n; rfl

theorem lines_eq (level : Nat) (n : Node) : lines level n = (do
    let first ← n.line
    pure ((indentation level ++ first) :: (← linesOfAll (level + 1) n.children))) := by
  cases n; rfl

end Node

namespace Outline

/-- A node in front of those that follow it.  The outlines of one level more are its children. -/
def attach (entry : Nat × NodeKind) (after : List (Nat × Outline)) : List (Nat × Outline) :=
  let isBelow (p : Nat × Outline) : Bool := p.1 = entry.1 + 1
  (entry.1, .node entry.2 ((after.takeWhile isBelow).map Prod.snd)) :: after.dropWhile isBelow

/-- The outline of a tree whose nodes are listed with their levels. -/
def ofLevels? (entries : List (Nat × NodeKind)) : Option Outline :=
  match entries.foldr attach [] with
  | [(_, o)] => some o
  | _ => none

end Outline

/-- The code point of an indentation. -/
def Text.blank : CodePoint := .ofChar ' '

/-- A text that does not go on with the word before it. -/
def Text.IsApart (t : Text) : Prop := ∀ c ∈ t.codes.head?, c = blank

theorem Text.IsApart.append {a b : Text} (ha : a.IsApart) (hb : b.IsApart) : (a ++ b).IsApart := by
  unfold IsApart at *
  rw [codes_append]
  cases codes : a.codes with
  | nil => exact hb
  | cons c cs => simpa [codes] using ha

/-- The level and the kind that a line of a listing shows. -/
def Text.readLine? (t : Text) : Option (Nat × NodeKind) :=
  let depth := (t.codes.takeWhile (· = blank)).length
  let word := (t.codes.drop depth).takeWhile (· ≠ blank)
  (NodeKind.all.find? fun k => (ofString k.listingName).codes = word).map fun k => (depth / 2, k)

/-- The outline that a listing shows. -/
def Outline.ofListing? (t : Text) : Option Outline := t.splitLines.mapM readLine? >>= ofLevels?

namespace Node

/-! ### Levels give back the outline -/

/-- What may follow a tree of a level: nothing that would pass for a part of it. -/
def Follows (level : Nat) (after : List (Nat × Outline)) : Prop := ∀ p ∈ after.head?, p.1 ≤ level

section

variable {level : Nat} {after : List (Nat × Outline)}

theorem attach_children {kind : NodeKind} (children : List Outline) (next : Follows level after) :
    Outline.attach (level, kind) (children.map (fun o => (level + 1, o)) ++ after) =
      (level, .node kind children) :: after := by
  have stop : ∀ p ∈ after.head?, decide (p.1 = level + 1) = false := by
    intro p hp
    have := next p hp
    simpa using by omega
  have all : ∀ p ∈ children.map (fun o => (level + 1, o)), decide (p.1 = level + 1) = true := by simp
  have rest : after.takeWhile (fun p => decide (p.1 = level + 1)) = [] ∧
      after.dropWhile (fun p => decide (p.1 = level + 1)) = after := by
    cases after with
    | nil => exact ⟨rfl, rfl⟩
    | cons p after =>
      have other := stop p rfl
      exact ⟨List.takeWhile_cons_of_neg (by simpa using other), List.dropWhile_cons_of_neg (by simpa using other)⟩
  unfold Outline.attach
  dsimp only
  rw [List.takeWhile_append_of_pos all, List.dropWhile_append_of_pos all, rest.1, rest.2]
  simp

/-- The kinds of the nodes with their levels. -/
def entries (nodes : List (Nat × Node)) : List (Nat × NodeKind) := nodes.map fun p => (p.1, p.2.kind)

mutual

theorem foldr_levels (level : Nat) (n : Node) (after : List (Nat × Outline)) (next : Follows level after) :
    (entries (levels level n)).foldr Outline.attach after = (level, n.outline) :: after := by
  match n with
  | ⟨kind, value, label, params, children, a, g, l, span⟩ =>
    have below := foldr_levelsOfAll (level + 1) children after fun p hp => (next p hp).trans (Nat.le_succ level)
    show Outline.attach (level, kind) ((entries (levelsOfAll (level + 1) children)).foldr Outline.attach after) = _
    rw [below, attach_children _ next]
    rfl

theorem foldr_levelsOfAll (level : Nat) (ns : List Node) (after : List (Nat × Outline)) (next : Follows level after) :
    (entries (levelsOfAll level ns)).foldr Outline.attach after =
      (outlines ns).map (fun o => (level, o)) ++ after := by
  match ns with
  | [] => rfl
  | n :: ns =>
    have later := foldr_levelsOfAll level ns after next
    have same : Follows level ((outlines ns).map (fun o => (level, o)) ++ after) := by
      cases ns with
      | nil => exact next
      | cons m ns => simp [Follows, outlines]
    show (entries (levels level n ++ levelsOfAll level ns)).foldr Outline.attach after = _
    rw [entries, List.map_append, List.foldr_append]
    show (entries (levels level n)).foldr Outline.attach ((entries (levelsOfAll level ns)).foldr Outline.attach after) = _
    rw [later, foldr_levels level n _ same]
    rfl

end

theorem ofLevels?_levels (n : Node) : Outline.ofLevels? (entries (levels 0 n)) = some n.outline := by
  rw [Outline.ofLevels?, foldr_levels 0 n [] nofun]

end

/-! ### Lines -/

/-- A tree none of whose lines is broken: the values are literals, and what is shown without quotes has no line feed. -/
inductive Unbroken : Node → Prop
  | mk {n : Node} (value : n.value.isScalar = true) (label : ∀ l ∈ n.label, l.Unbroken)
      (params : ∀ p ∈ n.params, ∃ t : Text, p.value = .text t ∧ t.Unbroken)
      (children : ∀ c ∈ n.children, Unbroken c) : Unbroken n

/-- A line that shows a node of a level: the indentation, the kind and then nothing or what a blank sets apart. -/
def Shows (entry : Nat × Node) (line : Text) : Prop :=
  ∃ rest : Text, rest.IsApart ∧ line = indentation entry.1 ++ ofString entry.2.kind.listingName ++ rest

end Node

theorem exists_of_bind {ε α β : Type} {x : Except ε α} {f : α → Except ε β} {b : β} (h : x >>= f = .ok b) :
    ∃ a, x = .ok a ∧ f a = .ok b := by
  cases x with
  | error e => contradiction
  | ok a => exact ⟨a, rfl, h⟩

theorem Number.eq_of_intText {n : Int} {t : Text} (h : intText n = .ok t) : t = ofInt n := by
  unfold intText at h
  by_cases large : pow10 maxDigits ≤ n.natAbs
  · rw [if_pos large] at h
    cases h
  · rw [if_neg large] at h
    exact (Except.ok.inj h).symm

theorem Datum.unbroken_listing {d : Datum} {t : Text} (scalar : d.isScalar = true) (shown : d.listing = .ok t) :
    t.Unbroken := by
  cases d with
  | null => cases shown; decide
  | undefined => cases shown; decide
  | bool b => cases b <;> cases shown <;> decide
  | number x =>
    cases x with
    | int n =>
      unfold Datum.listing Number.literal at shown
      exact Number.eq_of_intText shown ▸ unbroken_ofInt n
    | float x =>
      cases shown
      exact unbroken_floatLiteral x
  | text t =>
    cases shown
    exact unbroken_quoted t
  | _ => contradiction

/-! ### The names of kinds -/

theorem NodeKind.letters_name (k : NodeKind) : (k.name.toList.all fun c => c.isUpper || c == '_') = true := by
  cases k <;> rfl

theorem NodeKind.name_ne_nil (k : NodeKind) : k.name.toList.isEmpty = false := by
  cases k <;> rfl

/-- A letter of a name comes back from its lower-case form, which is neither a blank nor a line feed. -/
theorem toLower_letter {c : Char} (letter : (c.isUpper || c == '_') = true) :
    c.toLower.toUpper = c ∧ c.toLower ≠ '\n' ∧ c.toLower ≠ ' ' := by
  have upper : ∀ d : Fin 26, (fun c : Char => c.toLower.toUpper = c ∧ c.toLower ≠ '\n' ∧ c.toLower ≠ ' ')
      (Char.ofNat (65 + d)) := by decide
  rcases Bool.or_eq_true_iff.mp letter with isUpper | same
  · have range : 65 ≤ c.toNat ∧ c.toNat ≤ 90 := by simpa [Char.isUpper, UInt32.le_iff_toNat_le] using isUpper
    have := upper ⟨c.toNat - 65, by omega⟩
    rwa [Nat.add_sub_cancel' range.1, Char.ofNat_toNat] at this
  · rw [eq_of_beq same]
    decide

namespace NodeKind

variable (k : NodeKind)

theorem toList_listingName : k.listingName.toList = k.name.toList.map Char.toLower := String.toList_ofList

theorem forall_listingName {P : Char → Prop}
    (h : ∀ c : Char, (c.isUpper || c == '_') = true → P c.toLower) : ∀ c ∈ k.listingName.toList, P c := by
  rw [toList_listingName, List.forall_mem_map]
  exact fun c hc => h c (List.all_eq_true.mp k.letters_name c hc)

theorem unbroken_listingName : (ofString k.listingName).Unbroken := by
  rw [unbroken_ofString]
  intro mem
  exact k.forall_listingName (P := (· ≠ '\n')) (fun c letter => (toLower_letter letter).2.1) _ mem rfl

theorem ne_blank_of_mem_listingName : ∀ c ∈ (ofString k.listingName).codes, c ≠ blank := by
  intro c hc same
  obtain ⟨d, hd, rfl⟩ := List.mem_map.mp hc
  have back := congrArg CodePoint.toChar? same
  rw [blank, CodePoint.toChar?_ofChar, CodePoint.toChar?_ofChar] at back
  exact k.forall_listingName (P := (· ≠ ' ')) (fun c letter => (toLower_letter letter).2.2) d hd
    (Option.some.inj back)

theorem listingName_ne_nil : (ofString k.listingName).codes ≠ [] := by
  rw [ofString, ofChars, toList_listingName]
  simpa using k.name_ne_nil

theorem listingName_injective {k l : NodeKind} (h : k.listingName = l.listingName) : k = l := by
  have upper (k : NodeKind) : k.listingName.toList.map Char.toUpper = k.name.toList := by
    rw [toList_listingName, List.map_map]
    refine (List.map_congr_left fun c hc => ?_).trans (List.map_id _)
    exact (toLower_letter (List.all_eq_true.mp k.letters_name c hc)).1
  have names : k.name = l.name := by rw [← String.toList_inj, ← upper, ← upper, h]
  have kinds : some k = some l := by rw [← ofName?_name, ← ofName?_name, names]
  exact Option.some.inj kinds

theorem find?_listingName :
    (all.find? fun l => (ofString l.listingName).codes = (ofString k.listingName).codes) = some k := by
  have mem : k ∈ all := by cases k <;> decide
  cases found : all.find? fun l => (ofString l.listingName).codes = (ofString k.listingName).codes with
  | none => exact absurd (List.find?_eq_none.mp found k mem) (by simp)
  | some l =>
    have same : (ofString l.listingName).codes = (ofString k.listingName).codes := by
      simpa using List.find?_some found
    rw [listingName_injective (ofString_injective (ext same))]

end NodeKind

namespace Node

section

variable {n : Node} {t : Text} {level : Nat}

/-- The names of parameters between parentheses. -/
theorem unbroken_paramsText {params : List Node} {ts : List Text}
    (names : ∀ p ∈ params, ∃ t : Text, p.value = .text t ∧ t.Unbroken) (shown : paramsText params = .ok ts) :
    ∀ t ∈ ts, t.Unbroken := by
  unfold paramsText at shown
  split at shown
  · cases shown
    exact nofun
  · obtain ⟨values, each, rest⟩ := exists_of_bind shown
    cases rest
    have inside : ∀ v ∈ values, v.Unbroken := by
      clear * - names each
      induction params generalizing values with
      | nil =>
        cases each
        exact nofun
      | cons p params ih =>
        rw [List.mapM_cons] at each
        obtain ⟨t, first, each⟩ := exists_of_bind each
        obtain ⟨ts, others, each⟩ := exists_of_bind each
        cases each
        obtain ⟨name, value, unbroken⟩ := names p List.mem_cons_self
        rw [value] at first
        cases first
        exact List.forall_mem_cons.mpr ⟨unbroken, ih (fun p hp => names p (List.mem_cons_of_mem _ hp)) ts others⟩
    rw [List.forall_mem_singleton, unbroken_concat]
    simp only [List.forall_mem_cons]
    exact ⟨by decide, unbroken_join (by decide) inside, by decide, nofun⟩

/-- What a line shows of a value. -/
def valueText (d : Datum) : Except NumberError (List Text) := if d.isNull then .ok [] else do pure [← d.listing]

theorem unbroken_valueText {d : Datum} {ts : List Text} (scalar : d.isScalar = true) (shown : valueText d = .ok ts) :
    ∀ t ∈ ts, t.Unbroken := by
  unfold valueText at shown
  split at shown
  · cases shown
    exact nofun
  · obtain ⟨t, ht, rest⟩ := exists_of_bind shown
    cases rest
    exact List.forall_mem_singleton.mpr (Datum.unbroken_listing scalar ht)

/-- What a line shows between the kind and the place. -/
def details (n : Node) (value params : List Text) : List Text :=
  (if n.isAsync then [ofString "async"] else []) ++ (if n.isGenerator then [ofString "generator"] else []) ++ value ++
    (match n.label with
      | some l => if l.isEmpty then [] else [ofString "@" ++ l]
      | none => []) ++ params

theorem line_eq (n : Node) : n.line = (do
    let value ← valueText n.value
    let params ← paramsText n.params
    let base := join " " (ofString n.kind.listingName :: n.details value params)
    pure (if n.span.isUnknown then base else concat [base, "  # ", n.span.render])) := by
  unfold Node.line valueText
  cases n.value.isNull with
  | true => rfl
  | false => cases n.value.listing <;> rfl

theorem unbroken_details {value params : List Text} (label : ∀ l ∈ n.label, l.Unbroken)
    (hv : ∀ t ∈ value, t.Unbroken) (hp : ∀ t ∈ params, t.Unbroken) : ∀ t ∈ n.details value params, t.Unbroken := by
  have flag (b : Bool) (s : String) (h : (ofString s).Unbroken) :
      ∀ t ∈ (if b then [ofString s] else []), t.Unbroken := by
    cases b
    · exact nofun
    · exact List.forall_mem_singleton.mpr h
  unfold details
  simp only [List.forall_mem_append]
  refine ⟨⟨⟨⟨flag _ _ (by decide), flag _ _ (by decide)⟩, hv⟩, ?_⟩, hp⟩
  cases found : n.label with
  | none => exact nofun
  | some l =>
    dsimp only
    split
    · exact nofun
    · exact List.forall_mem_singleton.mpr (unbroken_append.mpr ⟨by decide, label l found⟩)

/-- Words that are joined begin with the first word, and what follows is set apart. -/
theorem join_cons (first : Text) (others : List Text) :
    ∃ rest : Text, rest.IsApart ∧ join " " (first :: others) = first ++ rest := by
  cases others with
  | nil => exact ⟨.empty, nofun, by apply ext; simp [join]⟩
  | cons second others =>
    refine ⟨ofString " " ++ join " " (second :: others), fun c hc => ?_, by apply ext; simp [join]⟩
    exact (Option.some.inj hc).symm

/-- The line of a node in an unbroken tree is one line, and its kind stands first. -/
theorem Unbroken.line (h : n.Unbroken) (shown : n.line = .ok t) :
    t.Unbroken ∧ ∃ rest : Text, rest.IsApart ∧ t = ofString n.kind.listingName ++ rest := by
  obtain ⟨value, label, params, -⟩ := h
  rw [line_eq] at shown
  obtain ⟨values, hv, shown⟩ := exists_of_bind shown
  obtain ⟨names, hn, shown⟩ := exists_of_bind shown
  have others := unbroken_details label (unbroken_valueText value hv) (unbroken_paramsText params hn)
  have base : (join " " (ofString n.kind.listingName :: n.details values names)).Unbroken :=
    unbroken_join (by decide) (List.forall_mem_cons.mpr ⟨n.kind.unbroken_listingName, others⟩)
  obtain ⟨rest, apart, same⟩ := join_cons (ofString n.kind.listingName) (n.details values names)
  cases shown
  split
  · exact ⟨base, rest, apart, same⟩
  · refine ⟨?_, rest ++ concat ["  # ", n.span.render], apart.append fun c hc => ?_, ?_⟩
    · simp only [unbroken_concat, List.forall_mem_cons]
      exact ⟨base, by decide, n.span.unbroken_render, List.forall_mem_nil _⟩
    · exact (Option.some.inj hc).symm
    · rw [concat_cons, same, append_assoc]

theorem unbroken_indentation (level : Nat) : (indentation level).Unbroken := by
  rw [indentation, unbroken_ofChars]
  exact fun mem => absurd (List.eq_of_mem_replicate mem) (by decide)

theorem Unbroken.child (h : n.Unbroken) : ∀ c ∈ n.children, c.Unbroken := by
  cases h with
  | mk _ _ _ children => exact children

mutual

/-- The lines of an unbroken tree show its nodes, one after the other. -/
theorem lines_show (level : Nat) (n : Node) (ts : List Text) (h : n.Unbroken) (shown : lines level n = .ok ts) :
    List.Forall₂ (fun entry t => t.Unbroken ∧ Shows entry t) (levels level n) ts := by
  match n with
  | ⟨kind, value, label, params, children, a, g, l, span⟩ =>
    rw [lines_eq] at shown
    obtain ⟨first, hf, shown⟩ := exists_of_bind shown
    obtain ⟨others, ho, shown⟩ := exists_of_bind shown
    cases shown
    obtain ⟨unbroken, rest, apart, same⟩ := h.line hf
    refine .cons ⟨unbroken_append.mpr ⟨unbroken_indentation level, unbroken⟩, rest, apart, ?_⟩
      (linesOfAll_show (level + 1) children others h.child ho)
    rw [same, append_assoc]

theorem linesOfAll_show (level : Nat) (ns : List Node) (ts : List Text) (h : ∀ n ∈ ns, n.Unbroken)
    (shown : linesOfAll level ns = .ok ts) :
    List.Forall₂ (fun entry t => t.Unbroken ∧ Shows entry t) (levelsOfAll level ns) ts := by
  match ns with
  | [] =>
    cases shown
    exact .nil
  | n :: ns =>
    rw [linesOfAll] at shown
    obtain ⟨first, hf, shown⟩ := exists_of_bind shown
    obtain ⟨others, ho, shown⟩ := exists_of_bind shown
    cases shown
    exact List.rel_append (lines_show level n first (h n List.mem_cons_self) hf)
      (linesOfAll_show level ns others (fun m hm => h m (List.mem_cons_of_mem _ hm)) ho)

end

theorem levels_ne_nil (level : Nat) (n : Node) : levels level n ≠ [] := by
  rw [levels_eq]
  exact List.cons_ne_nil _ _

/-- **A listing of an unbroken tree has one line for each node.** -/
theorem lines_dump {listing : Text} (h : n.Unbroken) (shown : n.dump = .ok listing) :
    List.Forall₂ Shows (levels 0 n) listing.splitLines := by
  obtain ⟨ts, hts, shown⟩ := exists_of_bind shown
  cases shown
  have both : List.Forall₂ (fun t entry => t.Unbroken ∧ Shows entry t) ts (levels 0 n) := (lines_show 0 n ts h hts).flip
  obtain ⟨unbroken, each⟩ := (List.forall₂_and_left _ _).mp both
  have some : ts ≠ [] := by
    rintro rfl
    exact levels_ne_nil 0 n (List.forall₂_nil_left_iff.mp each)
  rw [splitLines_join unbroken some]
  exact each.flip

/-- A line is read as the level and the kind of its node. -/
theorem readLine?_of_shows {entry : Nat × Node} (h : Shows entry t) : t.readLine? = some (entry.1, entry.2.kind) := by
  obtain ⟨rest, apart, rfl⟩ := h
  obtain ⟨level, n⟩ := entry
  have letters := n.kind.ne_blank_of_mem_listingName
  have codes : (indentation level ++ ofString n.kind.listingName ++ rest).codes =
      List.replicate (2 * level) blank ++ ((ofString n.kind.listingName).codes ++ rest.codes) := by
    rw [codes_append, codes_append, List.append_assoc, indentation, ofChars, List.map_replicate]
    rfl
  have depth : ((List.replicate (2 * level) blank ++ ((ofString n.kind.listingName).codes ++ rest.codes)).takeWhile
      (· = blank)).length = 2 * level := by
    rw [List.takeWhile_append_of_pos fun c hc => decide_eq_true (List.eq_of_mem_replicate hc)]
    cases name : (ofString n.kind.listingName).codes with
    | nil => exact absurd name n.kind.listingName_ne_nil
    | cons c cs =>
      have other : c ≠ blank := letters c (name ▸ List.mem_cons_self)
      rw [List.cons_append, List.takeWhile_cons_of_neg (by simpa using other), List.append_nil, List.length_replicate]
  have word : ((ofString n.kind.listingName).codes ++ rest.codes).takeWhile (· ≠ blank) =
      (ofString n.kind.listingName).codes := by
    rw [List.takeWhile_append_of_pos fun c hc => decide_eq_true (letters c hc)]
    cases found : rest.codes with
    | nil => simp
    | cons c cs =>
      have same : c = blank := apart c (by rw [found]; rfl)
      rw [List.takeWhile_cons_of_neg (by simpa using same), List.append_nil]
  have half : 2 * level / 2 = level := by omega
  unfold readLine?
  simp only [codes, depth]
  rw [List.drop_left' (by rw [List.length_replicate]), word, n.kind.find?_listingName, half]
  rfl

/-- **The outline of an unbroken tree is read from its listing.** -/
theorem ofListing?_dump {listing : Text} (h : n.Unbroken) (shown : n.dump = .ok listing) :
    Outline.ofListing? listing = some n.outline := by
  have read {es : List (Nat × Node)} {ts : List Text} (each : List.Forall₂ Shows es ts) :
      ts.mapM readLine? = some (entries es) := by
    induction each with
    | nil => rfl
    | cons first others ih => simp [readLine?_of_shows first, ih, entries]
  rw [Outline.ofListing?, read (lines_dump h shown)]
  exact ofLevels?_levels n

end

end Node

end ScopeExit
