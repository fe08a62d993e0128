import Mathlib
import ScopeExit.Source.Lowering
/-!
Concrete trees before they have places.

A concrete tree refers to its text by the bytes at which its nodes start and stop, which makes it awkward to say that
a tree is the one of a text that is put together from parts.  A `Draft` is such a tree with the text in it: gaps
between nodes, and nodes made of parts.  It gets its places when it is put somewhere, each part right behind the one
before it, and then every node of it covers its own text in any source that holds the text of the draft there.

**Main result.** `Source.Holds.text?`: what stands at a place of a source is read back from there, however many bytes
its characters take.
-/
namespace ScopeExit

/-! ### Texts in a source -/

namespace Source

/-- A text stands at a place of a source. -/
def Holds (source : Source) (place : Nat) (t : String) : Prop :=
  ∃ before after : String, source.bytes = (before ++ t ++ after).toUTF8 ∧ place = before.utf8ByteSize

section

variable {source : Source} {place : Nat} {t u : String}

theorem holds_ofString (before t after : String) :
    (ofString (before ++ t ++ after)).Holds before.utf8ByteSize t :=
  ⟨before, after, rfl, rfl⟩

theorem Holds.left (h : source.Holds place (t ++ u)) : source.Holds place t := by
  obtain ⟨before, after, bytes, rfl⟩ := h
  exact ⟨before, u ++ after, by rw [bytes]; simp only [String.append_assoc], rfl⟩

theorem Holds.right (h : source.Holds place (t ++ u)) : source.Holds (place + t.utf8ByteSize) u := by
  obtain ⟨before, after, bytes, rfl⟩ := h
  exact ⟨before ++ t, after, by rw [bytes]; simp only [String.append_assoc], String.utf8ByteSize_append.symm⟩

/-- **What stands at a place is read back from there.** -/
theorem Holds.text? (h : source.Holds place t) :
    source.text? place (place + t.utf8ByteSize) = some (Text.ofString t) := by
  obtain ⟨before, after, bytes, rfl⟩ := h
  have stretch : source.bytes.extract before.utf8ByteSize (before.utf8ByteSize + t.utf8ByteSize) = t.toByteArray := by
    have behind := ByteArray.extract_append_size_add (a := before.toByteArray) (b := t.toByteArray ++ after.toByteArray)
      (i := 0) (j := t.toByteArray.size)
    rw [Nat.add_zero, ByteArray.extract_append_eq_left rfl] at behind
    rw [bytes, String.toUTF8, String.toByteArray_append, String.toByteArray_append, ByteArray.append_assoc]
    exact behind
  have read : String.fromUTF8? t.toByteArray = some t := by
    unfold String.fromUTF8?
    rw [dif_pos t.isValidUTF8]
    rfl
  rw [Source.text?, stretch, read, Option.map_some]

end

end Source

/-! ### Drafts -/

/-- A concrete tree with its text instead of places. -/
inductive Draft where
  /-- A stretch of text that is no node. -/
  | gap (text : String)
  | node (type : String) (isNamed : Bool) (field : Option String) (parts : List Draft)

namespace Draft

mutual

/-- The text of a draft. -/
def text : Draft → String
  | gap t => t
  | node _ _ _ parts => textOfAll parts

/-- The texts of several drafts, one after the other. -/
def textOfAll : List Draft → String
  | [] => ""
  | d :: ds => text d ++ textOfAll ds

end

/-- The number of bytes of a draft. -/
def size (d : Draft) : Nat := d.text.utf8ByteSize

mutual

/-- A draft put at a place: a node, or nothing if it is a gap. -/
def place : Nat → Draft → List SourceNode
  | _, gap _ => []
  | start, node type isNamed field parts =>
    [{ type, isNamed, field, start, stop := start + (textOfAll parts).utf8ByteSize, children := placeAll start parts }]

/-- Drafts put one behind the other, from a place on. -/
def placeAll : Nat → List Draft → List SourceNode
  | _, [] => []
  | start, d :: ds => place start d ++ placeAll (start + d.size) ds

end

/-- A token that only separates others. -/
def mark (t : String) : Draft := node t false none [gap t]

/-- A node without parts. -/
def leaf (type : String) (field : Option String) (t : String) : Draft := node type true field [gap t]

/-! ### Laws -/

section

variable (start : Nat) (type : String) (field : Option String) (t : String)

@[simp] theorem text_mark : (mark t).text = t := by simp [mark, text, textOfAll]

@[simp] theorem text_leaf : (leaf type field t).text = t := by simp [leaf, text, textOfAll]

theorem place_mark : (mark t).place start =
    [{ type := t, isNamed := false, start, stop := start + t.utf8ByteSize, children := [] }] := by
  simp [mark, place, placeAll, textOfAll, text]

theorem place_leaf : (leaf type field t).place start =
    [{ type, field, start, stop := start + t.utf8ByteSize, children := [] }] := by
  simp [leaf, place, placeAll, textOfAll, text]

theorem textOfAll_append (ds es : List Draft) : textOfAll (ds ++ es) = textOfAll ds ++ textOfAll es := by
  induction ds with
  | nil => simp [textOfAll]
  | cons d ds ih => rw [List.cons_append, textOfAll, textOfAll, ih, String.append_assoc]

theorem placeAll_append (ds es : List Draft) :
    placeAll start (ds ++ es) = placeAll start ds ++ placeAll (start + (textOfAll ds).utf8ByteSize) es := by
  induction ds generalizing start with
  | nil => simp [textOfAll, placeAll]
  | cons d ds ih =>
    rw [List.cons_append, placeAll, placeAll, ih, textOfAll, String.utf8ByteSize_append, List.append_assoc,
      Nat.add_assoc]
    rfl

end

/-! ### Drafts in a source -/

/-- A node, and no gap. -/
def isNode : Draft → Bool
  | gap _ => false
  | node .. => true

/-- The part that a draft plays. -/
def field? : Draft → Option String
  | gap _ => none
  | node _ _ field _ => field

/-- A named node that is no comment. -/
def isShown : Draft → Bool
  | gap _ => false
  | node type isNamed _ _ => isNamed && !(type == "comment")

/-- A draft stands in a source as a node. -/
def Stands (source : Source) (d : Draft) (n : SourceNode) : Prop :=
  ∃ place, source.Holds place d.text ∧ d.place place = [n]

section

variable {source : Source} {d : Draft} {n : SourceNode} {type : String} {isNamed : Bool} {field : Option String}
  {parts : List Draft}

theorem Stands.type_eq (h : (node type isNamed field parts).Stands source n) : n.type = type := by
  obtain ⟨place, -, placed⟩ := h
  rw [← (List.cons.inj placed).1]

theorem Stands.field? (h : d.Stands source n) : n.field = d.field? := by
  obtain ⟨place, -, placed⟩ := h
  cases d with
  | gap t => contradiction
  | node type isNamed field parts => rw [← (List.cons.inj placed).1]; rfl

theorem Stands.isShown (h : d.Stands source n) : (n.isNamed && !n.isComment) = d.isShown := by
  obtain ⟨place, -, placed⟩ := h
  cases d with
  | gap t => contradiction
  | node type isNamed field parts => rw [← (List.cons.inj placed).1]; rfl

/-- A node covers the text of its draft. -/
theorem Stands.text? (h : d.Stands source n) : source.text? n.start n.stop = some (Text.ofString d.text) := by
  obtain ⟨place, holds, placed⟩ := h
  cases d with
  | gap t => contradiction
  | node type isNamed field parts => rw [← (List.cons.inj placed).1]; exact holds.text?

theorem stands_placeAll {place : Nat} {ds : List Draft} (holds : source.Holds place (textOfAll ds)) :
    List.Forall₂ (Stands source) (ds.filter isNode) (placeAll place ds) := by
  induction ds generalizing place with
  | nil => exact .nil
  | cons d ds ih =>
    have rest := ih holds.right
    cases d with
    | gap t => exact rest
    | node type isNamed field parts => exact .cons ⟨place, holds.left, rfl⟩ rest

/-- The children of a node are the nodes among the parts of its draft. -/
theorem Stands.children (h : (node type isNamed field parts).Stands source n) :
    List.Forall₂ (Stands source) (parts.filter isNode) n.children := by
  obtain ⟨place, holds, placed⟩ := h
  rw [← (List.cons.inj placed).1]
  exact stands_placeAll holds

/-- A draft that is a whole text stands there. -/
theorem stands_alone (d : Draft) (placed : d.place 0 = [n]) : d.Stands (.ofString d.text) n := by
  have holds := Source.holds_ofString "" d.text ""
  rw [String.empty_append, String.append_empty] at holds
  exact ⟨0, holds, placed⟩

/-- The children with a property are those of the parts with the same property. -/
theorem Stands.filter (h : (node type isNamed field parts).Stands source n) {p : Draft → Bool} {q : SourceNode → Bool}
    (only : ∀ d, p d = true → d.isNode = true) (same : ∀ d m, d.Stands source m → q m = p d) :
    List.Forall₂ (Stands source) (parts.filter p) (n.children.filter q) := by
  have nodes : (parts.filter isNode).filter p = parts.filter p := by
    rw [List.filter_filter]
    refine List.filter_congr fun d _ => ?_
    cases shown : p d with
    | false => rfl
    | true => exact only d shown
  rw [← nodes]
  refine List.rel_filter (fun d m stands => ?_) h.children
  show p d = true ↔ q m = true
  rw [same d m stands]

/-- The named children are those of the parts that are shown. -/
theorem Stands.named (h : (node type isNamed field parts).Stands source n) :
    List.Forall₂ (Stands source) (parts.filter Draft.isShown) n.named := by
  refine h.filter (fun d shown => ?_) fun d m stands => stands.isShown
  cases d with
  | gap t => contradiction
  | node => rfl

theorem Stands.playing (h : (node type isNamed field parts).Stands source n) (name : String) :
    List.Forall₂ (Stands source) (parts.filter fun c => c.field? == some name) (n.parts name) := by
  refine h.filter (fun d plays => ?_) fun d m stands => by rw [stands.field?]
  cases d with
  | gap t => contradiction
  | node => rfl

/-- The child in a part is the one of the part of the draft. -/
theorem Stands.part? (h : (node type isNamed field parts).Stands source n) (name : String)
    (found : parts.find? (fun c => c.field? == some name) = some d) :
    ∃ m ∈ n.children, n.part? name = some m ∧ d.Stands source m := by
  have plays := h.playing name
  rw [← List.head?_filter] at found
  have first : n.part? name = (n.parts name).head? := List.head?_filter.symm
  cases drafts : parts.filter fun c => c.field? == some name with
  | nil => rw [drafts] at found; contradiction
  | cons d' ds =>
    obtain rfl : d' = d := by rw [drafts] at found; exact Option.some.inj found
    rw [drafts] at plays
    cases nodes : n.parts name with
    | nil => rw [nodes] at plays; contradiction
    | cons m ms =>
      rw [nodes] at plays first
      have part : n.part? name = some m := first
      exact ⟨m, List.mem_of_find?_eq_some part, part, (List.forall₂_cons.mp plays).1⟩

theorem Stands.part?_eq_none (h : (node type isNamed field parts).Stands source n) {name : String}
    (missing : parts.find? (fun c => c.field? == some name) = none) : n.part? name = none := by
  have plays := h.playing name
  rw [List.filter_eq_nil_iff.mpr (List.find?_eq_none.mp missing), List.forall₂_nil_left_iff] at plays
  have first : n.part? name = (n.parts name).head? := List.head?_filter.symm
  rw [first, plays]
  rfl

end

end Draft

end ScopeExit
