import ScopeExit.Proofs.Engine.Drain
import ScopeExit.Proofs.Engine.History
/-!
A breach of a contract or a fatal failure ends a drain, and the frame is left all the same.

The actions that such a drain has not handed out stay in the arena until the frame is left.  The bodies
of actions are only asked to leave the live frames as they found them; what this means for the arena is
shown here.  Nothing below the part of the frame can have changed, since actions are put in and taken
off at the end only and a frame that was left never comes back, and in the part itself actions can only
have been taken off, since a frame whose drain is begun gets no more.  So at every moment the arena is
what it was below the frame and a prefix of the part, and leaving cuts it back to the mark.
-/
namespace ScopeExit

variable {β σ : Type}

namespace Registry

/-! ### What stays while a drain is begun -/

/-- The frame with an identity is live, its drain is begun, and the arena begins with `below` and a
prefix of `own`, which is the part of the frame. -/
inductive Holds (id : Nat) (below own : List (Action β)) (r : Registry β) : Prop
  | intro (outer inner : List ScopeFrame) (f : ScopeFrame) (left above : List (Action β))
      (frames : r.frames = outer ++ f :: inner) (ident : f.id = id) (begun : f.begun = true)
      (mark : f.mark = below.length) (part : left <+: own)
      (arena : r.arena.actions = below ++ left ++ above)
      (next : ∀ g ∈ inner.head?, g.mark = (below ++ left).length)
      (top : inner = [] → above = [])

/-- The innermost frame is a given live frame or lies inside it. -/
theorem innermost_cases {outer inner outer' : List ScopeFrame} {f k : ScopeFrame}
    (e : outer ++ f :: inner = outer' ++ [k]) :
    (inner = [] ∧ outer = outer' ∧ f = k) ∨
      ∃ inner', inner = inner' ++ [k] ∧ outer' = outer ++ f :: inner' := by
  rcases List.eq_nil_or_concat inner with rfl | ⟨inner', g, rfl⟩
  · obtain ⟨houter, hf⟩ := List.append_inj' e rfl
    exact .inl ⟨rfl, houter, by simpa using hf⟩
  · rw [List.concat_eq_append, ← List.cons_append, ← List.append_assoc] at e
    obtain ⟨houter, hg⟩ := List.append_inj' e rfl
    obtain rfl : g = k := by simpa using hg
    exact .inr ⟨inner', List.concat_eq_append, houter.symm⟩

/-- Whether a frame inside is the next one does not depend on its flags and counts. -/
theorem next_replaced {inner : List ScopeFrame} {g k : ScopeFrame} {n : Nat} (hk : k.mark = g.mark)
    (next : ∀ x ∈ (inner ++ [g]).head?, x.mark = n) : ∀ x ∈ (inner ++ [k]).head?, x.mark = n := by
  cases inner with
  | nil => simpa [hk] using next
  | cons => exact next

/-- The mark of a frame inside another one is not below the part of that one. -/
theorem Sound.mark_inner {r : Registry β} (hs : r.Sound) {outer inner : List ScopeFrame}
    {f k : ScopeFrame} (e : r.frames = outer ++ f :: (inner ++ [k])) {n : Nat}
    (next : ∀ g ∈ (inner ++ [k]).head?, g.mark = n) : n ≤ k.mark := by
  have marks := hs.laid.marks.1
  rw [List.pairwise_reverse, e, List.pairwise_append, List.pairwise_cons] at marks
  cases inner with
  | nil => exact Nat.le_of_eq (next k rfl).symm
  | cons g inner =>
    rw [← next g rfl]
    exact (List.pairwise_cons.mp marks.2.1.2).1 k (by simp)

/-- The flags of a frame may change, as long as a drain that is begun stays so. -/
theorem Holds.replace {r : Registry β} {id : Nat} {below own : List (Action β)}
    (h : Holds id below own r) {outer' inner' : List ScopeFrame} {k k' : ScopeFrame}
    (hr : r.frames = outer' ++ k :: inner') (hid : k'.id = k.id) (hmark : k'.mark = k.mark)
    (hbegun : k.begun = true → k'.begun = true) :
    Holds id below own { r with frames := outer' ++ k' :: inner' } := by
  obtain ⟨outer, inner, f, left, above, frames, rfl, begun, mark, part, arena, next, top⟩ := h
  -- the frame itself, a frame around it or one inside it
  have itself : k = f → outer' = outer → inner' = inner →
      Holds f.id below own { r with frames := outer' ++ k' :: inner' } := by
    rintro rfl rfl rfl
    exact .intro outer' inner' k' left above rfl hid (hbegun begun) (hmark.trans mark) part arena next
      top
  rcases List.append_eq_append_iff.mp (hr.symm.trans frames) with ⟨mid, hout, hin⟩ | ⟨mid, hout, hin⟩
  · cases mid with
    | nil =>
      obtain ⟨hk, hinner⟩ := List.cons.inj hin
      exact itself hk (by simpa using hout.symm) hinner
    | cons g mid =>
      obtain ⟨rfl, rfl⟩ := List.cons.inj hin
      exact .intro (outer' ++ k' :: mid) inner f left above
        (List.append_assoc outer' (k' :: mid) (f :: inner)).symm rfl begun mark part arena next top
  · cases mid with
    | nil =>
      obtain ⟨hk, hinner⟩ := List.cons.inj hin
      exact itself hk.symm (by simpa using hout) hinner.symm
    | cons g mid =>
      obtain ⟨rfl, rfl⟩ := List.cons.inj hin
      refine .intro outer (mid ++ k' :: inner') f left above ?_ rfl begun mark part arena ?_ (by simp)
      · exact (congrArg (· ++ k' :: inner') hout).trans (List.append_assoc ..)
      · cases mid with
        | nil =>
          intro g hg
          obtain rfl := Option.some.inj hg
          exact hmark.trans (next k rfl)
        | cons => exact next

/-- An operation leaves it that way, or leaves the frame. -/
theorem Holds.operation {r r' : Registry β} (hs : r.Sound) {id : Nat} {below own : List (Action β)}
    (h : Holds id below own r) (o : Operation r r') :
    Holds id below own r' ∨ id ∉ r'.frames.map ScopeFrame.id := by
  have whole := h
  obtain ⟨outer, inner, f, left, above, frames, rfl, begun, mark, part, arena, next, top⟩ := h
  cases o with
  | enter kind isAsync span =>
    left
    refine .intro outer (inner ++ [_]) f left above
      ((congrArg (· ++ _) frames).trans (List.append_assoc ..)) rfl begun mark part arena ?_ (by simp)
    cases inner with
    | nil =>
      obtain rfl := top rfl
      intro g hg
      obtain rfl := Option.some.inj hg
      simp [Arena.size, arena]
    | cons => exact next
  | @register _ handle a e =>
    left
    obtain ⟨outer', k, hr, -, hb, -, -, rfl⟩ := register_ok e
    rcases innermost_cases (frames.symm.trans hr) with ⟨-, -, rfl⟩ | ⟨inner', rfl, rfl⟩
    · simp [begun] at hb
    · exact .intro outer (inner' ++ [counted k a]) f left (above ++ [a]) (List.append_assoc ..) rfl
        begun mark part (by simp [Arena.push, arena]) (next_replaced (g := k) (k := counted k a) rfl next)
        (by simp)
  | beginDrain e =>
    left
    obtain ⟨outer', k, hr, -, -, rfl, rfl⟩ := beginDrain_ok e
    exact whole.replace hr rfl rfl (by simp [ScopeFrame.begun])
  | @popAction _ handle k a? hf e =>
    left
    obtain ⟨outer', hr, rfl⟩ := innermostFrame_ok hf
    obtain ⟨-, ⟨-, -, rfl⟩ | ⟨a, arena', -, hpop, rfl⟩⟩ := popAction_ok (frame_innermost hr) e
    · exact .intro outer inner f left above frames rfl begun mark part arena next top
    · rcases innermost_cases (frames.symm.trans hr) with ⟨rfl, -, rfl⟩ | ⟨inner', rfl, rfl⟩
      · obtain rfl := top rfl
        rw [List.append_nil] at arena
        obtain ⟨left', rfl, rfl⟩ := popped_own arena mark hpop
        exact .intro outer [] f left' [] frames rfl begun mark
          ((List.prefix_append left' [a]).trans part) (by simp) (by simp) (fun _ => rfl)
      · -- what is taken off lies above the mark of a frame inside
        obtain ⟨below', own', hacts, -, hmark, -⟩ := hs.innermost hr
        obtain ⟨rest, rfl, rfl⟩ := popped_own hacts hmark hpop
        have hle := hs.mark_inner frames next
        rw [arena, ← List.append_assoc] at hacts
        rcases List.eq_nil_or_concat above with rfl | ⟨above', x, rfl⟩
        · have := congrArg List.length hacts
          simp only [List.length_append, List.length_singleton, List.length_nil] at this hle
          omega
        · rw [List.concat_eq_append, ← List.append_assoc] at hacts
          exact .intro outer (inner' ++ [k]) f left above' frames rfl begun mark part
            (List.append_inj' hacts rfl).1.symm next (by simp)
  | finishDrain e =>
    left
    obtain ⟨outer', k, inner', hr, -, rfl⟩ := finishDrain_ok e
    exact whole.replace hr rfl rfl fun _ => rfl
  | exit e =>
    obtain ⟨outer', k, hr, -, rfl⟩ := exit_ok e
    rcases innermost_cases (frames.symm.trans hr) with ⟨-, rfl, rfl⟩ | ⟨inner', rfl, rfl⟩
    · right
      have hids := hs.ids
      rw [hr, List.pairwise_append] at hids
      intro hmem
      obtain ⟨g, hg, hid⟩ := List.mem_map.mp hmem
      have := hids.2.2 g hg f (by simp)
      omega
    · left
      obtain ⟨n, hn⟩ := Nat.exists_eq_add_of_le (hs.mark_inner frames next)
      refine .intro outer inner' f left (above.take n) rfl rfl begun mark part ?_ ?_ ?_
      · simp only [Arena.truncate, arena, hn, List.take_length_add_append]
      · intro g hg
        cases inner' with
        | nil => contradiction
        | cons => exact next g hg
      · rintro rfl
        have := next k rfl
        have hzero : n = 0 := by omega
        rw [hzero, List.take_zero]

/-- It stays that way for as long as the frame is live. -/
theorem Holds.reaches {r r' : Registry β} (hs : r.Sound) {id : Nat} {below own : List (Action β)}
    (h : Holds id below own r) (hr : r.Reaches r') (live : id ∈ r'.frames.map ScopeFrame.id) :
    Holds id below own r' := by
  have issued : id < r.nextId := by
    obtain ⟨_, _, f, _, _, frames, rfl, -⟩ := h
    exact hs.issued f (by simp [frames])
  have key : Holds id below own r' ∨ id ∉ r'.frames.map ScopeFrame.id := by
    clear live
    induction hr with
    | refl => exact .inl h
    | tail hr o ih =>
      rcases ih with ih | gone
      · exact ih.operation (hs.reaches hr) o
      · exact .inr (o.identities (Nat.lt_of_lt_of_le issued (Reaches.nextId_le hr)) gone).2
  exact key.resolve_right (not_not_intro live)

/-- If the frame is the innermost one, there is nothing above its part. -/
theorem Holds.innermost {r : Registry β} (hs : r.Sound) {outer : List ScopeFrame} {f : ScopeFrame}
    {below own : List (Action β)} (h : Holds f.id below own r) (e : r.frames = outer ++ [f]) :
    ∃ left, left <+: own ∧ r.arena = ⟨below ++ left⟩ := by
  obtain ⟨_, inner, g, left, above, frames, ident, -, -, part, arena, -, top⟩ := h
  rcases innermost_cases (frames.symm.trans e) with ⟨hinner, -⟩ | ⟨inner', rfl, -⟩
  · obtain rfl := top hinner
    exact ⟨left, part, by rw [← List.append_nil (below ++ left), ← arena]⟩
  · have hids := hs.ids
    rw [frames, List.pairwise_append, List.pairwise_cons] at hids
    have := hids.2.1.1 f (by simp)
    omega

end Registry

/-! ### A drain that is given up -/

/-- A body may succeed or fail in any way.  It may do operations on the registry, but it leaves the live
frames as it found them. -/
structure Restores (body : σ → Registry β → Option Failure → σ → Registry β → Prop) : Prop where
  /-- It comes to an end. -/
  ends : ∀ s r, r.Reachable → ∃ failure? s' r', body s r failure? s' r'
  /-- All that it does with the registry are operations. -/
  reaches : ∀ {s r failure? s' r'}, r.Reachable → body s r failure? s' r' → r.Reaches r'
  frames : ∀ {s r failure? s' r'}, r.Reachable → body s r failure? s' r' → r'.frames = r.frames

/-- A body leaves the arena as it found it. -/
def KeepsArena (body : σ → Registry β → Option Failure → σ → Registry β → Prop) : Prop :=
  ∀ {s r failure? s' r'}, r.Reachable → body s r failure? s' r' → r'.arena = r.arena

namespace Drain

/-- How a drain may end: after ordinary failures only, or with the first one that is not ordinary. -/
inductive Concluded : List (Action β × Option Failure) → Except Failure DrainOutcome → Prop
  | completed {ran : List (Action β × Option Failure)} {o : DrainOutcome}
      (ordinary : ∀ x ∈ ran, ∀ e ∈ x.2, e.severity = .ordinary) : Concluded ran (.ok o)
  | aborted (earlier : List (Action β × Option Failure)) {a : Action β} {e : Failure}
      (ordinary : ∀ x ∈ earlier, ∀ e ∈ x.2, e.severity = .ordinary)
      (severe : e.severity ≠ .ordinary) : Concluded (earlier ++ [(a, some e)]) (.error e)

theorem Concluded.cons {ran : List (Action β × Option Failure)} {result : Except Failure DrainOutcome}
    (h : Concluded ran result) {a : Action β} {failure? : Option Failure}
    (ordinary : ∀ e ∈ failure?, e.severity = .ordinary) : Concluded ((a, failure?) :: ran) result := by
  have first : ∀ {xs : List (Action β × Option Failure)},
      (∀ x ∈ xs, ∀ e ∈ x.2, e.severity = .ordinary) →
      ∀ x ∈ (a, failure?) :: xs, ∀ e ∈ x.2, e.severity = .ordinary := by
    intro xs hxs x hx
    rcases List.mem_cons.mp hx with rfl | hx
    · exact ordinary
    · exact hxs x hx
  cases h with
  | completed rest => exact .completed (first rest)
  | aborted _ rest severe => exact .aborted _ (first rest) severe

/-- A failure that is not ordinary is the last that happens in a drain, and is its result. -/
theorem Concluded.of_severe {ran : List (Action β × Option Failure)}
    {result : Except Failure DrainOutcome} (h : Concluded ran result) {a : Action β} {e : Failure}
    (hmem : (a, some e) ∈ ran) (severe : e.severity ≠ .ordinary) :
    result = .error e ∧ ∃ earlier, ran = earlier ++ [(a, some e)] ∧
      ∀ x ∈ earlier, ∀ e ∈ x.2, e.severity = .ordinary := by
  cases h with
  | completed ordinary => exact absurd (ordinary _ hmem e rfl) severe
  | aborted _ ordinary _ =>
    rcases List.mem_append.mp hmem with hmem | hmem
    · exact absurd (ordinary _ hmem e rfl) severe
    · simp only [List.mem_singleton, Prod.mk.injEq, Option.some.injEq] at hmem
      obtain ⟨rfl, rfl⟩ := hmem
      exact ⟨rfl, _, rfl, ordinary⟩

/-- A failure that is not ordinary ends the drain at once. -/
theorem InProgress.settle_severe {d : Drain} {r : Registry β} {outer : List ScopeFrame}
    {f : ScopeFrame} {below own : List (Action β)} (h : d.InProgress r outer f below own)
    {e : Failure} (severe : e.severity ≠ .ordinary) :
    ∃ r', d.settle r (some e) = (.ended (.error e), r') ∧ r.Reaches r' ∧
      r'.frames = outer ++ [closed f] ∧ r'.arena = r.arena := by
  have hfinish := Registry.finishDrain_eq h.frames
  rw [← h.handle] at hfinish
  refine ⟨_, ?_, .single (.finishDrain hfinish), rfl, rfl⟩
  simp [settle, severe, close, hfinish]

/-- Operations that leave the live frames as they were leave a drain in progress.  They may only have
taken actions off its frame. -/
theorem InProgress.restored {d : Drain} {r r' : Registry β} {outer : List ScopeFrame}
    {f : ScopeFrame} {below own : List (Action β)} (h : d.InProgress r outer f below own)
    (hr : r.Reaches r') (same : r'.frames = r.frames) :
    ∃ left, left <+: own ∧ (r'.arena = r.arena → left = own) ∧
      ∀ d' : Drain, d'.handle = d.handle → d'.InProgress r' outer f below left := by
  have hframes : r'.frames = outer ++ [f] := same.trans h.frames
  have begun : f.begun = true := by simp [ScopeFrame.begun, h.draining]
  have holds : Registry.Holds f.id below own r :=
    .intro outer [] f own [] h.frames rfl begun h.mark (List.prefix_refl own) (by simp [h.arena])
      (by simp) (fun _ => rfl)
  have holds' := holds.reaches h.reachable.sound hr (by simp [hframes])
  obtain ⟨left, hpart, harena⟩ := holds'.innermost (h.reachable.reaches hr).sound hframes
  refine ⟨left, hpart, ?_, fun d' hd => ?_⟩
  · intro keeps
    rw [harena, h.arena] at keeps
    exact List.append_cancel_left (congrArg Arena.actions keeps)
  · exact ⟨h.reachable.reaches hr, hframes, h.draining, hd.trans h.handle, harena, h.mark⟩

/-- Induction along a list from its end, on all prefixes of what is left. -/
theorem prefixRec {α : Type} {P : List α → Prop} (nil : P [])
    (snoc : ∀ own a, (∀ left, left <+: own → P left) → P (own ++ [a])) (own : List α) : P own := by
  suffices all : ∀ left, left <+: own → P left from all own (List.prefix_refl own)
  induction own using List.reverseRecOn with
  | nil =>
    intro left hpart
    obtain rfl := List.prefix_nil.mp hpart
    exact nil
  | append_singleton own a ih =>
    intro left hpart
    rcases List.prefix_concat_iff.mp hpart with rfl | hpart
    · exact snoc own a ih
    · exact ih left hpart

/-- A drain comes to an end. -/
theorem InProgress.exists_runs_restoring {body : BodyRuns β σ} {outer : List ScopeFrame}
    {f : ScopeFrame} {below : List (Action β)} (own : List (Action β))
    (restores : ∀ a ∈ own, Restores (body a.body)) :
    ∀ {d : Drain} {r : Registry β} (s : σ), d.InProgress r outer f below own →
      ∃ ran result s' r', Runs body (d.advance r) s ran result s' r' := by
  induction own using prefixRec with
  | nil =>
    intro d r s h
    obtain ⟨r', hadvance, -⟩ := h.advance_nil
    exact ⟨[], .ok d.outcome, s, r', by rw [hadvance]; exact .ended⟩
  | snoc own a ih =>
    intro d r s h
    obtain ⟨r₁, hadvance, -, h₁⟩ := h.advance_snoc
    have ha : Restores (body a.body) := restores a (by simp)
    obtain ⟨failure?, s₁, r₂, hb⟩ := ha.ends s r₁ h₁.reachable
    obtain ⟨left, hpart, -, h₂⟩ :=
      h₁.restored (ha.reaches h₁.reachable hb) (ha.frames h₁.reachable hb)
    rw [hadvance]
    by_cases ordinary : ∀ e ∈ failure?, e.severity = .ordinary
    · obtain ⟨ran, result, s', r', hrest⟩ := ih left hpart
        (fun b hb => restores b (by simp [hpart.subset hb])) s₁ (h₂ _ (take_handle _ failure?))
      rw [← settle_ordinary _ _ ordinary] at hrest
      exact ⟨_, result, s', r', .run hb hrest⟩
    · push Not at ordinary
      obtain ⟨e, he, severe⟩ := ordinary
      obtain rfl : failure? = some e := he
      obtain ⟨r', hsettle, -⟩ := (h₂ _ rfl).settle_severe severe
      exact ⟨_, .error e, s₁, r', .run hb (by rw [hsettle]; exact .ended)⟩

/-- However the bodies end: the drain runs actions of its frame, the most recent first, until one fails
in a way that is not ordinary, and leaves a prefix of the actions behind. -/
theorem InProgress.concluded {body : BodyRuns β σ} {outer : List ScopeFrame} {f : ScopeFrame}
    {below : List (Action β)} (own : List (Action β))
    (restores : ∀ a ∈ own, Restores (body a.body)) :
    ∀ {d : Drain} {r r' : Registry β} {s s' : σ} {ran : List (Action β × Option Failure)}
      {result : Except Failure DrainOutcome}, d.InProgress r outer f below own →
      Runs body (d.advance r) s ran result s' r' →
      Concluded ran result ∧ (ran.map Prod.fst).Sublist own.reverse ∧
        ((∀ a ∈ own, KeepsArena (body a.body)) → ran.map Prod.fst <+: own.reverse) ∧
        r.Reaches r' ∧ r'.frames = outer ++ [closed f] ∧
        ∃ left, left <+: own ∧ r'.arena = ⟨below ++ left⟩ := by
  induction own using prefixRec with
  | nil =>
    intro d r r' s s' ran result h hruns
    obtain ⟨r₁, hadvance, hreach, hframes, harena⟩ := h.advance_nil
    rw [hadvance] at hruns
    cases hruns
    exact ⟨.completed (by simp), by simp, fun _ => by simp, hreach, hframes, [],
      List.nil_prefix, by simpa using harena⟩
  | snoc own a ih =>
    intro d r r' s s' ran result h hruns
    obtain ⟨r₁, hadvance, hreach₁, h₁⟩ := h.advance_snoc
    have ha : Restores (body a.body) := restores a (by simp)
    rw [hadvance] at hruns
    cases hruns with
    | @run _ _ _ r₂ _ _ s₁ _ failure? ran _ hb hrest =>
      have hreach₂ := ha.reaches h₁.reachable hb
      obtain ⟨left, hpart, hkept, h₂⟩ := h₁.restored hreach₂ (ha.frames h₁.reachable hb)
      rw [List.reverse_append, List.reverse_singleton, List.singleton_append, List.map_cons]
      by_cases ordinary : ∀ e ∈ failure?, e.severity = .ordinary
      · rw [settle_ordinary _ _ ordinary] at hrest
        obtain ⟨hend, horder, hexact, hreach₃, hframes, left', hpart', harena⟩ := ih left hpart
          (fun b hb => restores b (by simp [hpart.subset hb])) (h₂ _ (take_handle _ failure?)) hrest
        refine ⟨hend.cons ordinary, ?_, ?_, (hreach₁.trans hreach₂).trans hreach₃, hframes, left',
          (hpart'.trans hpart).trans (List.prefix_append _ _), harena⟩
        · exact (horder.trans hpart.sublist.reverse).cons_cons a
        · intro keeps
          obtain rfl := hkept (keeps a (by simp) h₁.reachable hb)
          rw [List.prefix_cons_inj]
          exact hexact fun b hb => keeps b (by simp [hb])
      · push Not at ordinary
        obtain ⟨e, he, severe⟩ := ordinary
        obtain rfl : failure? = some e := he
        obtain ⟨r₃, hsettle, hreach₃, hframes, harena⟩ := (h₂ _ rfl).settle_severe severe
        rw [hsettle] at hrest
        cases hrest
        refine ⟨.aborted [] (by simp) severe, ?_, fun _ => ?_,
          (hreach₁.trans hreach₂).trans hreach₃, hframes, left,
          hpart.trans (List.prefix_append _ _), harena.trans (h₂ _ rfl).arena⟩
        · exact (List.nil_sublist _).cons_cons a
        · exact (List.prefix_cons_inj a).mpr List.nil_prefix

end Drain

namespace Registry

/-! ### A dispatch that is given up -/

/-- Leaving the frame after its drain was given up. -/
theorem leave_error_eq {r : Registry β} {outer : List ScopeFrame} {f : ScopeFrame}
    {below left : List (Action β)} (hr : r.frames = outer ++ [Drain.closed f])
    (ha : r.arena = ⟨below ++ left⟩) (hm : f.mark = below.length) (e : Failure) :
    ∃ r', r.leave ⟨f.id, outer.length⟩ (.error e) = ⟨.error e, none, r'⟩ ∧ r.Reaches r' ∧
      r'.frames = outer ∧ r'.arena = ⟨below⟩ := by
  have hexit := exit_eq hr rfl
  refine ⟨_, ?_, .single (.exit hexit), rfl, ?_⟩
  · simp only [leave]
    rw [show f.id = (Drain.closed f).id from rfl, hexit]
  · show r.arena.truncate f.mark = ⟨below⟩
    simp [ha, Arena.truncate, hm]

/-- The next action of the innermost frame, while its drain is in progress, is its most recent one. -/
theorem Sound.popAction_last {r : Registry β} (hs : r.Sound) {outer : List ScopeFrame}
    {f : ScopeFrame} (hr : r.frames = outer ++ [f]) (draining : f.draining = true)
    {own : List (Action β)} (hown : r.pendingActions ⟨f.id, outer.length⟩ = .ok own) :
    ∃ r', r.popAction ⟨f.id, outer.length⟩ = .ok (own.getLast?, r') := by
  obtain ⟨outer', below, own', hr', hh, hacts, hmark, -, hown'⟩ :=
    hs.of_innermostFrame (innermostFrame_eq hr .drain)
  obtain rfl : own' = own := by simpa [hown'] using hown
  rw [popAction_eq hr draining]
  cases hpop : r.arena.pop? f.mark with
  | none =>
    have hle := (Arena.pop?_eq_none_iff _ _).mp hpop
    have hnil : own' = [] := by
      rw [Arena.size, hacts, List.length_append, hmark] at hle
      exact List.eq_nil_of_length_eq_zero (by omega)
    exact ⟨r, by simp [hnil]⟩
  | some popped =>
    obtain ⟨a, arena⟩ := popped
    obtain ⟨rest, rfl, -⟩ := popped_own hacts hmark hpop
    exact ⟨{ r with arena }, by simp⟩

/-- What a dispatch has done that was given up when the action `a` failed with `e`: `actions` are the
actions of the frame, `ran` those that were run. -/
structure Aborted (r : Registry β) (h : FrameHandle) (f : ScopeFrame) (actions : List (Action β))
    (ran : List (Action β × Option Failure)) (a : Action β) (e : Failure) (o : Dispatched β) :
    Prop where
  /-- That very failure comes out, whatever other ones there were. -/
  fails : o.result = .error e
  /-- No drain is reported. -/
  silent : o.record? = none
  /-- No action was run after that one, and those before it failed in an ordinary way, if at all. -/
  last : ∃ earlier, ran = earlier ++ [(a, some e)] ∧
    ∀ x ∈ earlier, ∀ e ∈ x.2, e.severity = .ordinary
  /-- Actions of the frame were run, the most recent one first, each once at most. -/
  order : (ran.map Prod.fst).Sublist actions.reverse
  /-- The frame is gone, and no other one. -/
  frames : o.registry.frames = r.frames.dropLast
  /-- Its actions are gone, those that were not run as well, and no other ones. -/
  arena : o.registry.arena = r.arena.truncate f.mark
  /-- The handle is stale from now on. -/
  stale : ∀ r', o.registry.Reaches r' → r'.frame h = .error (.engine (.staleHandle h.frame))
  /-- The frames around it keep their records and their actions. -/
  outer : ∀ g : FrameHandle, 0 ≤ g.depth → g.depth < h.depth →
    o.registry.frame g = r.frame g ∧ o.registry.pendingActions g = r.pendingActions g
  /-- The next one of them is the innermost frame now: its drain may be opened as if nothing had
  happened, and if it was in progress it goes on with the most recent action. -/
  resumes : ∀ (g : FrameHandle) (k : ScopeFrame), 0 ≤ g.depth → g.depth + 1 = h.depth →
    r.frame g = .ok k →
    (k.begun = false → ∀ mode reason, (mode = .sync → k.asyncActions = 0) →
      ∃ d r', Drain.start o.registry g mode reason = .ok (d, r')) ∧
    (k.draining = true → ∀ own, r.pendingActions g = .ok own →
      ∃ r', o.registry.popAction g = .ok (own.getLast?, r'))

section Innermost

/-! The frame of the handle `h` is the innermost one, its drain is not begun, and its `actions` may be
run in the mode and have bodies that leave the live frames as they found them. -/

variable {body : BodyRuns β σ} {r : Registry β} (hreach : r.Reachable) {h : FrameHandle}
  {f : ScopeFrame} (hf : r.innermostFrame h .drain = .ok f) (fresh : f.begun = false)
  {actions : List (Action β)} (hactions : r.pendingActions h = .ok actions) {mode : ActionMode}
  (sync : mode = .sync → ∀ a ∈ actions, a.mode = .sync)
  (restores : ∀ a ∈ actions, Restores (body a.body))

include hreach hf fresh hactions sync restores

/-- If an action fails in a way that is not ordinary, the dispatch is given up. -/
theorem Dispatches.aborted {reason : ExitReason} {s s' : σ}
    {ran : List (Action β × Option Failure)} {o : Dispatched β}
    (hd : Dispatches body ran r s h mode reason o s') {a : Action β} {e : Failure}
    (hmem : (a, some e) ∈ ran) (severe : e.severity ≠ .ordinary) :
    Aborted r h f actions ran a e o ∧ r.Reaches o.registry ∧
      ((∀ a ∈ actions, KeepsArena (body a.body)) → ran.map Prod.fst <+: actions.reverse) := by
  obtain ⟨outer, below, d, r₁, hr, rfl, hacts, hmark, hstart, hreach₁, hp⟩ :=
    start_innermost hreach hf fresh hactions sync reason
  cases hd with
  | refused start => simp [hstart] at start
  | drained start runs =>
    rw [hstart] at start
    simp only [Except.ok.injEq, Prod.mk.injEq] at start
    obtain ⟨rfl, rfl⟩ := start
    obtain ⟨hend, horder, hexact, hreach₂, hframes, left, -, harena⟩ :=
      hp.concluded actions restores runs
    obtain ⟨rfl, hlast⟩ := hend.of_severe hmem severe
    obtain ⟨r', hleave, hreach₃, hframes', harena'⟩ := leave_error_eq hframes harena hmark e
    rw [hleave]
    have hreaches : r.Reaches r' := (hreach₁.trans hreach₂).trans hreach₃
    have hcut : r'.arena = r.arena.truncate f.mark := by
      simp [harena', Arena.truncate, hacts, hmark]
    obtain ⟨stale, hout⟩ := hreach.removed_innermost hr hreaches hframes' hcut
    refine ⟨⟨rfl, rfl, hlast, horder, by simp [hframes', hr], hcut, stale, hout, ?_⟩, hreaches, hexact⟩
    intro g k hlow hnext hk
    obtain ⟨hsame, hown⟩ := hout g hlow (by simp only at hnext; omega)
    -- the frame around is the innermost one of the registry that is left
    have hinner : r'.innermostFrame g .drain = .ok k := by
      simp only [innermostFrame, hsame, hk, hframes', Bind.bind, Except.bind]
      simp only at hnext
      simp [hnext, Pure.pure, Except.pure]
    obtain ⟨outer', hr', rfl⟩ := innermostFrame_ok hinner
    refine ⟨fun hb mode reason hm => ⟨_, _, Drain.start_eq hr' hb hm reason⟩, ?_⟩
    intro hd own hpending
    exact (hreach.reaches hreaches).sound.popAction_last hr' hd (hown.trans hpending)

end Innermost

/-- **Main result.**  Whatever operations led to a registry, and whatever exit reason is pending: a
dispatch of the innermost frame, whose drain is not begun and whose actions may be run in the mode and
leave the live frames as they found them, comes to an end; and if an action fails in a way that is not
ordinary, the dispatch is given up there and then. -/
theorem dispatch_aborts {body : BodyRuns β σ} {r : Registry β} (hreach : r.Reachable)
    {h : FrameHandle} {f : ScopeFrame} (hf : r.innermostFrame h .drain = .ok f)
    (fresh : f.begun = false) {actions : List (Action β)}
    (hactions : r.pendingActions h = .ok actions) {mode : ActionMode}
    (sync : mode = .sync → ∀ a ∈ actions, a.mode = .sync)
    (restores : ∀ a ∈ actions, Restores (body a.body)) (reason : ExitReason) (s : σ) :
    (∃ ran o s', Dispatches body ran r s h mode reason o s') ∧
      ∀ ran o s', Dispatches body ran r s h mode reason o s' →
        ∀ a e, (a, some e) ∈ ran → e.severity ≠ .ordinary →
          Aborted r h f actions ran a e o ∧ r.Reaches o.registry ∧
            ((∀ a ∈ actions, KeepsArena (body a.body)) → ran.map Prod.fst <+: actions.reverse) := by
  constructor
  · obtain ⟨_, _, d, r₁, -, -, -, -, hstart, -, hp⟩ :=
      start_innermost hreach hf fresh hactions sync reason
    obtain ⟨ran, result, s', r', hruns⟩ := hp.exists_runs_restoring actions restores s
    exact ⟨_, _, _, .drained hstart hruns⟩
  · intro ran o s' hd a e hmem severe
    exact hd.aborted hreach hf fresh hactions sync restores hmem severe

/-- A breach of a contract in a caller's words. -/
def breach : Failure := .single (.contract (.stated .engine "m"))

/-- A body that leaves everything as it is.  It succeeds if its number is 0, fails in an ordinary way if
it is 1, and breaches a contract otherwise. -/
def gradedBody (n : Nat) (_ : Unit) (r : Registry Nat) (failure? : Option Failure) (_ : Unit)
    (r' : Registry Nat) : Prop :=
  failure? = (match n with
    | 0 => none
    | 1 => some (.typeError "")
    | _ => some breach) ∧ r' = r

theorem gradedBody_restores (n : Nat) : Restores (gradedBody n) where
  ends _ r _ := ⟨_, (), r, rfl, rfl⟩
  reaches := by
    rintro _ r _ _ _ - ⟨-, rfl⟩
    exact .refl
  frames := by
    rintro _ r _ _ _ - ⟨-, rfl⟩
    rfl

/-- A frame with one action, and inside it one with three. -/
def nestedActions : Registry Nat :=
  { name := "f", nextId := 2, arena := ⟨[{ body := 0 }, { body := 0 }, { body := 2 }, { body := 1 }]⟩,
    frames := [
      { id := 0, kind := .block, isAsync := false, mark := 0, parent := none, span := .unknown,
        registered := 1 },
      { id := 1, kind := .block, isAsync := false, mark := 1, parent := some 0, span := .unknown,
        registered := 3 }] }

theorem nestedActions_reachable : nestedActions.Reachable := by
  have outer := (History.new (β := Nat) "f").call (.enter .block false .unknown) trivial
  have filled := outer.call (.register ⟨0, 0⟩ { body := 0 }) trivial
  have inner := filled.call (.enter .block false .unknown) trivial
  have first := inner.call (.register ⟨1, 1⟩ { body := 0 }) trivial
  have second := first.call (.register ⟨1, 1⟩ { body := 2 }) trivial
  exact (second.call (.register ⟨1, 1⟩ { body := 1 }) trivial).reachable

/-- The most recent action fails in an ordinary way, the next one breaches a contract, and the first one
is never run. -/
theorem dispatch_aborts_nestedActions :
    ∃ ran o, Dispatches gradedBody ran nestedActions () ⟨1, 1⟩ .sync .normal o () ∧
      ran.map (fun x => x.1.body) = [1, 2] ∧ o.result = .error breach ∧
      o.registry.pendingActions ⟨0, 0⟩ = .ok [{ body := 0 }] := by
  have ordinary : ∀ r, gradedBody 1 () r (some (.typeError "")) () r := fun _ => ⟨rfl, rfl⟩
  have severe : ∀ r, gradedBody 2 () r (some breach) () r := fun _ => ⟨rfl, rfl⟩
  have hd : Dispatches gradedBody
      [({ body := 1 }, some (.typeError "")), ({ body := 2 }, some breach)] nestedActions () ⟨1, 1⟩
      .sync .normal _ () :=
    .drained rfl (.run (ordinary _) (.run (severe _) .ended))
  obtain ⟨-, all⟩ :=
    dispatch_aborts nestedActions_reachable (h := ⟨1, 1⟩) rfl rfl rfl (fun _ => by decide)
      (fun a _ => gradedBody_restores a.body) .normal ()
  obtain ⟨aborted, -⟩ :=
    all _ _ _ hd { body := 2 } breach (List.mem_of_getElem? (i := 1) rfl) (by decide)
  exact ⟨_, _, hd, rfl, aborted.fails, (aborted.outer ⟨0, 0⟩ (by decide) (by decide)).2⟩

/-- Without the condition that only the innermost frame gives up actions, calls lead to a registry in
which a dispatch that is given up changes the actions of an outer frame. -/
theorem crossedMarks_aborts :
    let calls : List (Call Nat) := [.enter .block false .unknown, .register ⟨0, 0⟩ { body := 1 },
      .register ⟨0, 0⟩ { body := 2 }, .beginDrain ⟨0, 0⟩, .enter .block false .unknown,
      .popAction ⟨0, 0⟩, .enter .block false .unknown, .register ⟨2, 2⟩ { body := 3 }]
    calls.foldl (fun r c => (r.answer c).2) { name := "f" } = crossedMarks ∧
      crossedMarks.pendingActions ⟨0, 0⟩ = .ok [{ body := 1 }, { body := 3 }] ∧
      ∃ ran o, Dispatches gradedBody ran crossedMarks () ⟨2, 2⟩ .sync .normal o () ∧
        o.result = .error breach ∧ o.registry.pendingActions ⟨0, 0⟩ = .ok [{ body := 1 }] := by
  refine ⟨rfl, rfl, _, _, .drained rfl (.run ⟨rfl, rfl⟩ .ended), rfl, rfl⟩

end Registry

end ScopeExit
