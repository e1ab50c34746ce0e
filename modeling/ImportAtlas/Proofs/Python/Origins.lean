import ImportAtlas.Proofs.Python.Gaps
import ImportAtlas.Proofs.Python.Nodes

/-!
# Where import nodes come from

Every import node of a tree was read by one of the two readers of import statements, at a place of the
source that is the position of the node. This module says what that means and proves it of the readers
that the rules of the grammar are made of; the rules themselves follow in
`ImportAtlas.Proofs.Python.Rules`.

Main definitions:

* `ImportAtlas.Python.Cursor.In`, `ImportAtlas.Python.Stream.In` — places and tokens of a source;
* `ImportAtlas.Python.Tree.ReadIn` — an import node that was read in a source;
* `ImportAtlas.Python.Traced` — values all of whose import nodes were read in a source;
* `ImportAtlas.Python.Yields`, `ImportAtlas.Python.Traces` — what a reader gives in a source, and
  readers that give such values.

Main results:

* `ImportAtlas.Python.Stream.in_fetch` — tokens are read inside the source;
* `ImportAtlas.Python.Yields.bind`, `ImportAtlas.Python.traces_loop`, `ImportAtlas.Python.traces_orElse` —
  readers one after the other, loops and choices of readers;
* `ImportAtlas.Python.traces_importStatement`, `ImportAtlas.Python.traces_fromStatement` — **import nodes
  are what these readers give**.
-/

set_option autoImplicit false

namespace ImportAtlas.Python

open Reader

/-! ### Places of a source -/

/-- The position behind some characters. -/
def Position.after (text : List Char) : Position := text.foldl Position.next ⟨0, 0⟩

theorem Position.after_concat (text : List Char) (c : Char) :
    Position.after (text ++ [c]) = (Position.after text).next c := by
  rw [after, List.foldl_append, after]
  rfl

/-- A source that is read. -/
structure Script where
  chars : List Char

/-- A place in a source: what remains is behind some characters, and its position is that behind them. -/
def Cursor.In (src : Script) (c : Cursor) : Prop :=
  ∃ before, before ++ c.rest = src.chars ∧ c.left = c.rest.length ∧ c.pos = Position.after before

/-- A token in a source. -/
structure Stream.In (src : Script) (s : Stream) : Prop where
  start : s.start.In src
  next : s.next.In src
  plain : ∀ text, s.token = .word text → s = Stream.plain s.start

variable {src : Script}

namespace Cursor

theorem in_ofChars (src : Script) : (Cursor.ofChars src.chars).In src := ⟨[], rfl, rfl, rfl⟩

theorem In.step {c : Cursor} (h : c.In src) : c.step.In src := by
  obtain ⟨before, hsrc, hleft, hpos⟩ := h
  unfold Cursor.step
  split
  · exact ⟨before, hsrc, hleft, hpos⟩
  · next ch rest hrest =>
      rw [hrest] at hsrc hleft
      refine ⟨before ++ [ch], by rw [← hsrc]; simp, ?_, ?_⟩
      · simp [hleft]
      · rw [Position.after_concat, ← hpos]

theorem In.skip {c : Cursor} (h : c.In src) (n : Nat) : (c.skip n).In src := by
  induction n generalizing c with
  | zero => exact h
  | succ n ih => exact ih h.step

theorem In.skipWhile {c : Cursor} (h : c.In src) (p : Char → Bool) : (c.skipWhile p).In src := h.skip _

end Cursor

namespace Stream

theorem in_plain {c : Cursor} (h : c.In src) : (Stream.plain c).In src := by
  refine ⟨by rwa [start_plain], ?_, fun _ _ => by rw [start_plain]⟩
  unfold Stream.plain
  split
  · exact h
  · split
    · exact h.skip _
    · split
      · split
        · exact h.skip _
        · exact h
      · exact h.skip _

theorem in_layout? {w : Want} {c : Cursor} {s : Stream} (hs : layout? w c = some s) (h : c.In src) :
    s.In src := by
  unfold layout? at hs
  split at hs
  · cases hs
  · split at hs
    · cases hs
      exact ⟨h, h, nofun⟩
    · split at hs
      · cases hs
        exact ⟨h, h, nofun⟩
      · split at hs
        · cases hs
          exact ⟨h, h, nofun⟩
        · split at hs
          · dsimp only at hs
            split at hs
            · cases hs
              exact ⟨h.skip _, (h.skip _).skip _, nofun⟩
            · cases hs
          · cases hs

theorem in_fetchWith {w : Want} {fuel : Nat} {c : Cursor} (h : c.In src) :
    (fetchWith w fuel c).In src := by
  induction fuel generalizing c with
  | zero => exact ⟨h, h, nofun⟩
  | succ fuel ih =>
      rw [fetchWith]
      split
      · next hs => exact in_layout? hs h
      · have hskip := h.skipWhile isFiller
        dsimp only
        split
        · exact ih (hskip.skipWhile _)
        · split
          · exact in_plain hskip
          · exact ih (hskip.skip _)

/-- Tokens are read inside the source. -/
theorem in_fetch {c : Cursor} (h : c.In src) (w : Want) : (fetch w c).In src := in_fetchWith h

end Stream

/-! ### Values -/

/-- An import node that was read in a source, whatever its role. -/
def Tree.ReadIn (src : Script) (n : Tree) : Prop :=
  ∃ s t s', s.In src ∧ (importStatement s = .ok (t, s') ∨ fromStatement s = .ok (t, s')) ∧
    ∃ role, n = t.withRole role

/-- Values all of whose import nodes were read in a source, and whose places are in it. -/
class Traced (α : Type) where
  traced : Script → α → Prop

export Traced (traced)

instance : Traced Tree := ⟨fun src t => ∀ n ∈ t.importNodes, n.ReadIn src⟩

instance : Traced (List Tree) := ⟨fun src ts => ∀ t ∈ ts, traced src t⟩

instance : Traced Piece := ⟨fun src p => traced src p.trees⟩

instance : Traced Exprs := ⟨fun src es => traced src es.parts⟩

instance : Traced Cursor := ⟨Cursor.In⟩

instance : Traced Stream := ⟨Stream.In⟩

instance : Traced Unit := ⟨fun _ _ => True⟩

instance : Traced Bool := ⟨fun _ _ => True⟩

instance : Traced Token := ⟨fun _ _ => True⟩

instance : Traced Position := ⟨fun _ _ => True⟩

instance {α : Type} [Traced α] : Traced (Option α) := ⟨fun src a => ∀ x ∈ a, traced src x⟩

instance {α β : Type} [Traced α] [Traced β] : Traced (α ⊕ β) :=
  ⟨fun src s => s.elim (traced src) (traced src)⟩

instance {α β : Type} [Traced α] [Traced β] : Traced (α × β) :=
  ⟨fun src p => traced src p.1 ∧ traced src p.2⟩

theorem traced_nil : traced src ([] : List Tree) := nofun

theorem traced_append {ts us : List Tree} :
    traced src (ts ++ us) ↔ traced src ts ∧ traced src us := List.forall_mem_append

theorem traced_cons {t : Tree} {ts : List Tree} :
    traced src (t :: ts) ↔ traced src t ∧ traced src ts := List.forall_mem_cons

theorem traced_exprs {es : Exprs} : traced src es ↔ traced src es.parts := Iff.rfl

theorem traced_none {α : Type} [Traced α] : traced src (none : Option α) := nofun

section

variable {kind : Kind} (hstatement : kind ≠ .importStatement) (hfrom : kind ≠ .importFrom)
include hstatement hfrom

theorem traced_node {role : Role} {pos : Position} {text : String} {ts : List Tree} :
    traced src (Tree.node kind role pos text ts) ↔ traced src ts := by
  have himport : (Tree.node kind role pos text ts).isImport = false := by
    simp [Tree.isImport, Tree.kind, hstatement, hfrom]
  change (∀ n ∈ (Tree.node kind role pos text ts).importNodes, n.ReadIn src) ↔ _
  rw [Tree.importNodes_eq, himport, if_neg Bool.false_ne_true, List.forall_mem_flatMap]
  rfl

/-- A node that is no import node has the import nodes of its parts. -/
theorem traced_inner {pos : Position} {ts : List Tree} :
    traced src (Tree.inner kind pos ts) ↔ traced src ts := traced_node hstatement hfrom

theorem traced_leaf {pos : Position} {text : String} :
    traced src (Tree.leaf kind pos text) := (traced_node hstatement hfrom).2 traced_nil

end

theorem traced_withRole {t : Tree} {role : Role} (h : traced src t) :
    traced src (t.withRole role) := by
  obtain ⟨kind, role', pos, text, ts⟩ := t
  cases himport : (Tree.node kind role' pos text ts).isImport with
  | true =>
      have himport' : (Tree.node kind role pos text ts).isImport = true := himport
      intro n hn
      rw [Tree.withRole, Tree.importNodes_of_isImport himport'] at hn
      have hself : Tree.node kind role' pos text ts ∈ (Tree.node kind role' pos text ts).importNodes := by
        rw [Tree.importNodes_of_isImport himport]
        exact List.mem_singleton_self _
      obtain ⟨s, ⟨kind', role'', pos', text', ts'⟩, s', hs, hread, r, hr⟩ := h _ hself
      cases hr
      exact ⟨s, _, s', hs, hread, role, List.mem_singleton.1 hn⟩
  | false =>
      have hkind : kind ≠ .importStatement ∧ kind ≠ .importFrom := by
        rw [Tree.isImport, Bool.or_eq_false_iff, decide_eq_false_iff_not, decide_eq_false_iff_not] at himport
        exact himport
      exact (traced_node hkind.1 hkind.2).2 ((traced_node hkind.1 hkind.2).1 h)

theorem traced_parts {p : Piece} {pos : Position} (h : traced src p) :
    traced src (p.parts pos) := by
  unfold Piece.parts
  split
  · exact h
  · exact traced_nil
  · rw [traced_cons, traced_inner (by decide) (by decide)]
    exact ⟨h, traced_nil⟩

/-- Trees that become one node. -/
theorem traced_plain {trees : List Tree} {pos : Position} (h : traced src trees) :
    traced src (Tree.inner .plain pos trees) := (traced_inner (by decide) (by decide)).2 h

theorem traced_wrap {trees : List Tree} {pos : Position} (h : traced src trees) :
    traced src [Tree.inner .plain pos trees] := traced_cons.2 ⟨traced_plain h, traced_nil⟩

/-! ### Readers -/

/-- What a reader gives at a place of a source: a value with some property, and a place of the source
behind it. -/
def Yields {α : Type} (src : Script) (p : Reader α) (Q : α → Prop) : Prop :=
  ∀ s, s.In src → ∀ a s', p s = .ok (a, s') → s'.In src ∧ Q a

/-- A reader whose values have no import nodes but those that were read in the source. -/
abbrev Traces {α : Type} [Traced α] (src : Script) (p : Reader α) : Prop :=
  Yields src p (traced src)

section

variable {α β σ : Type} {P : α → Prop} {Q : β → Prop}

/-- What a reader gives is handed to the next one. -/
theorem Yields.bind {p : Reader α} {f : α → Reader β} (hp : Yields src p P)
    (hf : ∀ a, P a → Yields src (f a) Q) : Yields src (p >>= f) Q := by
  intro s hs b s' h
  change (p s >>= fun r => f r.1 r.2) = .ok (b, s') at h
  cases hread : p s with
  | error e =>
      rw [hread] at h
      cases h
  | ok r =>
      rw [hread] at h
      obtain ⟨hr, ha⟩ := hp s hs r.1 r.2 hread
      exact hf r.1 ha r.2 hr b s' h

theorem Yields.pure {b : β} (h : Q b) : Yields src (pure b : Reader β) Q := by
  intro s hs b' s' hread
  cases hread
  exact ⟨hs, h⟩

/-- A reader that fails gives nothing. -/
theorem Yields.refuse : Yields src (refuse : Reader β) Q := by
  intro s hs b s' hread
  cases hread

theorem Yields.ite {p q : Reader β} {c : Prop} [Decidable c] (hp : Yields src p Q)
    (hq : Yields src q Q) : Yields src (if c then p else q) Q := by
  split
  · exact hp
  · exact hq

/-- Two ways to go on, between which a reader decides. -/
theorem Yields.branch {cond : Reader Bool} {p q : Reader β} (hc : Traces src cond)
    (hp : Yields src p Q) (hq : Yields src q Q) :
    Yields src (cond >>= fun b => if b = true then p else q) Q :=
  hc.bind fun _ _ => .ite hp hq

theorem traces_get : Traces src (get : Reader Stream) := by
  intro s hs a s' h
  cases h
  exact ⟨hs, hs⟩

theorem traces_set {s : Stream} (h : s.In src) : Traces src (set s : Reader Unit) := by
  intro _ _ a s' hset
  cases hset
  exact ⟨h, trivial⟩

theorem traces_goTo {c : Cursor} (h : c.In src) (w : Want) : Traces src (goTo w c) :=
  traces_set (Stream.in_fetch h w)

theorem traces_peek : Traces src peek := traces_get.bind fun _ _ => .pure trivial

theorem traces_here : Traces src here := traces_get.bind fun _ _ => .pure trivial

theorem traces_take (w : Want) : Traces src (take w) :=
  traces_get.bind fun _ hs => traces_goTo hs.next w

theorem traces_atMark (m : Mark) : Traces src (atMark m) := traces_peek.bind fun _ _ => .pure trivial

theorem traces_atWord (text : String) : Traces src (atWord text) :=
  traces_peek.bind fun _ _ => .pure trivial

theorem traces_mark (m : Mark) (w : Want) : Traces src (mark m w) :=
  .branch (traces_atMark m) (traces_take w) .refuse

theorem traces_mark? (m : Mark) (w : Want) : Traces src (mark? m w) :=
  .branch (traces_atMark m) ((traces_take w).bind fun _ _ => .pure trivial) (.pure trivial)

theorem traces_keyword (text : String) (w : Want) : Traces src (keyword text w) :=
  .branch (traces_atWord text) (traces_take w) .refuse

theorem traces_keyword? (text : String) (w : Want) : Traces src (keyword? text w) :=
  .branch (traces_atWord text) ((traces_take w).bind fun _ _ => .pure trivial) (.pure trivial)

theorem traces_ident (w : Want) : Traces src (ident w) := by
  refine traces_peek.bind fun token _ => ?_
  split
  · exact traces_get.bind fun _ hs => (traces_take w).bind fun _ _ => .pure hs.next
  · exact .refuse

theorem traces_newline (w : Want) : Traces src (newline w) :=
  traces_peek.bind fun _ _ => .ite (traces_take w) .refuse

/-- A choice between readers. -/
theorem traces_orElse [Traced α] {p q : Reader α} (hp : Traces src p) (hq : Traces src q) :
    Traces src (orElse p q) := by
  intro s hs a s' h
  unfold orElse at h
  split at h
  · next r hr =>
      cases h
      exact hp s hs a s' hr
  · split at h
    · next r hr =>
        cases h
        exact hq s hs a s' hr
    · cases h

/-- A loop gives what its rounds keep. -/
theorem traces_loop [Traced σ] [Traced α] {step : σ → Reader (σ ⊕ α)} {x : σ}
    (hstep : ∀ x, traced src x → Traces src (step x)) (hx : traced src x) :
    Traces src (loop step x) := by
  have hloop : ∀ fuel x, traced src x → Traces src (loopWith step fuel x) := by
    intro fuel
    induction fuel with
    | zero => exact fun _ _ => .refuse
    | succ fuel ih =>
        intro x hx
        refine (hstep x hx).bind fun next hnext => ?_
        cases next with
        | inl y => exact ih y hnext
        | inr a => exact .pure hnext
  exact traces_get.bind fun s _ => hloop _ x hx

end

/-! ### Import statements -/

theorem traces_dottedName (w : Want) : Traces src (dottedName w) := by
  refine traces_get.bind fun s _ => (traces_ident w).bind fun first hfirst => ?_
  refine (traces_loop (fun last hlast => ?_) hfirst).bind fun last _ =>
    .pure (traced_leaf (by decide) (by decide))
  refine .branch (traces_mark? _ _) ?_ (.pure hlast)
  exact (traces_ident w).bind fun next hnext => .pure hnext

theorem traces_importName (w : Want) : Traces src (importName w) := by
  refine traces_here.bind fun pos _ => (traces_dottedName w).bind fun name hname => ?_
  refine .branch (traces_keyword? _ _) ?_ (.pure hname)
  refine (traces_ident w).bind fun _ _ => .pure ?_
  rw [traced_inner (by decide) (by decide), traced_cons]
  exact ⟨traced_withRole hname, traced_nil⟩

theorem traces_importNames (w : Want) : Traces src (importNames w) := by
  refine (traces_importName w).bind fun first hfirst => ?_
  refine traces_loop (fun names hnames => ?_) (traced_cons.2 ⟨traced_withRole hfirst, traced_nil⟩)
  refine .branch (traces_mark? _ _) ?_ (.pure hnames)
  refine traces_peek.bind fun token _ => ?_
  split
  · refine (traces_importName w).bind fun name hname => .pure (traced_append.2 ⟨hnames, ?_⟩)
    exact traced_cons.2 ⟨traced_withRole hname, traced_nil⟩
  · exact .pure hnames

theorem traces_importNamesOrBracketed : Traces src importNamesOrBracketed := by
  refine .branch (traces_mark? _ _) ?_ (traces_importNames _)
  exact (traces_importNames _).bind fun names hnames => (traces_mark _ _).bind fun _ _ => .pure hnames

theorem traces_importDots : Traces src importDots := by
  refine traces_get.bind fun s hs => ?_
  refine (traces_loop (fun last hlast => ?_) hs.start).bind fun last _ =>
    .pure (traced_leaf (by decide) (by decide))
  refine (traces_atMark _).bind fun _ _ => (traces_atMark _).bind fun _ _ => .ite ?_ (.pure hlast)
  exact traces_get.bind fun t ht => (traces_take _).bind fun _ _ => .pure ht.next

theorem traces_importSource : Traces src importSource := by
  refine (traces_atMark _).bind fun _ _ => (traces_atMark _).bind fun _ _ =>
    .ite ?_ (traces_dottedName _)
  refine traces_here.bind fun pos _ => traces_importDots.bind fun dots hdots => ?_
  refine .branch (traces_atWord _) (.pure ?_) ?_
  · rw [traced_inner (by decide) (by decide), traced_cons]
    exact ⟨hdots, traced_nil⟩
  · refine (traces_dottedName _).bind fun name hname => .pure ?_
    rw [traced_inner (by decide) (by decide), traced_cons, traced_cons]
    exact ⟨hdots, hname, traced_nil⟩

/-- What the two readers of import statements give was read in the source. -/
theorem traces_of_yields {p : Reader Tree}
    (hp : ∀ s t s', p s = .ok (t, s') → importStatement s = .ok (t, s') ∨ fromStatement s = .ok (t, s'))
    (h : Yields src p fun t => t.isImport = true ∨ traced src t) : Traces src p := by
  intro s hs t s' hread
  obtain ⟨hs', himport | ht⟩ := h s hs t s' hread
  · refine ⟨hs', fun n hn => ?_⟩
    rw [Tree.importNodes_of_isImport himport, List.mem_singleton] at hn
    refine ⟨s, t, s', hs, hp s t s' hread, t.role, ?_⟩
    rw [hn]
    cases t
    rfl
  · exact ⟨hs', ht⟩

theorem traces_importStatement : Traces src importStatement := by
  refine traces_of_yields (fun _ _ _ h => .inl h) ?_
  refine traces_here.bind fun pos _ => (traces_keyword _ _).bind fun _ _ => ?_
  exact (traces_importNames _).bind fun names _ => .pure (.inl rfl)

theorem traces_fromStatement : Traces src fromStatement := by
  refine traces_of_yields (fun _ _ _ h => .inr h) ?_
  refine traces_here.bind fun pos _ => (traces_keyword _ _).bind fun _ _ => ?_
  refine .branch (traces_keyword? _ _) ?_ ?_
  · -- a statement about the language itself is no import node
    refine (traces_keyword _ _).bind fun _ _ => ?_
    refine traces_importNamesOrBracketed.bind fun names hnames => .pure (.inr ?_)
    rwa [traced_inner (by decide) (by decide)]
  · refine traces_importSource.bind fun source _ => (traces_keyword _ _).bind fun _ _ => ?_
    refine traces_here.bind fun star _ => .branch (traces_mark? _ _) (.pure (.inl rfl)) ?_
    exact traces_importNamesOrBracketed.bind fun names _ => .pure (.inl rfl)

end ImportAtlas.Python
