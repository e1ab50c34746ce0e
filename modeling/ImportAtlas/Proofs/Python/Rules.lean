import ImportAtlas.Proofs.Python.Origins

/-!
# Import nodes of a source

A rule of the grammar is made of readers and of the rules for the constructs inside. If all import nodes
that these give were read in the source, then so were those that the rule gives. There is one lemma for
each part of the grammar, whose proof follows the part: what it reads first, what it goes on with, and
where the trees that it gives come from. The rules for the constructs inside are bounded in depth, so by
induction on the bound this holds of the whole grammar.

Main results:

* `ImportAtlas.Python.traces_rule` — each rule gives what the rules inside give;
* `ImportAtlas.Python.traces_rulesWith` — so do all rules, up to any depth;
* `ImportAtlas.Python.readIn_of_mem_importNodes` — **every import node of a source was read there**.
-/

set_option autoImplicit false

namespace ImportAtlas.Python

open Reader

variable {src : Script} {rules : Rules} (hrules : ∀ goal, Traces src (rules goal))

/-! ### Parts without trees -/

theorem traces_atClause : Traces src atClause :=
  (traces_atWord _).bind fun _ _ => (traces_atWord _).bind fun _ _ => .pure trivial

theorem traces_member (x : Context) : Traces src (member x) :=
  (traces_take _).bind fun _ _ => (traces_ident _).bind fun _ _ => .pure trivial

theorem traces_comparison? : Traces src comparison? := by
  refine traces_peek.bind fun token _ => ?_
  split
  · exact .ite ((traces_take _).bind fun _ _ => .pure trivial) (.pure trivial)
  · exact (traces_take _).bind fun _ _ => .pure trivial
  · exact (traces_take _).bind fun _ _ => (traces_keyword? _ _).bind fun _ _ => .pure trivial
  · exact (traces_take _).bind fun _ _ => (traces_keyword _ _).bind fun _ _ => .pure trivial
  · exact .pure trivial

theorem traces_dottedRest (x : Context) : Traces src (dottedRest x) := by
  refine traces_loop (fun dotted _ => ?_) trivial
  exact .branch (traces_mark? _ _) ((traces_ident _).bind fun _ _ => .pure trivial) (.pure trivial)

theorem traces_numberPattern (x : Context) : Traces src (numberPattern x) := by
  unfold numberPattern
  extract_lets number
  have hnumber : ∀ w, Traces src (number w) := fun w =>
    traces_peek.bind fun _ _ => .ite (traces_take w) .refuse
  refine (traces_mark? _ _).bind fun _ _ => (hnumber _).bind fun _ _ => ?_
  refine (traces_atMark _).bind fun _ _ => (traces_atMark _).bind fun _ _ => ?_
  exact .ite ((traces_take _).bind fun _ _ => hnumber _) (.pure trivial)

theorem traces_starPattern (x : Context) : Traces src (starPattern x) :=
  (traces_take _).bind fun _ _ => (traces_ident _).bind fun _ _ => .pure trivial

/-- After an item of a bracketed list: a comma, and then the closing mark or more; or the closing
mark. -/
theorem traces_afterItem {σ α : Type} [Traced σ] [Traced α] {close : Mark} {v w : Want} {a : α}
    {more : Reader (σ ⊕ α)} (ha : traced src a) (hmore : Traces src more) :
    Traces src (do
      if ← mark? .comma w then
        if ← mark? close v then return .inr a else more
      else
        mark close v
        return .inr a) := by
  refine .branch (traces_mark? _ _) ?_ ((traces_mark _ _).bind fun _ _ => .pure ha)
  exact .branch (traces_mark? _ _) (.pure ha) hmore

section

include hrules

/-! ### Strings -/

theorem traces_field {c : Cursor} (hc : c.In src) : Traces src (field rules c) := by
  refine (traces_goTo hc _).bind fun _ _ => (hrules .replacement).bind fun p hp => ?_
  refine .branch (traces_atMark _) ?_ .refuse
  exact traces_get.bind fun s hs => .pure ⟨hp, hs.next⟩

theorem traces_betweenRuns {trees : List Tree} {c : Cursor} (htrees : traced src trees)
    (hc : c.In src) : Traces src (betweenRuns rules trees c) := by
  have hd := hc.skipWhile Stream.isFiller
  unfold betweenRuns
  split
  · exact .pure ⟨htrees, hc.skip _⟩
  · extract_lets d
    split
    · exact .pure ⟨htrees, hd.skipWhile _⟩
    · refine (traces_field hrules hd.step).bind fun r hr => .pure ?_
      exact ⟨traced_append.2 ⟨htrees, hr.1⟩, hr.2⟩
    · split
      · exact (traces_goTo hd _).bind fun _ _ => .refuse
      · exact .pure ⟨htrees, hd.skip _⟩

theorem traces_string (w : Want) : Traces src (string rules w) := by
  refine traces_get.bind fun s hs => ?_
  split
  · next q _ =>
      have hopening : traced src
          ([Tree.leaf .stringStart s.start.pos (s.start.textTo s.next)], s.next) :=
        ⟨traced_cons.2 ⟨traced_leaf (by decide) (by decide), traced_nil⟩, hs.next⟩
      refine Yields.bind (P := traced src) (traces_loop (fun ⟨trees, c⟩ ⟨htrees, hc⟩ => ?_) hopening)
        fun r hr => (traces_goTo hr.2 w).bind fun _ _ => .pure hr.1
      dsimp only
      split
      · exact .pure ⟨htrees, hc.skip _⟩
      · exact .pure ⟨htrees, hc.skip _⟩
      · refine (traces_field hrules hc.step).bind fun r hr => .pure ?_
        exact ⟨traced_append.2 ⟨htrees, hr.1⟩, hr.2⟩
      · split
        · exact .pure ⟨htrees, hc.skip _⟩
        · exact .pure ⟨htrees, hc.skip _⟩
        · exact (traces_goTo (hc.skip _) _).bind fun _ _ => .refuse
        · exact (traces_betweenRuns hrules htrees hc).bind fun r hr => .pure hr
  · exact .refuse

theorem traces_strings (w : Want) : Traces src (strings rules w) := by
  refine (traces_string hrules _).bind fun first hfirst => traces_loop (fun trees htrees => ?_) hfirst
  refine traces_peek.bind fun token _ => ?_
  split
  · exact (traces_string hrules _).bind fun more hmore => .pure (traced_append.2 ⟨htrees, hmore⟩)
  · exact .pure htrees

theorem traces_format {c : Cursor} (hc : c.In src) : Traces src (format rules c) := by
  have hstart : traced src (([] : List Tree), c) := ⟨traced_nil, hc⟩
  refine traces_loop (fun ⟨trees, c⟩ ⟨htrees, hc⟩ => ?_) hstart
  have hd := hc.skipWhile fun ch => ch != '\x7b' && ch != '\x7d'
  dsimp only
  split
  · refine (traces_field hrules hd.step).bind fun r hr => .pure ?_
    exact ⟨traced_append.2 ⟨htrees, hr.1⟩, hr.2⟩
  · exact (traces_goTo hd _).bind fun _ _ => .pure htrees

theorem traces_fieldEnd : Traces src (fieldEnd rules) := by
  have hformat : Traces src (do
      if ← atMark .colon then format rules (← get).next else return ([] : List Tree)) :=
    .branch (traces_atMark _) (traces_get.bind fun s hs => traces_format hrules hs.next)
      (.pure traced_nil)
  refine (traces_mark? _ _).bind fun _ _ => traces_get.bind fun s hs => ?_
  split
  · exact .ite ((traces_goTo (hs.start.skip _) _).bind fun _ _ => hformat) hformat
  · exact hformat

/-! ### Expressions -/

theorem traces_expressions (x : Context) : Traces src (expressions rules x) := by
  refine traces_here.bind fun pos _ => (hrules (.expression x)).bind fun first hfirst => ?_
  have hstart : traced src ({ parts := first.parts pos, targets := first.shape.isTarget } : Exprs) :=
    traced_parts hfirst
  refine traces_loop (fun es hes => ?_) hstart
  refine .branch (traces_mark? _ _) ?_ (.pure hes)
  refine traces_peek.bind fun token _ => .ite ?_ (.pure hes)
  refine traces_here.bind fun pos _ => (hrules (.expression x)).bind fun p hp => .pure ?_
  exact traced_append.2 ⟨hes, traced_parts hp⟩

theorem traces_yielding (x : Context) : Traces src (yielding rules x) := by
  refine (traces_keyword _ _).bind fun _ _ => .branch (traces_keyword? _ _) ?_ ?_
  · exact traces_here.bind fun pos _ => (hrules _).bind fun p hp => .pure (traced_wrap hp)
  · refine traces_peek.bind fun token _ => .ite ?_ (.pure traced_nil)
    exact traces_here.bind fun pos _ => (traces_expressions hrules x).bind fun es hes =>
      .pure (traced_wrap hes)

theorem traces_replacement : Traces src (replacement rules) := by
  refine traces_here.bind fun pos _ => (traces_atWord _).bind fun yields _ => ?_
  extract_lets finish
  have hfinish : ∀ trees, traced src trees → Traces src (finish trees) := fun trees htrees =>
    (traces_fieldEnd hrules).bind fun more hmore => .pure (traced_append.2 ⟨htrees, hmore⟩)
  refine .ite ((traces_yielding hrules _).bind hfinish) ?_
  exact (traces_expressions hrules _).bind fun es hes => .bind (.pure (traced_wrap hes)) hfinish

theorem traces_starred : Traces src (starred rules) := by
  refine traces_peek.bind fun first _ => (hrules _).bind fun p hp => ?_
  split
  all_goals exact .pure hp

theorem traces_element : Traces src (element rules) := by
  refine traces_peek.bind fun token _ => ?_
  split
  · exact (traces_yielding hrules _).bind fun trees htrees => .pure htrees
  · exact (traces_take _).bind fun _ _ => traces_starred hrules
  · refine traces_get.bind fun s hs => (traces_goTo (hs.start.skip _) _).bind fun _ _ => ?_
    exact traces_starred hrules
  · exact hrules _

theorem traces_elementsAfter (close : Mark) (x : Context) {first : Piece}
    (hfirst : traced src first) : Traces src (elementsAfter rules close x first) := by
  have hstart : traced src { first with shape := if first.shape.isTarget then .group else .value } :=
    hfirst
  refine traces_loop (fun p hp => ?_) hstart
  refine traces_afterItem hp ?_
  exact (traces_element hrules).bind fun q hq => .pure (traced_append.2 ⟨hp, hq⟩)

theorem traces_sliceEnd : Traces src (sliceEnd rules) := by
  unfold sliceEnd
  extract_lets part
  have hpart : Traces src part :=
    traces_peek.bind fun _ _ => .ite ((hrules _).bind fun p hp => .pure hp) (.pure traced_nil)
  refine (traces_take _).bind fun _ _ => hpart.bind fun second hsecond => ?_
  refine .branch (traces_mark? _ _) ?_ (.pure hsecond)
  exact hpart.bind fun third hthird => .pure (traced_append.2 ⟨hsecond, hthird⟩)

theorem traces_index : Traces src (index rules) := by
  refine (traces_atMark _).bind fun colon _ => ?_
  extract_lets finish
  have hfinish : ∀ first, traced src first → Traces src (finish first) := fun first hfirst => by
    refine .branch (traces_atMark _) ?_ (.pure hfirst)
    exact (traces_sliceEnd hrules).bind fun more hmore => .pure (traced_append.2 ⟨hfirst, hmore⟩)
  refine .ite (.bind (.pure traced_nil) hfinish) ?_
  exact (hrules _).bind fun p hp => .bind (.pure hp) hfinish

theorem traces_subscripts (x : Context) : Traces src (subscripts rules x) := by
  refine (traces_take _).bind fun _ _ => (traces_index hrules).bind fun first hfirst => ?_
  refine traces_loop (fun trees htrees => ?_) hfirst
  refine traces_afterItem htrees ?_
  exact (traces_index hrules).bind fun more hmore => .pure (traced_append.2 ⟨htrees, hmore⟩)

theorem traces_argument : Traces src (argument rules) := by
  refine traces_peek.bind fun token _ => ?_
  split
  · exact (traces_take _).bind fun _ _ => traces_starred hrules
  · exact (traces_take _).bind fun _ _ => (hrules _).bind fun p hp => .pure hp
  · refine (hrules _).bind fun p hp => (traces_atMark _).bind fun assigned _ => ?_
    refine .ite ?_ (.pure hp)
    exact (traces_take _).bind fun _ _ => (hrules _).bind fun q hq => .pure hq

theorem traces_target : Traces src (target rules) := by
  refine .branch (traces_mark? _ _) ?_ ?_
  · exact (hrules _).bind fun p hp => .ite (.pure hp) .refuse
  · exact (hrules _).bind fun p hp => .ite (.pure hp) .refuse

theorem traces_targets : Traces src (targets rules) := by
  refine (traces_target hrules).bind fun first hfirst => traces_loop (fun trees htrees => ?_) hfirst
  refine .branch (traces_mark? _ _) ?_ (.pure htrees)
  refine .branch (traces_atWord _) (.pure htrees) ?_
  exact (traces_target hrules).bind fun more hmore => .pure (traced_append.2 ⟨htrees, hmore⟩)

theorem traces_clauses : Traces src (clauses rules) := by
  unfold clauses
  extract_lets forClause
  have hclause : Traces src forClause := by
    refine (traces_keyword? _ _).bind fun _ _ => (traces_keyword _ _).bind fun _ _ => ?_
    refine (traces_targets hrules).bind fun left hleft => (traces_keyword _ _).bind fun _ _ => ?_
    refine (hrules _).bind fun first hfirst => ?_
    refine traces_loop (fun trees htrees => ?_) (traced_append.2 ⟨hleft, hfirst⟩)
    refine .branch (traces_mark? _ _) ?_ (.pure htrees)
    refine traces_peek.bind fun token _ => traces_atClause.bind fun _ _ => ?_
    refine (traces_atWord _).bind fun _ _ => .ite ?_ (.pure htrees)
    exact (hrules _).bind fun p hp => .pure (traced_append.2 ⟨htrees, hp⟩)
  refine hclause.bind fun first hfirst => traces_loop (fun trees htrees => ?_) hfirst
  refine .branch traces_atClause ?_ (.branch (traces_keyword? _ _) ?_ (.pure htrees))
  · exact hclause.bind fun more hmore => .pure (traced_append.2 ⟨htrees, hmore⟩)
  · exact (hrules _).bind fun p hp => .pure (traced_append.2 ⟨htrees, hp⟩)

theorem traces_arguments (call : Bool) (x : Context) : Traces src (arguments rules call x) := by
  refine (traces_take _).bind fun _ _ => .branch (traces_mark? _ _) (.pure traced_nil) ?_
  refine .branch (traces_mark? _ _) ((traces_mark _ _).bind fun _ _ => .pure traced_nil) ?_
  refine (traces_argument hrules).bind fun first hfirst => traces_atClause.bind fun _ _ => .ite ?_ ?_
  · refine (traces_clauses hrules).bind fun more hmore => (traces_mark _ _).bind fun _ _ => .pure ?_
    exact traced_append.2 ⟨hfirst, hmore⟩
  · refine traces_loop (fun trees htrees => ?_) (x := first.trees) hfirst
    refine traces_afterItem htrees ?_
    exact (traces_argument hrules).bind fun p hp => .pure (traced_append.2 ⟨htrees, hp⟩)

theorem traces_display (close : Mark) (x : Context) : Traces src (display rules close x) := by
  refine (traces_take _).bind fun _ _ => .branch (traces_mark? _ _) (.pure traced_nil) ?_
  refine (traces_element hrules).bind fun first hfirst => traces_atClause.bind fun _ _ => .ite ?_ ?_
  · refine (traces_clauses hrules).bind fun more hmore => (traces_mark _ _).bind fun _ _ => .pure ?_
    exact traced_append.2 ⟨hfirst, hmore⟩
  · exact traces_elementsAfter hrules close x hfirst

theorem traces_pair : Traces src (pair rules) := by
  refine .branch (traces_mark? _ _) ((hrules _).bind fun p hp => .pure hp) ?_
  refine (hrules _).bind fun key hkey => (traces_mark _ _).bind fun _ _ => ?_
  exact (hrules _).bind fun value hvalue => .pure (traced_append.2 ⟨hkey, hvalue⟩)

theorem traces_pairsAfter (x : Context) {first : List Tree} (hfirst : traced src first) :
    Traces src (pairsAfter rules x first) := by
  refine traces_loop (fun trees htrees => ?_) hfirst
  refine traces_afterItem htrees ?_
  exact (traces_pair hrules).bind fun more hmore => .pure (traced_append.2 ⟨htrees, hmore⟩)

theorem traces_braces (x : Context) : Traces src (braces rules x) := by
  refine (traces_take _).bind fun _ _ => .branch (traces_mark? _ _) (.pure traced_nil) ?_
  refine .branch (traces_mark? _ _) ((traces_mark _ _).bind fun _ _ => .pure traced_nil) ?_
  refine .branch (traces_atMark _) ?_ ?_
  · exact (traces_pair hrules).bind fun first hfirst => traces_pairsAfter hrules x hfirst
  · refine (traces_element hrules).bind fun first hfirst => ?_
    refine (traces_atMark _).bind fun colon _ => .ite ?_ (traces_atClause.bind fun _ _ => .ite ?_ ?_)
    · refine (traces_take _).bind fun _ _ => (hrules _).bind fun value hvalue => ?_
      have hpair := traced_append.2 ⟨hfirst, hvalue⟩
      refine .branch traces_atClause ?_ (traces_pairsAfter hrules x hpair)
      exact (traces_clauses hrules).bind fun more hmore => (traces_mark _ _).bind fun _ _ =>
        .pure (traced_append.2 ⟨hpair, hmore⟩)
    · exact (traces_clauses hrules).bind fun more hmore => (traces_mark _ _).bind fun _ _ =>
        .pure (traced_append.2 ⟨hfirst, hmore⟩)
    · exact (traces_elementsAfter hrules _ x hfirst).bind fun p hp => .pure hp

theorem traces_atom (x : Context) : Traces src (atom rules x) := by
  refine traces_peek.bind fun token _ => ?_
  split
  · exact (traces_strings hrules _).bind fun trees htrees => .pure htrees
  · exact (traces_take _).bind fun _ _ => .pure traced_nil
  · exact (traces_take _).bind fun _ _ => .pure traced_nil
  · exact (traces_take _).bind fun _ _ => .pure traced_nil
  · exact traces_display hrules _ x
  · exact traces_display hrules _ x
  · exact traces_braces hrules x
  · exact .refuse

theorem traces_simple (x : Context) : Traces src (simple rules x) := by
  refine (traces_atom hrules x).bind fun first hfirst => traces_loop (fun p hp => ?_) hfirst
  refine traces_peek.bind fun token _ => ?_
  split
  · exact (traces_member x).bind fun _ _ => .pure hp
  · exact (traces_subscripts hrules x).bind fun more hmore => .pure (traced_append.2 ⟨hp, hmore⟩)
  · exact (traces_arguments hrules _ x).bind fun more hmore => .pure (traced_append.2 ⟨hp, hmore⟩)
  · exact .pure hp

theorem traces_signed (x : Context) : Traces src (signed rules x) := by
  refine traces_loop (fun changed _ => ?_) (trivial : traced src false)
  extract_lets plain
  have hplain : Traces src plain := (hrules _).bind fun p hp => .pure (by split <;> exact hp)
  refine traces_peek.bind fun token _ => ?_
  split
  · exact (traces_take _).bind fun _ _ => .pure trivial
  · exact (traces_take _).bind fun _ _ => .pure trivial
  · exact (traces_take _).bind fun _ _ => .pure trivial
  · refine (traces_take _).bind fun _ _ => (hrules _).bind fun p hp => ?_
    split
    · exact .pure hp
    · exact .pure hp
    · exact .pure hp
    · exact .refuse
  · refine traces_get.bind fun s hs => (traces_take _).bind fun _ _ => traces_peek.bind fun next _ => ?_
    refine .ite (.pure trivial) ((traces_set hs).bind fun _ _ => ?_)
    exact hplain.bind fun p hp => .pure hp
  · exact hplain.bind fun p hp => .pure hp

theorem traces_primary (x : Context) : Traces src (primary rules x) := by
  refine (traces_signed hrules x).bind fun first hfirst => traces_loop (fun p hp => ?_) hfirst
  refine traces_peek.bind fun token _ => ?_
  split
  · refine .ite ((traces_take _).bind fun _ _ => ?_) (.pure hp)
    exact (traces_signed hrules x).bind fun q hq => .pure (traced_append.2 ⟨hp, hq⟩)
  · exact .pure hp

theorem traces_compared (x : Context) : Traces src (compared rules x) := by
  refine (traces_primary hrules x).bind fun first hfirst => traces_loop (fun p hp => ?_) hfirst
  refine .branch traces_comparison? ?_ (.pure hp)
  exact (traces_primary hrules x).bind fun q hq => .pure (traced_append.2 ⟨hp, hq⟩)

theorem traces_parameters (close : Mark) : Traces src (parameters rules close) := by
  unfold parameters
  extract_lets x typed type? default? spread parameter
  have htype : Traces src type? := by
    refine (traces_atMark _).bind fun _ _ => .ite ((traces_take _).bind fun _ _ => ?_) (.pure traced_nil)
    exact (hrules _).bind fun p hp => .pure hp
  have hdefault : Traces src default? :=
    .branch (traces_mark? _ _) ((hrules _).bind fun p hp => .pure hp) (.pure traced_nil)
  have hspread : Traces src spread := by
    refine (hrules _).bind fun p hp => .ite ?_ .refuse
    exact htype.bind fun type ht => .pure (traced_append.2 ⟨hp, ht⟩)
  have hparameter : Traces src parameter := by
    refine traces_peek.bind fun token _ => ?_
    split
    · refine (traces_take _).bind fun _ _ => htype.bind fun type ht => ?_
      exact hdefault.bind fun value hvalue => .pure (traced_append.2 ⟨ht, hvalue⟩)
    · refine (hrules _).bind fun p hp => .ite ?_ .refuse
      exact hdefault.bind fun value hvalue => .pure (traced_append.2 ⟨hp, hvalue⟩)
    · refine (traces_take _).bind fun _ _ => (traces_atMark _).bind fun _ _ => ?_
      exact (traces_atMark _).bind fun _ _ => .ite (.pure traced_nil) hspread
    · exact (traces_take _).bind fun _ _ => hspread
    · exact (traces_take _).bind fun _ _ => .pure traced_nil
    · exact .refuse
  refine traces_loop (fun trees htrees => ?_) traced_nil
  refine .branch (traces_atMark _) (.pure htrees) (hparameter.bind fun more hmore => ?_)
  have hall := traced_append.2 ⟨htrees, hmore⟩
  exact .branch (traces_mark? _ _) (.pure hall) (.pure hall)

theorem traces_lambdaHead : Traces src (lambdaHead rules) := by
  refine (traces_keyword _ _).bind fun _ _ => (traces_parameters hrules _).bind fun trees htrees => ?_
  exact (traces_mark _ _).bind fun _ _ => .pure htrees

theorem traces_logical (x : Context) : Traces src (logical rules x) := by
  refine traces_loop (fun negated _ => ?_) (trivial : traced src false)
  extract_lets done
  have hdone : ∀ p, traced src p → traced src (done p) := fun p hp => by
    cases negated with
    | true => exact hp
    | false => exact hp
  have hcompared : Traces src (do return done (← compared rules x)) :=
    (traces_compared hrules x).bind fun p hp => .pure (hdone p hp)
  refine traces_peek.bind fun token _ => ?_
  split
  · exact (traces_take _).bind fun _ _ => .pure trivial
  · refine (traces_lambdaHead hrules).bind fun head hhead => (hrules _).bind fun body hbody => .pure ?_
    exact traced_append.2 ⟨hhead, hbody⟩
  · refine traces_get.bind fun s hs => (traces_take _).bind fun _ _ => traces_get.bind fun t ht => ?_
    refine .ite ?_ ((traces_set hs).bind fun _ _ => hcompared)
    refine (traces_goTo ht.next.step _).bind fun _ _ => (hrules _).bind fun value hvalue => ?_
    refine .pure (hdone _ (traced_cons.2 ⟨?_, traced_nil⟩))
    exact (traced_inner (by decide) (by decide)).2 hvalue
  · exact hcompared

theorem traces_chain (x : Context) : Traces src (chain rules x) := by
  refine (traces_logical hrules x).bind fun first hfirst => traces_loop (fun p hp => ?_) hfirst
  refine (traces_atWord _).bind fun _ _ => (traces_atWord _).bind fun _ _ => .ite ?_ (.pure hp)
  refine (traces_take _).bind fun _ _ => ?_
  exact (traces_logical hrules x).bind fun q hq => .pure (traced_append.2 ⟨hp, hq⟩)

theorem traces_expression (x : Context) : Traces src (expression rules x) := by
  refine (traces_chain hrules x).bind fun first hfirst => traces_loop (fun p hp => ?_) hfirst
  refine .branch (traces_keyword? _ _) ?_ ((traces_atWord _).bind fun _ _ => .ite ?_ (.pure hp))
  · exact (traces_chain hrules x).bind fun q hq => .pure (traced_append.2 ⟨hp, hq⟩)
  · refine (traces_take _).bind fun _ _ => (hrules _).bind fun condition hcondition => ?_
    refine (traces_keyword _ _).bind fun _ _ => (hrules _).bind fun other hother => .pure ?_
    exact traced_append.2 ⟨traced_append.2 ⟨hp, hcondition⟩, hother⟩

theorem traces_iterand (x : Context) : Traces src (iterand rules x) := by
  refine .branch (traces_atWord _) ?_ (hrules _)
  refine (traces_lambdaHead hrules).bind fun head hhead => (hrules _).bind fun body hbody => .pure ?_
  exact traced_append.2 ⟨hhead, hbody⟩

/-! ### Types -/

theorem traces_typeParameters (x : Context) : Traces src (typeParameters rules x) := by
  refine (traces_take _).bind fun _ _ => (hrules _).bind fun first hfirst => ?_
  refine traces_loop (fun trees htrees => ?_) (x := first.trees) hfirst
  refine traces_afterItem htrees ?_
  exact (hrules _).bind fun p hp => .pure (traced_append.2 ⟨htrees, hp⟩)

theorem traces_typeForm (x : Context) (colon : Bool) : Traces src (typeForm rules x colon) := by
  refine traces_peek.bind fun token _ => ?_
  extract_lets finish
  have hfinish : ∀ first, traced src first → Traces src (finish first) := fun first hfirst => by
    refine traces_loop (fun trees htrees => ?_) hfirst
    have hmore : Traces src (do
        return (.inl (trees ++ (← rules (.typeForm x colon)).trees) : List Tree ⊕ Piece)) :=
      (hrules _).bind fun p hp => .pure (traced_append.2 ⟨htrees, hp⟩)
    refine .branch (traces_mark? _ _) hmore (.branch (traces_atMark _) ?_ ?_)
    · exact (traces_member x).bind fun _ _ => .pure htrees
    · exact (traces_atMark _).bind fun _ _ => .ite ((traces_take _).bind fun _ _ => hmore) (.pure htrees)
  have hexpression : Traces src (do finish (← rules (.expression x)).trees) :=
    (hrules _).bind fun p hp => hfinish _ hp
  split
  · refine (traces_take _).bind fun _ _ => (traces_ident _).bind fun _ _ => ?_
    exact .bind (.pure traced_nil) hfinish
  · refine traces_get.bind fun s hs => (traces_take _).bind fun _ _ => ?_
    refine (traces_atMark _).bind fun _ _ => .ite ((traces_typeParameters hrules x).bind hfinish) ?_
    exact (traces_set hs).bind fun _ _ => hexpression
  · exact hexpression

/-! ### Patterns -/

theorem traces_patternsUntil (close : Mark) (x : Context) :
    Traces src (patternsUntil rules close x) := by
  refine (traces_take _).bind fun _ _ => traces_loop (fun trees htrees => ?_) traced_nil
  refine .branch (traces_mark? _ _) (.pure htrees) ((hrules _).bind fun p hp => ?_)
  have hall := traced_append.2 ⟨htrees, hp⟩
  exact .branch (traces_mark? _ _) (.pure hall) ((traces_mark _ _).bind fun _ _ => .pure hall)

theorem traces_barePattern (x : Context) : Traces src (barePattern rules x) := by
  have huntil : ∀ close, Traces src (do return (← patternsUntil rules close x, false)) := fun close =>
    (traces_patternsUntil hrules close x).bind fun trees htrees => .pure ⟨htrees, trivial⟩
  refine traces_peek.bind fun token _ => ?_
  split
  · refine (traces_take _).bind fun _ _ => .ite (.pure ⟨traced_nil, trivial⟩) ?_
    refine (traces_dottedRest x).bind fun dotted _ => .branch (traces_atMark _) (huntil _) ?_
    exact .pure ⟨traced_nil, trivial⟩
  · exact (traces_strings hrules _).bind fun trees htrees => .pure ⟨htrees, trivial⟩
  · exact (traces_numberPattern x).bind fun _ _ => .pure ⟨traced_nil, trivial⟩
  · exact (traces_numberPattern x).bind fun _ _ => .pure ⟨traced_nil, trivial⟩
  · exact huntil _
  · exact huntil _
  · exact (traces_starPattern x).bind fun _ _ => .pure ⟨traced_nil, trivial⟩
  · exact (traces_starPattern x).bind fun _ _ => .pure ⟨traced_nil, trivial⟩
  · refine (traces_take _).bind fun _ _ => Yields.bind (P := traced src)
      (traces_loop (fun trees htrees => ?_) traced_nil) fun trees htrees => .pure ⟨htrees, trivial⟩
    refine .branch (traces_mark? _ _) (.pure htrees) ?_
    refine (traces_atMark _).bind fun _ _ => (traces_atMark _).bind fun _ _ => ?_
    extract_lets finish
    have hfinish : ∀ item, traced src item → Traces src (finish item) := fun item hitem => by
      have hall := traced_append.2 ⟨htrees, hitem⟩
      exact .branch (traces_mark? _ _) (.pure hall) ((traces_mark _ _).bind fun _ _ => .pure hall)
    refine .ite ((traces_starPattern _).bind fun _ _ => .bind (.pure traced_nil) hfinish) ?_
    refine (hrules _).bind fun key hkey => (traces_mark _ _).bind fun _ _ => ?_
    exact (hrules _).bind fun value hvalue => .bind (.pure (traced_append.2 ⟨hkey, hvalue⟩)) hfinish
  · exact .refuse

theorem traces_plainPattern (x : Context) : Traces src (plainPattern rules x) := by
  refine (traces_barePattern hrules x).bind fun first hfirst => ?_
  refine traces_loop (fun ⟨trees, name⟩ ⟨htrees, _⟩ => ?_) hfirst
  refine .branch (traces_mark? _ _) ?_ (.pure ⟨htrees, trivial⟩)
  exact (traces_barePattern hrules x).bind fun more hmore =>
    .pure ⟨traced_append.2 ⟨htrees, hmore.1⟩, trivial⟩

theorem traces_patternKey : Traces src (patternKey rules) :=
  (traces_plainPattern hrules _).bind fun _ h => .pure h.1

theorem traces_pattern (x : Context) : Traces src (pattern rules x) := by
  refine (traces_plainPattern hrules x).bind fun ⟨first, name⟩ ⟨hfirst, _⟩ => ?_
  refine (traces_atMark _).bind fun _ _ => ?_
  extract_lets finish
  have hfinish : ∀ trees, traced src trees → Traces src (finish trees) := fun trees htrees => by
    refine traces_loop (fun trees htrees => ?_) htrees
    exact .branch (traces_keyword? _ _) ((traces_ident _).bind fun _ _ => .pure htrees) (.pure htrees)
  refine .ite ((traces_take _).bind fun _ _ => ?_) (.bind (.pure hfirst) hfinish)
  exact (traces_plainPattern hrules x).bind fun more hmore =>
    .bind (.pure (traced_append.2 ⟨hfirst, hmore.1⟩)) hfinish

/-! ### Simple statements -/

theorem traces_assignments (fuel : Nat) (pos : Position) {left : Exprs} (hleft : traced src left) :
    Traces src (assignments rules fuel pos left) := by
  induction fuel generalizing pos left with
  | zero => exact .refuse
  | succ fuel ih =>
      unfold assignments
      extract_lets right whole
      have hright : Traces src right := by
        refine (traces_take _).bind fun _ _ => traces_here.bind fun start _ => ?_
        refine .branch (traces_atWord _) ?_ ?_
        · exact (traces_yielding hrules _).bind fun trees htrees => .pure (traced_wrap htrees)
        · refine (traces_expressions hrules _).bind fun es hes => ih start ?_
          rw [traced_exprs]
          split
          · exact hes
          · exact traced_wrap hes
      have hwhole : traced src whole := by
        unfold whole
        split
        · exact traced_nil
        · exact traced_wrap hleft
      have hassign : ∀ {kind : Kind} {trees : List Tree}, kind ≠ .importStatement →
          kind ≠ .importFrom → traced src trees →
          Traces src (do return [Tree.inner kind pos (trees ++ (← right))]) := fun hs hf htrees =>
        hright.bind fun more hmore => .pure
          (traced_cons.2 ⟨(traced_inner hs hf).2 (traced_append.2 ⟨htrees, hmore⟩), traced_nil⟩)
      refine traces_peek.bind fun token _ => ?_
      split
      · exact .ite (hassign (by decide) (by decide) hwhole) .refuse
      · refine .ite ?_ .refuse
        refine (traces_take _).bind fun _ _ => traces_here.bind fun start _ => ?_
        refine (hrules _).bind fun type htype => ?_
        have hboth : traced src (whole ++ [Tree.inner .plain start type.trees]) :=
          traced_append.2 ⟨hwhole, traced_wrap htype⟩
        refine .branch (traces_atMark _) (hassign (by decide) (by decide) hboth) (.pure ?_)
        exact traced_cons.2 ⟨(traced_inner (by decide) (by decide)).2 hboth, traced_nil⟩
      · exact .ite (.ite (hassign (by decide) (by decide) hwhole) .refuse) (.pure hleft)
      · exact .pure hleft

theorem traces_expressionStatement : Traces src (expressionStatement rules) := by
  refine traces_here.bind fun pos _ => .branch (traces_atWord _) ?_ ?_
  · refine (traces_yielding hrules _).bind fun trees htrees => .pure ?_
    exact (traced_inner (by decide) (by decide)).2 (traced_wrap htrees)
  · refine (traces_expressions hrules _).bind fun es hes => traces_get.bind fun s _ => ?_
    refine (traces_assignments hrules _ pos hes).bind fun parts hparts => .pure ?_
    exact (traced_inner (by decide) (by decide)).2 hparts

omit hrules in
theorem traces_complete {p : Reader Tree} (hp : Traces src p) : Traces src (complete p) := by
  refine hp.bind fun t ht => traces_peek.bind fun token _ => ?_
  split
  · exact .pure ht
  · exact .pure ht
  · exact .refuse

theorem traces_printStatement : Traces src (printStatement rules) := by
  refine traces_here.bind fun pos _ => (traces_take _).bind fun _ _ => ?_
  refine (traces_atMark _).bind fun chevron _ => ?_
  extract_lets finish
  have hfinish : ∀ target, traced src target → Traces src (finish target) := fun target htarget => by
    refine Yields.bind (P := traced src) (traces_loop (fun parts hparts => ?_) htarget) fun parts hparts =>
      .pure ((traced_inner (by decide) (by decide)).2 hparts)
    refine .branch (traces_mark? _ _) ?_ (.pure hparts)
    refine traces_peek.bind fun token _ => .ite ?_ (.pure hparts)
    refine traces_here.bind fun start _ => (hrules _).bind fun p hp => .pure ?_
    exact traced_append.2 ⟨hparts, traced_wrap hp⟩
  refine .ite (traces_here.bind fun start _ => (traces_take _).bind fun _ _ => ?_)
    (traces_here.bind fun start _ => ?_)
  · refine (hrules _).bind fun file hfile => .bind (.pure ?_) hfinish
    exact traced_cons.2 ⟨(traced_inner (by decide) (by decide)).2 hfile, traced_nil⟩
  · exact (hrules _).bind fun first hfirst => .bind (.pure (traced_wrap hfirst)) hfinish

theorem traces_printOrExpression : Traces src (printOrExpression rules) := by
  refine traces_get.bind fun s hs => (traces_take _).bind fun _ _ => ?_
  refine (traces_atMark _).bind fun chevron _ => (traces_set hs).bind fun _ _ => ?_
  refine .ite (traces_printStatement hrules) ?_
  exact traces_orElse (traces_complete (traces_expressionStatement hrules)) (traces_printStatement hrules)

theorem traces_execOrExpression : Traces src (execOrExpression rules) := by
  refine traces_get.bind fun s hs => traces_here.bind fun pos _ => (traces_take _).bind fun _ _ => ?_
  refine traces_peek.bind fun token _ => ?_
  extract_lets finish
  have hnone : Traces src (finish none) :=
    (traces_set hs).bind fun _ _ => traces_expressionStatement hrules
  have hsome : ∀ trees, traced src trees → Traces src (finish (some trees)) := fun trees htrees => by
    refine .branch (traces_keyword? _ _) ((hrules _).bind fun first hfirst => ?_)
      (.pure ((traced_inner (by decide) (by decide)).2 htrees))
    refine Yields.bind (P := traced src)
      (traces_loop (fun trees htrees => ?_) (x := first.trees) hfirst) fun more hmore =>
      .pure ((traced_inner (by decide) (by decide)).2 (traced_append.2 ⟨htrees, traced_wrap hmore⟩))
    refine .branch (traces_mark? _ _) ?_ (.pure htrees)
    exact (hrules _).bind fun p hp => .pure (traced_append.2 ⟨htrees, hp⟩)
  split
  · exact (traces_string hrules _).bind fun trees htrees => hsome trees htrees
  · exact .ite hnone ((traces_take _).bind fun _ _ => hsome [] traced_nil)
  · exact hnone

theorem traces_aliasOrExpression : Traces src (aliasOrExpression rules) := by
  unfold aliasOrExpression
  extract_lets newName
  have hname : Traces src newName := by
    refine traces_here.bind fun pos _ => (traces_take _).bind fun _ _ => ?_
    refine (hrules _).bind fun left hleft => (traces_mark _ _).bind fun _ _ => ?_
    refine (hrules _).bind fun right hright => .pure (traced_plain ?_)
    exact traced_wrap (traced_append.2 ⟨hleft, hright⟩)
  exact traces_orElse (traces_complete hname) (traces_expressionStatement hrules)

omit hrules in
theorem traces_nameList : Traces src nameList := by
  refine traces_here.bind fun pos _ => (traces_take _).bind fun _ _ => (traces_ident _).bind fun _ _ => ?_
  refine Yields.bind (P := traced src) (traces_loop (fun _ _ => ?_) trivial) fun _ _ =>
    .pure (traced_plain traced_nil)
  exact .branch (traces_mark? _ _) ((traces_ident _).bind fun _ _ => .pure trivial) (.pure trivial)

theorem traces_assertStatement : Traces src (assertStatement rules) := by
  refine traces_here.bind fun pos _ => (traces_take _).bind fun _ _ => ?_
  refine (hrules _).bind fun first hfirst => Yields.bind (P := traced src)
    (traces_loop (fun trees htrees => ?_) (x := first.trees) hfirst) fun trees htrees =>
    .pure (traced_plain (traced_wrap htrees))
  refine .branch (traces_mark? _ _) ?_ (.pure htrees)
  exact (hrules _).bind fun p hp => .pure (traced_append.2 ⟨htrees, hp⟩)

theorem traces_withExpressions (cause : Bool) : Traces src (withExpressions rules cause) := by
  refine traces_here.bind fun pos _ => (traces_take _).bind fun _ _ => ?_
  refine traces_peek.bind fun token _ => (traces_atWord _).bind fun _ _ => ?_
  extract_lets finish withCause
  have hfinish : ∀ trees, traced src trees → Traces src (finish trees) := fun trees htrees =>
    .pure (traced_plain (traced_wrap htrees))
  have hcause : ∀ trees, traced src trees → Traces src (withCause trees) := fun trees htrees => by
    refine (traces_atWord _).bind fun _ _ => .ite ((traces_take _).bind fun _ _ => ?_)
      (hfinish _ htrees)
    exact (hrules _).bind fun p hp => hfinish _ (traced_append.2 ⟨htrees, hp⟩)
  refine .ite ?_ (hcause _ traced_nil)
  exact (traces_expressions hrules _).bind fun es hes => hcause _ hes

theorem traces_deleteStatement : Traces src (deleteStatement rules) := by
  refine traces_here.bind fun pos _ => (traces_take _).bind fun _ _ => ?_
  refine (traces_expressions hrules _).bind fun es hes => .pure ?_
  exact traced_plain (traced_wrap hes)

theorem traces_simpleStatement : Traces src (simpleStatement rules) := by
  have hbare : Traces src (do
      let pos ← here
      take Context.statement.after
      return Tree.inner .plain pos []) :=
    traces_here.bind fun pos _ => (traces_take _).bind fun _ _ =>
      .pure (traced_plain traced_nil)
  refine traces_peek.bind fun token _ => ?_
  split
  · exact traces_importStatement
  · exact traces_fromStatement
  · exact traces_printOrExpression hrules
  · exact traces_execOrExpression hrules
  · exact traces_aliasOrExpression hrules
  · exact traces_assertStatement hrules
  · exact traces_withExpressions hrules false
  · exact traces_withExpressions hrules true
  · exact traces_deleteStatement hrules
  · exact traces_nameList
  · exact traces_nameList
  · exact hbare
  · exact hbare
  · exact hbare
  · exact traces_expressionStatement hrules

theorem traces_simpleStatements (w : Want) : Traces src (simpleStatements rules w) := by
  refine (traces_simpleStatement hrules).bind fun first hfirst => ?_
  refine traces_loop (fun trees htrees => ?_) (traced_cons.2 ⟨hfirst, traced_nil⟩)
  refine .branch (traces_mark? _ _) ?_ ((traces_newline w).bind fun _ _ => .pure htrees)
  refine traces_peek.bind fun token _ => .ite ((traces_take w).bind fun _ _ => .pure htrees) ?_
  refine (traces_simpleStatement hrules).bind fun t ht => .pure ?_
  exact traced_append.2 ⟨htrees, traced_cons.2 ⟨ht, traced_nil⟩⟩

/-! ### Compound statements -/

theorem traces_suite (w : Want) : Traces src (suite rules w) := by
  refine (traces_mark _ _).bind fun _ _ => traces_peek.bind fun token _ => ?_
  split
  · exact (traces_take w).bind fun _ _ => .pure traced_nil
  · refine (traces_take _).bind fun _ _ => (hrules _).bind fun p hp => ?_
    exact (traces_take w).bind fun _ _ => .pure hp
  · exact traces_simpleStatements hrules w

theorem traces_conditionAndSuite (w : Want) : Traces src (conditionAndSuite rules w) := by
  refine (traces_take _).bind fun _ _ => (hrules _).bind fun condition hcondition => ?_
  exact (traces_suite hrules w).bind fun body hbody => .pure (traced_append.2 ⟨hcondition, hbody⟩)

theorem traces_else? (w : Want) : Traces src (else? rules w) :=
  .branch (traces_keyword? _ _) (traces_suite hrules w) (.pure traced_nil)

theorem traces_ifStatement (w : Want) : Traces src (ifStatement rules w) := by
  refine traces_here.bind fun pos _ => (traces_conditionAndSuite hrules w).bind fun first hfirst => ?_
  refine Yields.bind (P := traced src) (traces_loop (fun trees htrees => ?_) hfirst)
    fun trees htrees => ?_
  · refine .branch (traces_atWord _) ?_ (.pure htrees)
    exact (traces_conditionAndSuite hrules w).bind fun more hmore =>
      .pure (traced_append.2 ⟨htrees, hmore⟩)
  · refine (traces_else? hrules w).bind fun other hother => .pure ?_
    exact traced_plain (traced_append.2 ⟨htrees, hother⟩)

theorem traces_whileStatement (w : Want) : Traces src (whileStatement rules w) := by
  refine traces_here.bind fun pos _ => (traces_conditionAndSuite hrules w).bind fun trees htrees => ?_
  refine (traces_else? hrules w).bind fun other hother => .pure ?_
  exact traced_plain (traced_append.2 ⟨htrees, hother⟩)

theorem traces_forStatement (w : Want) : Traces src (forStatement rules w) := by
  refine traces_here.bind fun pos _ => (traces_take _).bind fun _ _ => ?_
  refine (traces_targets hrules).bind fun left hleft => (traces_keyword _ _).bind fun _ _ => ?_
  refine (traces_expressions hrules _).bind fun right hright => ?_
  refine (traces_suite hrules w).bind fun body hbody => ?_
  refine (traces_else? hrules w).bind fun other hother => .pure ?_
  have hhead : traced src (left ++ [Tree.inner .plain pos right.parts]) :=
    traced_append.2 ⟨hleft, traced_wrap hright⟩
  exact traced_plain (traced_append.2 ⟨traced_append.2 ⟨hhead, hbody⟩, hother⟩)

theorem traces_withStatement (w : Want) : Traces src (withStatement rules w) := by
  refine traces_here.bind fun pos _ => (traces_take _).bind fun _ _ => ?_
  refine (traces_expressions hrules _).bind fun items hitems => ?_
  refine (traces_suite hrules w).bind fun body hbody => .pure ?_
  exact traced_plain (traced_append.2 ⟨traced_wrap hitems, hbody⟩)

theorem traces_functionDefinition (w : Want) : Traces src (functionDefinition rules w) := by
  refine traces_here.bind fun pos _ => (traces_take _).bind fun _ _ => (traces_ident _).bind fun _ _ => ?_
  refine (traces_atMark _).bind fun _ _ => ?_
  extract_lets finish
  have hfinish : ∀ types, traced src types → Traces src (finish types) := fun types htypes => by
    refine (traces_mark _ _).bind fun _ _ => (traces_parameters hrules _).bind fun params hparams => ?_
    refine (traces_mark _ _).bind fun _ _ => (traces_mark? _ _).bind fun _ _ => ?_
    extract_lets body
    have hbody : ∀ result, traced src result → Traces src (body result) := fun result hresult => by
      refine (traces_suite hrules w).bind fun trees htrees => .pure (traced_plain ?_)
      have hhead := traced_append.2 ⟨traced_append.2 ⟨htypes, hparams⟩, hresult⟩
      exact traced_append.2 ⟨hhead, htrees⟩
    exact .ite ((hrules _).bind fun p hp => hbody _ hp) (hbody _ traced_nil)
  exact .ite ((traces_typeParameters hrules _).bind hfinish) (hfinish _ traced_nil)

theorem traces_classDefinition (w : Want) : Traces src (classDefinition rules w) := by
  refine traces_here.bind fun pos _ => (traces_take _).bind fun _ _ => (traces_ident _).bind fun _ _ => ?_
  refine (traces_atMark _).bind fun _ _ => ?_
  extract_lets finish
  have hfinish : ∀ types, traced src types → Traces src (finish types) := fun types htypes => by
    refine (traces_atMark _).bind fun _ _ => ?_
    extract_lets body
    have hbody : ∀ bases, traced src bases → Traces src (body bases) := fun bases hbases => by
      refine (traces_suite hrules w).bind fun trees htrees => .pure (traced_plain ?_)
      exact traced_append.2 ⟨traced_append.2 ⟨htypes, hbases⟩, htrees⟩
    exact .ite ((traces_arguments hrules _ _).bind hbody) (hbody _ traced_nil)
  exact .ite ((traces_typeParameters hrules _).bind hfinish) (hfinish _ traced_nil)

theorem traces_tryStatement (w : Want) : Traces src (tryStatement rules w) := by
  refine traces_here.bind fun pos _ => (traces_take _).bind fun _ _ => ?_
  refine (traces_suite hrules _).bind fun body hbody => ?_
  extract_lets after finally? handler? handle plainHandler groupHandler
  have hfinally : Traces src finally? :=
    .branch (traces_keyword? _ _) (traces_suite hrules w) (.pure traced_nil)
  have hhandler : Traces src handler? :=
    traces_get.bind fun s _ => .ite (.pure fun _ _ => trivial) (.pure traced_none)
  have hhandle : ∀ value, traced src value → Traces src (handle value) := fun value hvalue =>
    (traces_suite hrules after).bind fun trees htrees => .pure (traced_append.2 ⟨hvalue, htrees⟩)
  have hplain : Traces src plainHandler := by
    refine (traces_take _).bind fun _ _ => .branch (traces_atMark _) (hhandle _ traced_nil) ?_
    refine (hrules _).bind fun value hvalue => .branch (traces_mark? _ _) ?_ (hhandle _ hvalue)
    exact (hrules _).bind fun name hname => hhandle _ (traced_append.2 ⟨hvalue, hname⟩)
  have hgroup : Traces src groupHandler := by
    refine traces_get.bind fun s hs => (traces_goTo hs.next.step _).bind fun _ _ => ?_
    exact (hrules _).bind fun value hvalue => hhandle _ hvalue
  refine hhandler.bind fun first _ => ?_
  split
  · refine .branch (traces_atWord _) (hfinally.bind fun last hlast => .pure ?_) .refuse
    exact traced_plain (traced_append.2 ⟨hbody, hlast⟩)
  · refine Yields.bind (P := traced src) (traces_loop (fun trees htrees => ?_) hbody)
      fun trees htrees => ?_
    · refine hhandler.bind fun next _ => ?_
      split
      · refine .ite (.ite ?_ ?_) .refuse
        · exact hgroup.bind fun more hmore => .pure (traced_append.2 ⟨htrees, hmore⟩)
        · exact hplain.bind fun more hmore => .pure (traced_append.2 ⟨htrees, hmore⟩)
      · exact .pure htrees
    · refine (traces_else? hrules w).bind fun other hother => hfinally.bind fun last hlast => .pure ?_
      exact traced_plain (traced_append.2 ⟨traced_append.2 ⟨htrees, hother⟩, hlast⟩)

theorem traces_matchStatement (w : Want) : Traces src (matchStatement rules w) := by
  refine traces_here.bind fun pos _ => (traces_take _).bind fun _ _ => ?_
  refine (traces_expressions hrules _).bind fun es hes => ?_
  extract_lets subjects insideMatch caseClause
  have hsubjects : traced src subjects := traced_wrap hes
  have hclause : Traces src caseClause := by
    refine (traces_keyword _ _).bind fun _ _ => (hrules _).bind fun first hfirst => ?_
    refine Yields.bind (P := traced src)
      (traces_loop (fun trees htrees => ?_) (x := first.trees) hfirst) fun patterns hpatterns => ?_
    · refine .branch (traces_mark? _ _) ?_ (.pure htrees)
      refine (traces_atMark _).bind fun _ _ => (traces_atWord _).bind fun _ _ => .ite (.pure htrees) ?_
      exact (hrules _).bind fun p hp => .pure (traced_append.2 ⟨htrees, hp⟩)
    · refine (traces_keyword? _ _).bind fun _ _ => ?_
      extract_lets finish
      have hfinish : ∀ guard, traced src guard → Traces src (finish guard) := fun guard hguard => by
        refine (traces_suite hrules _).bind fun body hbody => .pure ?_
        exact traced_append.2 ⟨traced_append.2 ⟨hpatterns, hguard⟩, hbody⟩
      exact .ite ((hrules _).bind fun p hp => hfinish _ hp) (hfinish _ traced_nil)
  refine (traces_mark _ _).bind fun _ _ => traces_peek.bind fun token _ => ?_
  split
  · exact (traces_take w).bind fun _ _ => .pure (traced_plain hsubjects)
  · refine (traces_take _).bind fun _ _ => Yields.bind (P := traced src)
      (traces_loop (fun trees htrees => ?_) hsubjects) fun trees htrees => .pure (traced_plain htrees)
    refine traces_peek.bind fun token _ => .ite ((traces_take w).bind fun _ _ => .pure htrees) ?_
    exact hclause.bind fun more hmore => .pure (traced_append.2 ⟨htrees, hmore⟩)
  · exact .refuse

theorem traces_decoratedDefinition (w : Want) : Traces src (decoratedDefinition rules w) := by
  refine traces_here.bind fun pos _ => Yields.bind (P := traced src)
    (traces_loop (fun trees htrees => ?_) traced_nil) fun decorators hdecorators => ?_
  · refine .branch (traces_mark? _ _) ?_ (.pure htrees)
    refine (hrules _).bind fun p hp => (traces_newline _).bind fun _ _ => .pure ?_
    exact traced_append.2 ⟨htrees, hp⟩
  · refine (traces_atWord _).bind fun _ _ => ?_
    extract_lets finish
    have hfinish : Traces src (finish ()) := by
      refine traces_peek.bind fun token _ => ?_
      split
      · refine (traces_functionDefinition hrules w).bind fun t ht => .pure (traced_plain ?_)
        exact traced_append.2 ⟨hdecorators, traced_cons.2 ⟨ht, traced_nil⟩⟩
      · refine (traces_classDefinition hrules w).bind fun t ht => .pure (traced_plain ?_)
        exact traced_append.2 ⟨hdecorators, traced_cons.2 ⟨ht, traced_nil⟩⟩
      · exact .refuse
    refine .ite ((traces_take _).bind fun _ _ => .branch (traces_atWord _) hfinish ?_) hfinish
    exact Yields.bind (P := traced src) .refuse fun _ _ => hfinish

omit hrules in
theorem traces_single {p : Reader Tree} (hp : Traces src p) : Traces src (do return [← p]) :=
  hp.bind fun _ ht => .pure (traced_cons.2 ⟨ht, traced_nil⟩)

theorem traces_asyncOrSimple (w : Want) : Traces src (asyncOrSimple rules w) := by
  refine traces_get.bind fun s hs => (traces_take _).bind fun _ _ => traces_peek.bind fun token _ => ?_
  split
  · exact traces_single (traces_functionDefinition hrules w)
  · exact traces_single (traces_forStatement hrules w)
  · exact traces_single (traces_withStatement hrules w)
  · exact (traces_set hs).bind fun _ _ => traces_simpleStatements hrules w

theorem traces_statement (w : Want) : Traces src (statement rules w) := by
  refine traces_peek.bind fun token _ => ?_
  split
  · exact traces_single (traces_ifStatement hrules w)
  · exact traces_single (traces_forStatement hrules w)
  · exact traces_single (traces_whileStatement hrules w)
  · exact traces_single (traces_tryStatement hrules w)
  · exact traces_single (traces_withStatement hrules w)
  · exact traces_single (traces_functionDefinition hrules w)
  · exact traces_single (traces_classDefinition hrules w)
  · exact traces_asyncOrSimple hrules w
  · exact traces_orElse (traces_single (traces_matchStatement hrules w)) (traces_simpleStatements hrules w)
  · exact traces_single (traces_decoratedDefinition hrules w)
  · exact traces_simpleStatements hrules w

theorem traces_statements (module : Bool) : Traces src (statements rules module) := by
  refine traces_loop (fun trees htrees => ?_) traced_nil
  refine traces_peek.bind fun token _ => .ite (.pure htrees) ?_
  exact (traces_statement hrules _).bind fun more hmore => .pure (traced_append.2 ⟨htrees, hmore⟩)

/-- The rule of a goal gives what the rules of the constructs inside give. -/
theorem traces_rule (goal : Goal) : Traces src (rule rules goal) := by
  cases goal with
  | expression x => exact traces_expression hrules x
  | chain x => exact traces_chain hrules x
  | simple x => exact traces_simple hrules x
  | iterand x => exact traces_iterand hrules x
  | typeForm x colon => exact traces_typeForm hrules x colon
  | replacement => exact traces_replacement hrules
  | pattern x => exact traces_pattern hrules x
  | key => exact traces_patternKey hrules
  | statements module => exact traces_statements hrules module

end

/-! ### Whole sources -/

theorem traces_rulesWith (depth : Nat) (goal : Goal) : Traces src (rulesWith depth goal) := by
  induction depth generalizing goal with
  | zero => exact .refuse
  | succ depth ih => exact traces_rule ih goal

/-- Every import node of a source was read there. -/
theorem readIn_of_mem_importNodes {n : Tree} (h : n ∈ (Tree.ofSource src.chars).importNodes) :
    n.ReadIn src := by
  unfold Tree.ofSource at h
  split at h
  · next trees hread =>
      refine traced_plain ?_ n h
      have hstart := Stream.in_fetch (Cursor.in_ofChars src) { string := true }
      unfold readSource at hread
      dsimp only at hread
      cases hrun : rulesWith (depthBound src.chars) (.statements true)
          (Stream.fetch { string := true } (Cursor.ofChars src.chars)) with
      | error e =>
          rw [hrun] at hread
          cases hread
      | ok r =>
          rw [hrun] at hread
          cases hread
          exact (traces_rulesWith _ _ _ hstart r.1 r.2 hrun).2
  · refine traced_plain ?_ n h
    exact traced_cons.2 ⟨traced_leaf (by decide) (by decide), traced_nil⟩

end ImportAtlas.Python
