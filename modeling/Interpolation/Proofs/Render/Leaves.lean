import Interpolation.Proofs.Render.Outcome

/-!
# Leaves

Trees are the nodes whose parts are known.  What they show is decided by their leaves, from left to
right: the texts, tags and host nodes that give a text by themselves, and the texts around children.
A leaf knows its outcome and the trees that it stands in, and a failure is placed at the innermost
of these that has an origin.
-/

namespace Interpolation

/-- A text, a tag, a host node that gives its text by itself, or a host node that surrounds what its
children give, once for each context that it chooses. -/
inductive Tree
  | text (source : String) (trimming : Trimming) (origin : Option Origin)
  | tag (tag : Tag Resolver Test)
  | leaf (render : Context → Except RenderError String) (origin : Option Origin)
  | around (before after : String) (contexts : Context → Except RenderError (List Context))
      (children : List Tree) (origin : Option Origin)

namespace Tree

mutual

/-- The tree as a node. -/
def toNode : Tree → Node
  | .text source trimming origin => .text source trimming origin
  | .tag t => .tag t
  | .leaf render origin => .leaf render origin
  | .around before after contexts children origin =>
    .around before after contexts (toNodes children) origin

/-- The trees as nodes. -/
def toNodes : List Tree → List Node
  | [] => []
  | tree :: trees => tree.toNode :: toNodes trees

end

/-- Where the tree comes from. -/
def origin (tree : Tree) : Option Origin := tree.toNode.origin

/-- What the trees show in a context. -/
def renderAll (trees : List Tree) (context : Context) : Rendering :=
  Node.renderAll (toNodes trees) context

end Tree

/-- What one leaf gives, with the trees from the leaf up to the outermost. -/
structure Leaf where
  result : Outcome
  path : List Tree := []

namespace Leaf

/-- The leaf as part of a tree. -/
def below (tree : Tree) (leaf : Leaf) : Leaf := { leaf with path := leaf.path ++ [tree] }

/-- The origin of the innermost tree that has one. -/
def origin (leaf : Leaf) : Option Origin := leaf.path.findSome? Tree.origin

/-- What the leaf gives, with a failure at its place. -/
def outcome (leaf : Leaf) : Outcome := leaf.result.orAt leaf.origin

theorem outcome_of_ok {leaf : Leaf} {text : String} (h : leaf.result = .ok text) :
    leaf.outcome = .ok text := by
  rw [outcome, h]
  rfl

theorem outcome_of_error {leaf : Leaf} {error : RenderError} (h : leaf.result = .error error) :
    leaf.outcome = .error (error.orAt leaf.origin) := by
  rw [outcome, h]
  rfl

theorem exists_outcome_eq_ok_iff (leaf : Leaf) :
    (∃ text, leaf.outcome = .ok text) ↔ ∃ text, leaf.result = .ok text := by
  cases h : leaf.result with
  | error error => simp [outcome_of_error h]
  | ok text => simp [outcome_of_ok h]

end Leaf

namespace Tree

mutual

/-- The leaves of a tree in a context, in the order in which they are rendered.  A tree that fails
to choose the contexts of its children is a leaf. -/
def leaves (tree : Tree) (context : Context) : List Leaf :=
  let inner : List Leaf :=
    match tree with
    | .text source trimming _ => [⟨.ok (String.ofList (trimming.apply source.toList)), []⟩]
    | .tag t => [⟨t.render context, []⟩]
    | .leaf render _ => [⟨render context, []⟩]
    | .around before after contexts children _ =>
      match contexts context with
      | .error error => [⟨.error error, []⟩]
      | .ok contexts =>
        ⟨.ok before, []⟩ :: contexts.flatMap (leavesAll children) ++
          [⟨.ok after, []⟩]
  inner.map (Leaf.below tree)

/-- The leaves of a list of trees in a context. -/
def leavesAll : List Tree → Context → List Leaf
  | [], _ => []
  | tree :: trees, context => tree.leaves context ++ leavesAll trees context

end

theorem outcome_below (tree : Tree) (leaf : Leaf) :
    (leaf.below tree).outcome = leaf.outcome.orAt tree.origin := by
  have horigin : (leaf.below tree).origin = leaf.origin.or tree.origin := by
    simp [Leaf.origin, Leaf.below, List.findSome?_append]
  rw [Leaf.outcome, horigin, Leaf.outcome, Outcome.orAt_orAt]
  rfl

theorem joinAll_below (tree : Tree) (leaves : List Leaf) :
    Outcome.joinAll ((leaves.map (Leaf.below tree)).map Leaf.outcome) =
      (Outcome.joinAll (leaves.map Leaf.outcome)).orAt tree.origin := by
  rw [Outcome.orAt_joinAll, List.map_map, List.map_map]
  congr 2
  funext leaf
  exact outcome_below tree leaf

/-- What is given before, what the nodes show in the contexts, and what is given after them. -/
theorem result_run_each (nodes : List Node) (after : String) (contexts : List Context)
    (text : String) :
    (Handler.each nodes after contexts text).run.result =
      Outcome.joinAll [.ok text,
        Outcome.joinAll (contexts.map fun context => (Node.renderAll nodes context).result),
        .ok after] := by
  induction contexts generalizing text with
  | nil =>
    rw [Handler.each, Handler.run]
    simp [Rendering.silent, Outcome.joined, Except.map]
  | cons context contexts ih =>
    rw [Handler.each, Handler.run, Rendering.result_after, List.map_cons, Node.renderAll]
    cases (Node.renderFrom 0 nodes context).result with
    | error error => rfl
    | ok more =>
      have hjoined : (.ok (text ++ more) : Outcome) = Outcome.joined (.ok text) (.ok more) := rfl
      dsimp only
      rw [ih, hjoined]
      simp only [Outcome.joinAll_cons, Outcome.joined_assoc]

theorem result_render_around (before after : String)
    (contexts : Context → Except RenderError (List Context)) (children : List Tree)
    (origin : Option Origin) (context : Context) :
    ((toNode (.around before after contexts children origin)).render context).result =
      match contexts context with
      | .error error => .error error
      | .ok contexts =>
        Outcome.joinAll [.ok before,
          Outcome.joinAll (contexts.map fun context => (renderAll children context).result),
          .ok after] := by
  rw [toNode, Node.around, Node.render]
  cases contexts context with
  | error error => rw [Handler.run, Rendering.silent]
  | ok contexts => exact result_run_each (toNodes children) after contexts before

mutual

theorem result_render (tree : Tree) (context : Context) :
    Outcome.orAt tree.origin (tree.toNode.render context).result =
      Outcome.joinAll ((tree.leaves context).map Leaf.outcome) := by
  unfold leaves
  rw [joinAll_below]
  congr 1
  cases tree with
  | text source trimming origin =>
    simp [toNode, Node.render, Rendering.silent, Leaf.outcome, Leaf.origin]
  | tag t => simp [toNode, Node.render, Rendering.silent, Leaf.outcome, Leaf.origin]
  | leaf f origin =>
    simp [toNode, Node.leaf, Node.render, Handler.run, Rendering.silent, Leaf.outcome, Leaf.origin]
  | around before after contexts children origin =>
    have hchildren (context : Context) : (renderAll children context).result =
        Outcome.joinAll ((leavesAll children context).map Leaf.outcome) :=
      result_renderFrom children 0 context
    rw [result_render_around]
    dsimp only
    cases contexts context with
    | error error => simp [Leaf.outcome, Leaf.origin]
    | ok contexts =>
      simp only [hchildren, ← Outcome.joinAll_flatMap, ← List.map_flatMap]
      simp [Leaf.outcome, Leaf.origin, Outcome.joinAll_append]

theorem result_renderFrom (trees : List Tree) (index : Nat) (context : Context) :
    (Node.renderFrom index (toNodes trees) context).result =
      Outcome.joinAll ((leavesAll trees context).map Leaf.outcome) := by
  cases trees with
  | nil =>
    rw [toNodes, Node.renderFrom]
    rfl
  | cons tree trees =>
    have htree := result_render tree context
    have htrees := result_renderFrom trees (index + 1) context
    rw [toNodes, Node.renderFrom, Rendering.result_append, Rendering.result_report, htrees,
      leavesAll, List.map_append, Outcome.joinAll_append, ← htree]
    rfl

end

/-- What trees show is what their leaves give, up to the first failure. -/
theorem result_renderAll (trees : List Tree) (context : Context) :
    (renderAll trees context).result =
      Outcome.joinAll ((leavesAll trees context).map Leaf.outcome) :=
  result_renderFrom trees 0 context

/-! ## Wrapping -/

/-- The second list has a run of neighbouring trees of the first, at any depth, in a tree around it
that adds no text and has no origin. -/
inductive Wraps : List Tree → List Tree → Prop
  | here (before run after : List Tree) :
      Wraps (before ++ run ++ after)
        (before ++ .around "" "" (fun context => .ok [context]) run none :: after)
  | inside (before after : List Tree) (opening closing : String)
      (contexts : Context → Except RenderError (List Context)) (origin : Option Origin)
      {children wrapped : List Tree} :
      Wraps children wrapped →
        Wraps (before ++ .around opening closing contexts children origin :: after)
          (before ++ .around opening closing contexts wrapped origin :: after)

theorem leavesAll_append (trees others : List Tree) (context : Context) :
    leavesAll (trees ++ others) context = leavesAll trees context ++ leavesAll others context := by
  induction trees with
  | nil => rfl
  | cons tree trees ih => simp [leavesAll, ih]

theorem result_renderAll_append (trees others : List Tree) (context : Context) :
    (renderAll (trees ++ others) context).result =
      Outcome.joined (renderAll trees context).result (renderAll others context).result := by
  simp only [result_renderAll, leavesAll_append, List.map_append, Outcome.joinAll_append]

theorem result_renderAll_cons (tree : Tree) (trees : List Tree) (context : Context) :
    (renderAll (tree :: trees) context).result =
      Outcome.joined (Outcome.orAt tree.origin (tree.toNode.render context).result)
        (renderAll trees context).result := by
  rw [result_render, result_renderAll, result_renderAll, leavesAll, List.map_append,
    Outcome.joinAll_append]

theorem Wraps.result_eq {trees wrapped : List Tree} (h : Wraps trees wrapped) (context : Context) :
    (renderAll wrapped context).result = (renderAll trees context).result := by
  induction h generalizing context with
  | here before run after =>
    have horigin : origin (.around "" "" (fun context => .ok [context]) run none) = none := by
      rw [origin, toNode]
      rfl
    rw [result_renderAll_append, result_renderAll_cons, List.append_assoc,
      result_renderAll_append, result_renderAll_append, result_render_around, horigin]
    simp
  | @inside before after opening closing contexts origin children wrapped h ih =>
    have horigin : Tree.origin (.around opening closing contexts wrapped origin) =
        Tree.origin (.around opening closing contexts children origin) := by
      simp only [Tree.origin, toNode]
      rfl
    simp only [result_renderAll_append, result_renderAll_cons, result_render_around, ih, horigin]

/-! ## The first failure -/

/-- Trees are rendered if all their leaves are, to the texts of the leaves in order.  Otherwise the
first leaf that fails decides: its failure keeps its place, and has that of the innermost tree
around the leaf with an origin if it has none.  Wrapping changes neither. -/
theorem renderAll_leaves (trees : List Tree) (context : Context) :
    ((∃ text, (renderAll trees context).result = .ok text) ↔
      ∀ leaf ∈ leavesAll trees context, ∃ text, leaf.result = .ok text) ∧
    (∀ texts : List String, (leavesAll trees context).map Leaf.result = texts.map Except.ok →
      (renderAll trees context).result = .ok (String.join texts)) ∧
    (∀ before leaf after error, leavesAll trees context = before ++ leaf :: after →
      (∀ other ∈ before, ∃ text, other.result = .ok text) → leaf.result = .error error →
      (renderAll trees context).result =
        .error ⟨error.fault, error.origin.or (leaf.path.findSome? Tree.origin)⟩) ∧
    ∀ wrapped, Wraps trees wrapped →
      (renderAll wrapped context).result = (renderAll trees context).result := by
  refine ⟨?_, fun texts htexts => ?_, ?_, fun wrapped h => h.result_eq context⟩
  · rw [result_renderAll, Outcome.joinAll_eq_ok_iff, List.forall_mem_map]
    simp only [Leaf.exists_outcome_eq_ok_iff]
  · have houtcomes : (leavesAll trees context).map Leaf.outcome = texts.map Except.ok := by
      rw [← htexts]
      refine List.map_congr_left fun leaf hleaf => ?_
      have hresult : leaf.result ∈ texts.map Except.ok := htexts ▸ List.mem_map_of_mem hleaf
      obtain ⟨text, -, htext⟩ := List.mem_map.1 hresult
      rw [Leaf.outcome_of_ok htext.symm, htext]
    rw [result_renderAll, houtcomes, Outcome.joinAll_map_ok]
  · intro before leaf after error hleaves hbefore herror
    rw [result_renderAll, hleaves, List.map_append, List.map_cons, Leaf.outcome_of_error herror]
    refine Outcome.joinAll_of_failure fun outcome houtcome => ?_
    obtain ⟨other, hother, rfl⟩ := List.mem_map.1 houtcome
    exact other.exists_outcome_eq_ok_iff.2 (hbefore other hother)

theorem renderAll_leaves_second_run :
    let depth : Tree := .leaf (fun context => .ok (toString context.depth)) none
    let shallow : Tree := .leaf (fun context =>
      if context.depth = 1 then .ok "1" else .error ⟨.other "deep", none⟩) none
    let twice (tree : Tree) : Tree :=
      .around "<" ">" (fun context => .ok [context, context.push]) [tree] (some .start)
    (renderAll [twice depth] .empty).result = .ok "<12>" ∧
    (renderAll [twice shallow] .empty).result = .error ⟨.other "deep", some .start⟩ ∧
    (renderAll [.around "" "" (fun context => .ok [context]) [twice shallow] none] .empty).result =
      (renderAll [twice shallow] .empty).result := by
  intro depth shallow twice
  have hok := (renderAll_leaves [twice depth] .empty).2.1 ["<", "1", "2", ">"] rfl
  obtain ⟨-, -, hfailure, hwraps⟩ := renderAll_leaves [twice shallow] .empty
  have hwrapped := hwraps _ (.here [] [twice shallow] [])
  refine ⟨hok, hfailure [_, _] _ [_] ⟨.other "deep", none⟩ rfl ?_ rfl, hwrapped⟩
  rintro other (_ | ⟨_, _ | ⟨_, ⟨⟩⟩⟩)
  · exact ⟨"<", rfl⟩
  · exact ⟨"1", rfl⟩

end Tree

end Interpolation
