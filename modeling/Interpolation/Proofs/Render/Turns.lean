import Interpolation.Proofs.Render.Outcome
import Interpolation.Proofs.Result

/-!
# Turns

While a list of nodes is rendered, each node has its turn, up to the first that fails.  Within the
turn of a host node the nodes have theirs that it has rendered.  A turn ends after the turns within
it and is reported then.  If host nodes pass on the failures of what they have rendered, only the
turns around a failure end after it, from the inside out, and the failure is located as soon as one
of their nodes has an origin.
-/

namespace Interpolation

/-- How many bytes events say that nodes gave. -/
def Event.totalBytes : List Event → Nat
  | [] => 0
  | .rendered _ bytes :: events => bytes + totalBytes events
  | _ :: events => totalBytes events

/-- The turn of a node in the rendering of its list. -/
structure Turn where
  index : Nat
  node : Node
  context : Context

namespace Turn

/-- What the node gives, before a failure is placed at it. -/
def outcome (turn : Turn) : Outcome := (turn.node.render turn.context).result

/-- What is reported at the end of the turn. -/
def event (turn : Turn) : Event :=
  match turn.outcome with
  | .ok text => .rendered turn.index text.utf8ByteSize
  | .error error => .failed turn.index error.reason error.isLocated

/-- The node gives a text. -/
def Succeeds (turn : Turn) : Prop := ∃ text, turn.outcome = .ok text

/-- The node says where it comes from. -/
def hasOrigin (turn : Turn) : Bool := turn.node.origin.isSome

end Turn

/-- A turn with the turns around it, from the inside out. -/
structure Visit where
  turn : Turn
  around : List Turn := []

namespace Visit

/-- The visit as part of another turn. -/
def below (turn : Turn) (visit : Visit) : Visit := { visit with around := visit.around ++ [turn] }

/-- The turn and those around it. -/
def path (visit : Visit) : List Turn := visit.turn :: visit.around

/-- The visit and those around it, as they end. -/
def ends (visit : Visit) : List Visit := endsFrom visit.turn visit.around
where
  /-- The turn within others, and these. -/
  endsFrom (turn : Turn) : List Turn → List Visit
    | [] => [⟨turn, []⟩]
    | outer :: around => ⟨turn, outer :: around⟩ :: endsFrom outer around

/-- Whether a failure of the visit is located when the turn at a depth of its path ends: it was from
the start, or a node further in has an origin. -/
def isLocatedAt (visit : Visit) (error : RenderError) (depth : Nat) : Bool :=
  error.isLocated || (visit.path.take depth).any Turn.hasOrigin

/-- What is reported if the visit fails. -/
def failures (visit : Visit) (error : RenderError) : List Event :=
  visit.path.mapIdx fun depth turn =>
    .failed turn.index error.reason (visit.isLocatedAt error depth)

/-- The origin of the innermost node that has one. -/
def origin (visit : Visit) : Option Origin := visit.path.findSome? fun turn => turn.node.origin

theorem path_below (turn : Turn) (visit : Visit) :
    (visit.below turn).path = visit.path ++ [turn] := rfl

theorem ends_below (turn : Turn) (visit : Visit) :
    (visit.below turn).ends = visit.ends.map (below turn) ++ [⟨turn, []⟩] := by
  obtain ⟨inner, around⟩ := visit
  change ends.endsFrom inner (around ++ [turn]) =
    (ends.endsFrom inner around).map (below turn) ++ [⟨turn, []⟩]
  induction around generalizing inner with
  | nil => rfl
  | cons outer around ih =>
    rw [List.cons_append, ends.endsFrom, ends.endsFrom, ih, List.map_cons, List.cons_append]
    rfl

theorem map_turn_ends (visit : Visit) : visit.ends.map Visit.turn = visit.path := by
  obtain ⟨inner, around⟩ := visit
  change (ends.endsFrom inner around).map Visit.turn = inner :: around
  induction around generalizing inner with
  | nil => rfl
  | cons outer around ih => rw [ends.endsFrom, List.map_cons, ih]

theorem turn_filter_ends (visit : Visit) :
    (visit.ends.filter (·.around.isEmpty)).map Visit.turn = visit.path.getLast?.toList := by
  obtain ⟨inner, around⟩ := visit
  change ((ends.endsFrom inner around).filter (·.around.isEmpty)).map Visit.turn =
    (inner :: around).getLast?.toList
  induction around generalizing inner with
  | nil => rfl
  | cons outer around ih =>
    rw [ends.endsFrom, List.filter_cons_of_neg (by simp), ih, List.getLast?_cons_cons]

theorem origin_below (turn : Turn) (visit : Visit) :
    (visit.below turn).origin = visit.origin.or turn.node.origin := by
  rw [origin, path_below, List.findSome?_append, origin]
  simp

theorem isLocated_orAt_origin (visit : Visit) (error : RenderError) :
    (error.orAt visit.origin).isLocated = (error.isLocated || visit.path.any Turn.hasOrigin) := by
  have horigin : visit.origin.isSome = visit.path.any Turn.hasOrigin := List.isSome_findSome?
  rw [Failure.isLocated, Failure.orAt, Option.isSome_or, horigin, Failure.isLocated]

theorem failures_below (turn : Turn) (visit : Visit) (error : RenderError) :
    (visit.below turn).failures error =
      visit.failures error ++
        [.failed turn.index error.reason (error.orAt visit.origin).isLocated] := by
  have hinner : ∀ depth (h : depth < visit.path.length),
      (visit.below turn).isLocatedAt error depth = visit.isLocatedAt error depth := by
    intro depth h
    rw [isLocatedAt, path_below, List.take_append_of_le_length (Nat.le_of_lt h), isLocatedAt]
  have houter : (visit.below turn).isLocatedAt error visit.path.length =
      (error.orAt visit.origin).isLocated := by
    rw [isLocatedAt, path_below, List.take_left, isLocated_orAt_origin]
  rw [failures, path_below, List.mapIdx_concat, houter, failures]
  congr 1
  refine List.mapIdx_eq_mapIdx_iff.2 fun depth h => ?_
  rw [hinner depth h]

theorem isLocatedAt_mono (visit : Visit) (error : RenderError) {inner outer : Nat}
    (h : inner ≤ outer) (hinner : visit.isLocatedAt error inner = true) :
    visit.isLocatedAt error outer = true := by
  rw [isLocatedAt, Bool.or_eq_true, List.any_eq_true] at hinner ⊢
  refine hinner.imp_right ?_
  rintro ⟨turn, hturn, horigin⟩
  exact ⟨turn, (List.take_prefix_take_left h).subset hturn, horigin⟩

end Visit

/-! ## The turns that take place -/

mutual

/-- The turns while a node, at an index of its list, is rendered in a context, in the order in which
they end: those within its own turn, and its own. -/
def Node.visits (index : Nat) (node : Node) (context : Context) : List Visit :=
  let turn : Turn := ⟨index, node, context⟩
  let within : List Visit :=
    match node with
    | .text .. | .tag _ => []
    | .host handler _ => (handler context).visits
  within.map (Visit.below turn) ++ [⟨turn, []⟩]

/-- The turns of the nodes that a handler has rendered. -/
def Handler.visits : Handler → List Visit
  | .done _ => []
  | .call nodes context next =>
    Node.visitsFrom 0 nodes context ++ (next (Node.renderFrom 0 nodes context).result).visits

/-- The turns while a list of nodes is rendered in a context, the first of them standing at an
index.  The first node that fails is the last to have its turn. -/
def Node.visitsFrom (index : Nat) : List Node → Context → List Visit
  | [], _ => []
  | node :: nodes, context =>
    node.visits index context ++
      if (node.render context).result.isOk then Node.visitsFrom (index + 1) nodes context else []

end

/-- The turns while a list of nodes is rendered in a context, in the order in which they end. -/
def Node.visitsAll (nodes : List Node) (context : Context) : List Visit :=
  visitsFrom 0 nodes context

namespace Turn

/-- The turns within the turn. -/
def within (turn : Turn) : List Visit :=
  match turn.node with
  | .text .. | .tag _ => []
  | .host handler _ => (handler turn.context).visits

/-- The node fails, and not because a node that it has rendered does. -/
structure FailsByItself (turn : Turn) (cause : RenderError) : Prop where
  outcome_eq : turn.outcome = .error cause
  within_succeed : ∀ visit ∈ turn.within, visit.turn.Succeeds

end Turn

theorem Node.visits_eq (index : Nat) (node : Node) (context : Context) :
    node.visits index context =
      (Turn.within ⟨index, node, context⟩).map (Visit.below ⟨index, node, context⟩) ++
        [⟨⟨index, node, context⟩, []⟩] := by
  unfold Node.visits
  rfl

/-! ## The order of turns -/

namespace Visit

/-- The visits within the visit. -/
def within (visit : Visit) : List Visit :=
  visit.turn.within.map fun inner => { inner with around := inner.around ++ visit.path }

theorem within_below (turn : Turn) (visit : Visit) :
    (visit.below turn).within = visit.within.map (below turn) := by
  rw [within, within, List.map_map, path_below]
  refine List.map_congr_left fun inner _ => ?_
  simp [below]

/-- The visits within a visit stand directly before it. -/
def InOrder (visits : List Visit) : Prop :=
  ∀ earlier visit later, visits = earlier ++ visit :: later → visit.within <:+ earlier

namespace InOrder

variable {visits others : List Visit}

theorem nil : InOrder [] := by
  intro earlier visit later h
  simp at h

theorem append_of (h : InOrder visits) (hothers : ∀ earlier visit later,
    others = earlier ++ visit :: later → visit.within <:+ visits ++ earlier) :
    InOrder (visits ++ others) := by
  intro earlier visit later hsplit
  rcases List.append_eq_append_iff.1 hsplit with ⟨more, rfl, hmore⟩ | ⟨more, rfl, hmore⟩
  · exact hothers more visit later hmore
  · cases more with
    | nil => simpa using hothers [] visit later hmore.symm
    | cons first more =>
      obtain ⟨rfl, -⟩ := List.cons.inj hmore
      exact h earlier visit more rfl

theorem append (h : InOrder visits) (hothers : InOrder others) : InOrder (visits ++ others) :=
  h.append_of fun earlier visit later hsplit =>
    (hothers earlier visit later hsplit).trans (List.suffix_append visits earlier)

theorem below (h : InOrder visits) (turn : Turn) : InOrder (visits.map (Visit.below turn)) := by
  intro earlier visit later hsplit
  obtain ⟨earlier, rest, rfl, rfl, hrest⟩ := List.map_eq_append_iff.1 hsplit
  obtain ⟨visit, later, rfl, rfl, -⟩ := List.map_eq_cons_iff.1 hrest
  rw [within_below]
  exact (h earlier visit later rfl).map _

/-- A turn ends directly after those within it. -/
theorem own {turn : Turn} (h : InOrder turn.within) :
    InOrder (turn.within.map (Visit.below turn) ++ [⟨turn, []⟩]) := by
  refine (h.below turn).append_of fun earlier visit later hsplit => ?_
  obtain ⟨rfl, h⟩ | ⟨-, h⟩ := List.append_eq_singleton_iff.1 hsplit.symm
  · obtain ⟨rfl, -⟩ := List.cons.inj h
    rw [List.append_nil]
    exact List.suffix_rfl
  · cases h

end InOrder

end Visit

mutual

theorem Node.inOrder_visits (index : Nat) (node : Node) (context : Context) :
    Visit.InOrder (node.visits index context) := by
  have hwithin : Visit.InOrder (Turn.within ⟨index, node, context⟩) := by
    cases node with
    | text source trimming origin => exact .nil
    | tag t => exact .nil
    | host handler origin => exact (handler context).inOrder_visits
  rw [node.visits_eq]
  exact hwithin.own

theorem Handler.inOrder_visits (handler : Handler) : Visit.InOrder handler.visits := by
  cases handler with
  | done result =>
    rw [Handler.visits]
    exact .nil
  | call nodes context next =>
    have hchildren := Node.inOrder_visitsFrom 0 nodes context
    rw [Handler.visits]
    exact hchildren.append (next (Node.renderFrom 0 nodes context).result).inOrder_visits

theorem Node.inOrder_visitsFrom (index : Nat) (nodes : List Node) (context : Context) :
    Visit.InOrder (Node.visitsFrom index nodes context) := by
  cases nodes with
  | nil =>
    rw [Node.visitsFrom]
    exact .nil
  | cons node nodes =>
    have hnode := node.inOrder_visits index context
    have hnodes := Node.inOrder_visitsFrom (index + 1) nodes context
    rw [Node.visitsFrom]
    split
    · exact hnode.append hnodes
    · rw [List.append_nil]
      exact hnode

end

mutual

/-- Whenever nodes fail that a host node, here or further in, has had rendered, this is the end of
what it does, and their failure is what it gives. -/
inductive Node.PassesFailures : Node → Prop
  | text (source : String) (trimming : Trimming) (origin : Option Origin) :
      Node.PassesFailures (.text source trimming origin)
  | tag (tag : Tag Resolver Test) : Node.PassesFailures (.tag tag)
  | host {handler : Context → Handler} (origin : Option Origin) :
      (∀ context, (handler context).PassesFailures) → Node.PassesFailures (.host handler origin)

/-- The same of what is left to do. -/
inductive Handler.PassesFailures : Handler → Prop
  | done (result : Except RenderError String) :
      Handler.PassesFailures (.done result)
  | call {nodes : List Node} {next : Except RenderError String → Handler} (context : Context) :
      (∀ node ∈ nodes, node.PassesFailures) →
      (∀ error, next (.error error) = .done (.error error)) →
      (∀ text, (next (.ok text)).PassesFailures) → Handler.PassesFailures (.call nodes context next)

end

theorem Node.passesFailures_leaf (render : Context → Except RenderError String)
    (origin : Option Origin) : (Node.leaf render origin).PassesFailures :=
  .host origin fun context => .done (render context)

theorem Handler.passesFailures_each {nodes : List Node} (h : ∀ node ∈ nodes, node.PassesFailures)
    (after : String) (contexts : List Context) (text : String) :
    (Handler.each nodes after contexts text).PassesFailures := by
  induction contexts generalizing text with
  | nil => exact .done _
  | cons context contexts ih => exact .call context h (fun _ => rfl) fun more => ih (text ++ more)

theorem Node.passesFailures_around {children : List Node}
    (h : ∀ child ∈ children, child.PassesFailures) (before after : String)
    (contexts : Context → Except RenderError (List Context)) (origin : Option Origin) :
    (Node.around before after contexts children origin).PassesFailures := by
  refine .host origin fun context => ?_
  cases contexts context with
  | error error => exact .done _
  | ok contexts => exact Handler.passesFailures_each h after contexts before

/-! ## Reports -/

namespace Rendering

variable {first second : Rendering} {text : String} {error : RenderError}

theorem append_of_ok (h : first.result = .ok text) :
    first.append second = ⟨first.events ++ second.events, second.result.map (text ++ ·)⟩ := by
  rw [append, h]

theorem append_of_error (h : first.result = .error error) :
    first.append second = ⟨first.events, .error error⟩ := by
  rw [append, h]

theorem events_report (turn : Turn) :
    ((turn.node.render turn.context).report turn.index turn.node.origin).events =
      (turn.node.render turn.context).events ++ [turn.event] := by
  rw [report, Turn.event, Turn.outcome]
  cases (turn.node.render turn.context).result <;> rfl

end Rendering

namespace Node

theorem result_report_of_ok {node : Node} {context : Context} {text : String}
    (h : (node.render context).result = .ok text) (index : Nat) :
    ((node.render context).report index node.origin).result = .ok text := by
  rw [Rendering.result_report, h]
  rfl

theorem result_report_of_error {node : Node} {context : Context} {error : RenderError}
    (h : (node.render context).result = .error error) (index : Nat) :
    ((node.render context).report index node.origin).result = .error (error.orAt node.origin) := by
  rw [Rendering.result_report, h]
  rfl

/-- After a node that gives a text, the others have their turn. -/
theorem visitsFrom_cons_of_ok {node : Node} {context : Context} {text : String}
    (h : (node.render context).result = .ok text) (index : Nat) (nodes : List Node) :
    visitsFrom index (node :: nodes) context =
      node.visits index context ++ visitsFrom (index + 1) nodes context := by
  rw [visitsFrom, h]
  rfl

/-- After a node that fails, no other has its turn. -/
theorem visitsFrom_cons_of_error {node : Node} {context : Context} {error : RenderError}
    (h : (node.render context).result = .error error) (index : Nat) (nodes : List Node) :
    visitsFrom index (node :: nodes) context = node.visits index context := by
  rw [visitsFrom, h]
  exact List.append_nil _

end Node

mutual

/-- Every turn that takes place is reported once, when it ends. -/
theorem Node.events_report (index : Nat) (node : Node) (context : Context) :
    ((node.render context).report index node.origin).events =
      (node.visits index context).map (·.turn.event) := by
  have hwithin : (node.render context).events =
      (Turn.within ⟨index, node, context⟩).map (·.turn.event) := by
    cases node with
    | text source trimming origin =>
      rw [Node.render]
      rfl
    | tag t =>
      rw [Node.render]
      rfl
    | host handler origin =>
      rw [Node.render]
      exact (handler context).events_run
  rw [Rendering.events_report ⟨index, node, context⟩, node.visits_eq, hwithin, List.map_append,
    List.map_map, List.map_singleton]
  rfl

theorem Handler.events_run (handler : Handler) :
    handler.run.events = handler.visits.map (·.turn.event) := by
  cases handler with
  | done result =>
    rw [Handler.run, Handler.visits]
    rfl
  | call nodes context next =>
    have hchildren := Node.events_renderFrom 0 nodes context
    have hnext := (next (Node.renderFrom 0 nodes context).result).events_run
    rw [Handler.run, Handler.visits, List.map_append, ← hchildren, ← hnext]
    rfl

theorem Node.events_renderFrom (index : Nat) (nodes : List Node) (context : Context) :
    (Node.renderFrom index nodes context).events =
      (Node.visitsFrom index nodes context).map (·.turn.event) := by
  cases nodes with
  | nil =>
    rw [Node.renderFrom, Node.visitsFrom]
    rfl
  | cons node nodes =>
    have hnode := node.events_report index context
    have hnodes := Node.events_renderFrom (index + 1) nodes context
    rw [Node.renderFrom]
    cases hresult : (node.render context).result with
    | error error =>
      rw [Rendering.append_of_error (Node.result_report_of_error hresult index), hnode,
        Node.visitsFrom_cons_of_error hresult]
    | ok text =>
      rw [Rendering.append_of_ok (Node.result_report_of_ok hresult index), hnode, hnodes,
        Node.visitsFrom_cons_of_ok hresult, List.map_append]

end

/-! ## The account of a rendering -/

/-- Either all turns succeed, or the last of them are those of a node that fails by itself and of
those around it, each with the failure of the first, which is also the outcome. -/
inductive Accounts (visits : List Visit) (outcome : Outcome) : Prop
  | succeed (succeeds : ∀ visit ∈ visits, visit.turn.Succeeds)
  | breakOff (before : List Visit) (failed : Visit) (cause : RenderError)
      (visits_eq : visits = before ++ failed.ends)
      (succeeds : ∀ visit ∈ before, visit.turn.Succeeds)
      (fails : failed.turn.FailsByItself cause)
      (events_eq : failed.path.map Turn.event = failed.failures cause)
      (outcome_eq : outcome = .error (cause.orAt failed.origin))

namespace Accounts

variable {visits before : List Visit} {outcome : Outcome}

theorem nil (outcome : Outcome) : Accounts [] outcome := .succeed (List.forall_mem_nil _)

/-- Turns before that succeed change nothing. -/
theorem after (h : Accounts visits outcome) (hbefore : ∀ visit ∈ before, visit.turn.Succeeds) :
    Accounts (before ++ visits) outcome := by
  cases h with
  | succeed hvisits => exact .succeed (List.forall_mem_append.2 ⟨hbefore, hvisits⟩)
  | breakOff earlier failed cause hvisits hearlier hfails hevents houtcome =>
    refine .breakOff (before ++ earlier) failed cause ?_
      (List.forall_mem_append.2 ⟨hbefore, hearlier⟩) hfails hevents houtcome
    rw [hvisits, List.append_assoc]

theorem map (h : Accounts visits outcome) (f : String → String) :
    Accounts visits (outcome.map f) := by
  cases h with
  | succeed hvisits => exact .succeed hvisits
  | breakOff earlier failed cause hvisits hearlier hfails hevents houtcome =>
    subst houtcome
    exact .breakOff earlier failed cause hvisits hearlier hfails hevents rfl

theorem succeeds_of_ok {text : String} (h : Accounts visits (.ok text)) :
    ∀ visit ∈ visits, visit.turn.Succeeds := by
  cases h with
  | succeed hvisits => exact hvisits
  | breakOff earlier failed cause hvisits hearlier hfails hevents houtcome => cases houtcome

/-- A turn ends after those within it: it succeeds, it fails by itself, or it passes a failure
on. -/
theorem report {turn : Turn} (h : Accounts turn.within turn.outcome) :
    Accounts (turn.within.map (Visit.below turn) ++ [⟨turn, []⟩])
      (turn.outcome.orAt turn.node.origin) := by
  cases h with
  | succeed hwithin =>
    cases houtcome : turn.outcome with
    | ok text =>
      refine .succeed (List.forall_mem_append.2 ⟨List.forall_mem_map.2 hwithin, ?_⟩)
      exact List.forall_mem_singleton.2 ⟨text, houtcome⟩
    | error cause =>
      refine .breakOff _ ⟨turn, []⟩ cause rfl (List.forall_mem_map.2 hwithin)
        ⟨houtcome, hwithin⟩ ?_ ?_
      · simp [Visit.failures, Visit.path, Visit.isLocatedAt, Turn.event, houtcome]
      · simp [Visit.origin, Visit.path, Outcome.orAt_error]
  | breakOff before failed cause hwithin hbefore hfails hevents houtcome =>
    have hevent : turn.event =
        .failed turn.index cause.reason (cause.orAt failed.origin).isLocated := by
      rw [Turn.event, houtcome]
      rfl
    refine .breakOff (before.map (Visit.below turn)) (failed.below turn) cause ?_
      (List.forall_mem_map.2 hbefore) hfails ?_ ?_
    · rw [hwithin, List.map_append, List.append_assoc, Visit.ends_below]
    · rw [Visit.path_below, List.map_append, hevents, Visit.failures_below, List.map_singleton,
        hevent]
    · rw [houtcome, Outcome.orAt_error]
      simp [Visit.origin_below, Failure.orAt, Option.or_assoc]

end Accounts

mutual

theorem Node.accounts_visits (index : Nat) (node : Node) (context : Context)
    (h : node.PassesFailures) :
    Accounts (node.visits index context)
      (Outcome.orAt node.origin (node.render context).result) := by
  have hwithin : Accounts (Turn.within ⟨index, node, context⟩) (node.render context).result := by
    cases node with
    | text source trimming origin => exact .nil _
    | tag t => exact .nil _
    | host handler origin =>
      cases h with
      | host _ hhandler =>
        rw [Node.render]
        exact (handler context).accounts_visits (hhandler context)
  rw [node.visits_eq]
  exact Accounts.report hwithin

theorem Handler.accounts_visits (handler : Handler) (h : handler.PassesFailures) :
    Accounts handler.visits handler.run.result := by
  cases handler with
  | done result =>
    rw [Handler.visits]
    exact .nil _
  | call nodes context next =>
    cases h with
    | call _ hnodes herror htext =>
      have hchildren := Node.accounts_visitsFrom 0 nodes context hnodes
      rw [Handler.visits, Handler.run, Rendering.result_after]
      cases hresult : (Node.renderFrom 0 nodes context).result with
      | error error =>
        rw [hresult] at hchildren
        rw [herror, Handler.visits, Handler.run, List.append_nil]
        exact hchildren
      | ok text =>
        rw [hresult] at hchildren
        exact ((next (.ok text)).accounts_visits (htext text)).after hchildren.succeeds_of_ok

theorem Node.accounts_visitsFrom (index : Nat) (nodes : List Node) (context : Context)
    (h : ∀ node ∈ nodes, node.PassesFailures) :
    Accounts (Node.visitsFrom index nodes context)
      (Node.renderFrom index nodes context).result := by
  cases nodes with
  | nil =>
    rw [Node.visitsFrom]
    exact .nil _
  | cons node nodes =>
    obtain ⟨hhead, htail⟩ := List.forall_mem_cons.1 h
    have hnode := node.accounts_visits index context hhead
    have hnodes := Node.accounts_visitsFrom (index + 1) nodes context htail
    rw [Node.renderFrom]
    cases hresult : (node.render context).result with
    | error error =>
      rw [hresult] at hnode
      rw [Rendering.append_of_error (Node.result_report_of_error hresult index),
        Node.visitsFrom_cons_of_error hresult]
      exact hnode
    | ok text =>
      rw [hresult] at hnode
      rw [Rendering.append_of_ok (Node.result_report_of_ok hresult index),
        Node.visitsFrom_cons_of_ok hresult]
      exact (hnodes.map _).after hnode.succeeds_of_ok

end

/-! ## The turns of the list itself -/

namespace Node

/-- The turns of the nodes of a list, of those that take place while it is rendered. -/
def turnsFrom (index : Nat) (nodes : List Node) (context : Context) : List Turn :=
  ((visitsFrom index nodes context).filter (·.around.isEmpty)).map Visit.turn

/-- The same for a list that starts at index 0. -/
def turnsAll (nodes : List Node) (context : Context) : List Turn := turnsFrom 0 nodes context

/-- Of the turns that end with that of a node, only its own is not within another. -/
theorem filter_visits (index : Nat) (node : Node) (context : Context) :
    (node.visits index context).filter (·.around.isEmpty) = [⟨⟨index, node, context⟩, []⟩] := by
  have hwithin (turn : Turn) (within : List Visit) :
      (within.map (Visit.below turn)).filter (·.around.isEmpty) = [] := by
    rw [List.filter_eq_nil_iff, List.forall_mem_map]
    intro visit _
    simp [Visit.below]
  rw [node.visits_eq, List.filter_append, hwithin]
  rfl

theorem turnsFrom_cons_of_ok {node : Node} {context : Context} {text : String}
    (h : (node.render context).result = .ok text) (index : Nat) (nodes : List Node) :
    turnsFrom index (node :: nodes) context =
      ⟨index, node, context⟩ :: turnsFrom (index + 1) nodes context := by
  rw [turnsFrom, visitsFrom_cons_of_ok h, List.filter_append, filter_visits]
  rfl

theorem turnsFrom_cons_of_error {node : Node} {context : Context} {error : RenderError}
    (h : (node.render context).result = .error error) (index : Nat) (nodes : List Node) :
    turnsFrom index (node :: nodes) context = [⟨index, node, context⟩] := by
  rw [turnsFrom, visitsFrom_cons_of_error h, filter_visits]
  rfl

/-- If the list gives a text, each of its nodes has its turn, and the bytes that they are reported
with are those of the text. -/
theorem turnsFrom_of_ok {nodes : List Node} {index : Nat} {context : Context} {text : String}
    (h : (renderFrom index nodes context).result = .ok text) :
    turnsFrom index nodes context =
        nodes.mapIdx (fun position node => ⟨index + position, node, context⟩) ∧
      Event.totalBytes ((turnsFrom index nodes context).map Turn.event) = text.utf8ByteSize := by
  induction nodes generalizing index text with
  | nil =>
    cases h
    exact ⟨rfl, rfl⟩
  | cons node nodes ih =>
    rw [renderFrom, Rendering.result_append, Rendering.result_report] at h
    cases hnode : (node.render context).result with
    | error error =>
      rw [hnode] at h
      cases h
    | ok first =>
      rw [hnode] at h
      obtain ⟨rest, hrest, rfl⟩ := map_eq_ok_iff.1 h
      obtain ⟨hturns, hbytes⟩ := ih hrest
      have hevent : (Turn.mk index node context).event = .rendered index first.utf8ByteSize := by
        rw [Turn.event, Turn.outcome, hnode]
      rw [turnsFrom_cons_of_ok hnode]
      constructor
      · simp [hturns, List.mapIdx_cons, Nat.add_assoc, Nat.add_comm 1]
      · rw [List.map_cons, hevent, Event.totalBytes, hbytes, String.utf8ByteSize_append]

/-- If the list fails, the last of its nodes to have its turn is the one that fails, and those after
it make no difference. -/
theorem turnsFrom_of_error {nodes : List Node} {index : Nat} {context : Context}
    {error : RenderError} (h : (renderFrom index nodes context).result = .error error) :
    ∃ earlier node later, nodes = earlier ++ node :: later ∧
      turnsFrom index nodes context =
        (earlier ++ [node]).mapIdx (fun position node => ⟨index + position, node, context⟩) ∧
      ∀ others,
        renderFrom index (earlier ++ node :: others) context = renderFrom index nodes context := by
  induction nodes generalizing index error with
  | nil => cases h
  | cons node nodes ih =>
    cases hnode : (node.render context).result with
    | error cause =>
      have hbreak := result_report_of_error hnode index
      refine ⟨[], node, nodes, rfl, turnsFrom_cons_of_error hnode index nodes, fun others => ?_⟩
      rw [List.nil_append, renderFrom, renderFrom, Rendering.append_of_error hbreak,
        Rendering.append_of_error hbreak]
    | ok text =>
      rw [renderFrom, Rendering.result_append, result_report_of_ok hnode] at h
      obtain ⟨cause, hcause⟩ :
          ∃ cause, (renderFrom (index + 1) nodes context).result = .error cause :=
        match hrest : (renderFrom (index + 1) nodes context).result with
        | .error cause => ⟨cause, rfl⟩
        | .ok rest => by rw [hrest] at h; cases h
      obtain ⟨earlier, failed, later, rfl, hturns, hothers⟩ := ih hcause
      refine ⟨node :: earlier, failed, later, rfl, ?_, fun others => ?_⟩
      · rw [turnsFrom_cons_of_ok hnode, hturns]
        simp [List.mapIdx_cons, Nat.add_assoc, Nat.add_comm 1]
      · rw [List.cons_append, renderFrom, hothers, ← renderFrom]

/-- A list none of whose turns fails gives a text. -/
theorem exists_eq_ok_of_succeed {nodes : List Node} {index : Nat} {context : Context}
    (h : ∀ visit ∈ visitsFrom index nodes context, visit.turn.Succeeds) :
    ∃ text, (renderFrom index nodes context).result = .ok text := by
  induction nodes generalizing index with
  | nil => exact ⟨"", rfl⟩
  | cons node nodes ih =>
    have hown : (⟨⟨index, node, context⟩, []⟩ : Visit) ∈ node.visits index context := by
      rw [node.visits_eq]
      exact List.mem_concat_self
    have hnode : ∃ text, (node.render context).result = .ok text :=
      h ⟨⟨index, node, context⟩, []⟩ (by rw [visitsFrom]; exact List.mem_append_left _ hown)
    obtain ⟨text, hnode⟩ := hnode
    rw [visitsFrom_cons_of_ok hnode, List.forall_mem_append] at h
    obtain ⟨rest, hrest⟩ := ih h.2
    refine ⟨text ++ rest, ?_⟩
    rw [renderFrom, Rendering.result_append, result_report_of_ok hnode, hrest]
    rfl

/-! ## What is reported -/

theorem level_event_of_succeeds {turn : Turn} (h : turn.Succeeds) : turn.event.level = .trace := by
  obtain ⟨text, houtcome⟩ := h
  rw [Turn.event, houtcome]
  rfl

theorem level_of_mem_failures {visit : Visit} {error : RenderError} {event : Event}
    (h : event ∈ visit.failures error) : event.level = .debug := by
  obtain ⟨depth, hdepth, rfl⟩ := List.mem_mapIdx.1 h
  rfl

/-- Every turn that takes place is reported as it ends, directly after those within it: with its
index and the bytes that its node gave, or its index, the reason and whether it is known where.  If a
list gives a text, all of its nodes have their turn and their bytes are those of the text; if it
fails, the nodes after the one that does have none.  If host nodes pass failures on, one turn at most
fails by itself: all before it succeed, and what is reported from there on are the failures of it and
of the turns around it, out to that of a node of the list. -/
theorem events_renderAll (nodes : List Node) (context : Context) :
    (renderAll nodes context).events = (visitsAll nodes context).map (·.turn.event) ∧
    (∀ earlier visit later, visitsAll nodes context = earlier ++ visit :: later →
      visit.within <:+ earlier) ∧
    (∀ text, (renderAll nodes context).result = .ok text →
      turnsAll nodes context = nodes.mapIdx (fun index node => ⟨index, node, context⟩) ∧
      Event.totalBytes ((turnsAll nodes context).map Turn.event) = text.utf8ByteSize) ∧
    (∀ error, (renderAll nodes context).result = .error error →
      ∃ earlier node later, nodes = earlier ++ node :: later ∧
        turnsAll nodes context =
          (earlier ++ [node]).mapIdx (fun index node => ⟨index, node, context⟩) ∧
        ∀ others, renderAll (earlier ++ node :: others) context = renderAll nodes context) ∧
    ((∀ node ∈ nodes, node.PassesFailures) →
      (∀ text, (renderAll nodes context).result = .ok text →
        (∀ visit ∈ visitsAll nodes context, visit.turn.Succeeds) ∧
        ∀ event ∈ (renderAll nodes context).events, event.level = .trace) ∧
      ∀ error, (renderAll nodes context).result = .error error →
        ∃ (before : List Visit) (failed : Visit) (cause : RenderError),
          visitsAll nodes context = before ++ failed.ends ∧
          (∀ visit ∈ before, visit.turn.Succeeds) ∧ failed.turn.FailsByItself cause ∧
          failed.path.getLast? = (turnsAll nodes context).getLast? ∧
          error = cause.orAt failed.origin ∧ error.reason = cause.reason ∧
          (renderAll nodes context).events =
            before.map (·.turn.event) ++ failed.failures cause ∧
          (renderAll nodes context).events.filter (·.level = .debug) = failed.failures cause ∧
          ∀ inner outer, inner ≤ outer →
            failed.isLocatedAt cause inner = true → failed.isLocatedAt cause outer = true) := by
  have hevents : (renderAll nodes context).events = (visitsAll nodes context).map (·.turn.event) :=
    events_renderFrom 0 nodes context
  refine ⟨hevents, inOrder_visitsFrom 0 nodes context, fun text htext => ?_,
    fun error herror => ?_, fun hnodes => ?_⟩
  · have hturns := turnsFrom_of_ok htext
    simp only [Nat.zero_add] at hturns
    exact hturns
  · have hturns := turnsFrom_of_error herror
    simp only [Nat.zero_add] at hturns
    exact hturns
  have haccounts := accounts_visitsFrom 0 nodes context hnodes
  constructor
  · intro text htext
    rw [show (renderFrom 0 nodes context).result = .ok text from htext] at haccounts
    have hsucceed := haccounts.succeeds_of_ok
    refine ⟨hsucceed, ?_⟩
    rw [hevents, List.forall_mem_map]
    exact fun visit hvisit => level_event_of_succeeds (hsucceed visit hvisit)
  · intro error herror
    rw [show (renderFrom 0 nodes context).result = .error error from herror] at haccounts
    cases haccounts with
    | succeed hvisits =>
      obtain ⟨text, htext⟩ := exists_eq_ok_of_succeed hvisits
      cases htext.symm.trans herror
    | breakOff before failed cause hvisits hbefore hfails hpath houtcome =>
      have herror : error = cause.orAt failed.origin := Except.error.inj houtcome
      have hlast : failed.path.getLast? = (turnsAll nodes context).getLast? := by
        rw [turnsAll, turnsFrom, hvisits, List.filter_append, List.map_append,
          Visit.turn_filter_ends, Visit.path, List.getLast?_cons]
        simp
      have hends : (failed.ends.map fun visit => visit.turn.event) = failed.failures cause := by
        rw [← hpath, ← failed.map_turn_ends, List.map_map]
        rfl
      have hsplit : (renderAll nodes context).events =
          before.map (·.turn.event) ++ failed.failures cause := by
        rw [hevents, visitsAll, hvisits, List.map_append, hends]
      have htrace : (before.map (·.turn.event)).filter (·.level = .debug) = [] := by
        rw [List.filter_eq_nil_iff, List.forall_mem_map]
        intro visit hvisit
        simp [level_event_of_succeeds (hbefore visit hvisit)]
      have hdebug : (failed.failures cause).filter (·.level = .debug) = failed.failures cause :=
        List.filter_eq_self.2 fun event hevent => decide_eq_true (level_of_mem_failures hevent)
      refine ⟨before, failed, cause, hvisits, hbefore, hfails, hlast, herror, ?_, hsplit, ?_,
        fun _ _ hle hinner => failed.isLocatedAt_mono cause hle hinner⟩
      · rw [herror]
        rfl
      · rw [hsplit, List.filter_append, htrace, hdebug, List.nil_append]

theorem events_renderAll_second_list :
    let leaf : Node := .leaf (fun context =>
      if context.depth ≤ 1 then .ok "é" else .error ⟨.other "deep", none⟩) none
    let letter (source : String) : Node := .text source .nothing none
    let afterwards (first second : List Node) (origin : Option Origin) : Node :=
      .host (fun context => .call first context fun
        | .error error => .done (.error error)
        | .ok first => .call (if first.utf8ByteSize = 0 then [] else second) context.push fun
          | .error error => .done (.error error)
          | .ok second => .done (.ok (second ++ first))) origin
    let good : List Node := [afterwards [letter "a"] [letter "bc"] none, leaf]
    let bad : List Node := [leaf, .around "" "" (fun context => .ok [context])
      [afterwards [letter "a"] [letter "b", leaf] (some .start)] none, letter "d"]
    ((∀ node ∈ bad, node.PassesFailures) ∧
      (renderAll good .empty).result = .ok "bcaé" ∧
      (renderAll good .empty).events =
        [.rendered 0 1, .rendered 0 2, .rendered 0 3, .rendered 1 2] ∧
      Event.totalBytes ((turnsAll good .empty).map Turn.event) = "bcaé".utf8ByteSize) ∧
    (renderAll bad .empty).events = [.rendered 0 2, .rendered 0 1, .rendered 0 1,
        .failed 1 "deep" false, .failed 0 "deep" false, .failed 1 "deep" true] ∧
      ∃ (before : List Visit) (failed : Visit) (cause : RenderError),
        visitsAll bad .empty = before ++ failed.ends ∧
        failed.turn.FailsByItself cause ∧
        (renderAll bad .empty).events = before.map (·.turn.event) ++ failed.failures cause := by
  intro leaf letter afterwards good bad
  have hletter (source : String) : (letter source).PassesFailures := .text source .nothing none
  have hleaf : leaf.PassesFailures := passesFailures_leaf _ none
  have hinner : (afterwards [letter "a"] [letter "b", leaf] (some .start)).PassesFailures := by
    refine .host _ fun context => .call context ?_ (fun _ => rfl) fun first => ?_
    · exact List.forall_mem_singleton.2 (hletter "a")
    refine .call context.push ?_ (fun _ => rfl) fun second => .done _
    split
    · exact List.forall_mem_nil _
    · exact List.forall_mem_cons.2 ⟨hletter "b", List.forall_mem_singleton.2 hleaf⟩
  have hbad : ∀ node ∈ bad, node.PassesFailures := by
    refine List.forall_mem_cons.2 ⟨hleaf, List.forall_mem_cons.2 ⟨?_, ?_⟩⟩
    · exact passesFailures_around (List.forall_mem_singleton.2 hinner) _ _ _ _
    · exact List.forall_mem_singleton.2 (hletter "d")
  obtain ⟨-, -, hgood, -, -⟩ := events_renderAll good .empty
  obtain ⟨-, -, -, -, hfails⟩ := events_renderAll bad .empty
  obtain ⟨-, hbytes⟩ := hgood "bcaé" rfl
  obtain ⟨before, failed, cause, hvisits, -, hcause, -, -, -, hevents, -⟩ :=
    (hfails hbad).2 ⟨.other "deep", some .start⟩ rfl
  exact ⟨⟨hbad, rfl, rfl, hbytes⟩, rfl, before, failed, cause, hvisits, hcause, hevents⟩

end Node

end Interpolation
