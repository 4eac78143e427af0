import Mathlib.Data.List.Infix
import Overlay.Proofs.Folding

/-!
# Load order as a traversal

`PostOrder` lists the tree below a node recursively: what lies below each base, base after
base, and then the node itself.  Where no module has two overriders, every module that a
sweep takes releases all its bases at once.  The stack of the sweep therefore stands for
a row of subtrees that are still to be listed, and the finished sweep has listed the trees
of the outermost modules one after the other.
-/

namespace Overlay

open Relation

/-- The list is the post-order traversal of the tree below the node: the traversals of its
bases in their order, then the node. -/
inductive PostOrder {ι : Type} (bases : ι → List ι) : ι → List ι → Prop where
  | node {top : ι} {below : List (List ι)}
      (each : List.Forall₂ (PostOrder bases) (bases top) below) :
      PostOrder bases top (below.flatten ++ [top])

/-- Where one member of a list is related to, on the other list. -/
theorem exists_right_of_forall₂ {α β : Type} {related : α → β → Prop} {lefts : List α}
    {rights : List β} (each : List.Forall₂ related lefts rights) {left : α}
    (member : left ∈ lefts) : ∃ right ∈ rights, related left right := by
  induction each with
  | nil => exact (List.not_mem_nil member).elim
  | cons head _ ih =>
      rcases List.mem_cons.mp member with same | later
      · subst same
        exact ⟨_, List.mem_cons_self, head⟩
      · rcases ih later with ⟨right, rightMember, related⟩
        exact ⟨right, List.mem_cons_of_mem _ rightMember, related⟩

theorem exists_left_of_forall₂ {α β : Type} {related : α → β → Prop} {lefts : List α}
    {rights : List β} (each : List.Forall₂ related lefts rights) {right : β}
    (member : right ∈ rights) : ∃ left ∈ lefts, related left right :=
  exists_right_of_forall₂ each.flip member

theorem split_of_forall₂_append {α β : Type} {related : α → β → Prop} {first second : List α}
    {rights : List β} (each : List.Forall₂ related (first ++ second) rights) :
    ∃ left right, rights = left ++ right ∧ List.Forall₂ related first left ∧
      List.Forall₂ related second right := by
  refine ⟨rights.take first.length, rights.drop first.length,
    (List.take_append_drop _ _).symm, ?_, ?_⟩
  · exact (List.forall₂_take_append _ _ _ each.flip).flip
  · exact (List.forall₂_drop_append _ _ _ each.flip).flip

theorem infix_flatten {α : Type} {piece : List α} {pieces : List (List α)}
    (member : piece ∈ pieces) : piece <:+: pieces.flatten := by
  have alone := ((List.singleton_infix_iff piece pieces).mpr member).flatten
  rwa [List.flatten_singleton] at alone

namespace PostOrder

variable {ι : Type} {bases : ι → List ι} {top : ι} {block : List ι}

/-- Induction over a traversed tree, with the hypothesis for every base. -/
@[elab_as_elim]
theorem induct {motive : ι → List ι → Prop}
    (node : ∀ top below, List.Forall₂ (PostOrder bases) (bases top) below →
      List.Forall₂ motive (bases top) below → motive top (below.flatten ++ [top]))
    (traversed : PostOrder bases top block) : motive top block := by
  refine @PostOrder.rec ι bases (fun top block _ => motive top block)
    (fun tops below _ => List.Forall₂ motive tops below) ?_ ?_ ?_ top block traversed
  · intro top below each hypotheses
    exact node top below each hypotheses
  · exact .nil
  · intro _ _ _ _ _ _ head tail
    exact .cons head tail

/-- A tree has one traversal only. -/
theorem unique {other : List ι} (first : PostOrder bases top block)
    (second : PostOrder bases top other) : block = other := by
  refine induct (motive := fun top block => ∀ other, PostOrder bases top other →
    block = other) ?_ first other second
  intro top below _ hypotheses other second
  cases second with
  | node each => rw [eq_of_forall₂_unique hypotheses each]

theorem unique_blocks {tops : List ι} {blocks others : List (List ι)}
    (first : List.Forall₂ (PostOrder bases) tops blocks)
    (second : List.Forall₂ (PostOrder bases) tops others) : blocks = others := by
  refine eq_of_forall₂_unique (first.imp ?_) second
  intro top block traversed other alsoTraversed
  exact traversed.unique alsoTraversed

/-- A traversal visits exactly what the node reaches over bases. -/
theorem mem_iff (traversed : PostOrder bases top block) (other : ι) :
    other ∈ block ↔ ReflTransGen (fun source target => target ∈ bases source) top other := by
  refine traversed.induct (motive := fun top block => ∀ other, other ∈ block ↔
    ReflTransGen (fun source target => target ∈ bases source) top other) ?_ other
  intro top below _ hypotheses other
  rw [List.mem_append, List.mem_flatten, List.mem_singleton, ReflTransGen.cases_head_iff]
  constructor
  · intro visited
    rcases visited with ⟨block, member, visited⟩ | same
    · rcases exists_left_of_forall₂ hypotheses member with ⟨base, baseMember, reaches⟩
      exact .inr ⟨base, baseMember, (reaches other).mp visited⟩
    · exact .inl same.symm
  · intro reached
    rcases reached with same | ⟨base, baseMember, path⟩
    · exact .inr same.symm
    · rcases exists_right_of_forall₂ hypotheses baseMember with ⟨block, member, reaches⟩
      exact .inl ⟨block, member, (reaches other).mpr path⟩

/-- Whatever a traversal visits is traversed in one piece. -/
theorem exists_infix (traversed : PostOrder bases top block) {inner : ι}
    (visited : inner ∈ block) : ∃ piece, PostOrder bases inner piece ∧ piece <:+: block := by
  refine traversed.induct (motive := fun top block => ∀ inner ∈ block,
    ∃ piece, PostOrder bases inner piece ∧ piece <:+: block) ?_ inner visited
  intro top below each hypotheses inner visited
  rcases List.mem_append.mp visited with deeper | same
  · rcases List.mem_flatten.mp deeper with ⟨block, member, visited⟩
    rcases exists_left_of_forall₂ hypotheses member with ⟨base, _, pieces⟩
    rcases pieces inner visited with ⟨piece, traversed, within⟩
    exact ⟨piece, traversed,
      (within.trans (infix_flatten member)).trans (List.prefix_append _ _).isInfix⟩
  · rw [List.mem_singleton.mp same]
    exact ⟨_, .node each, List.infix_rfl⟩

end PostOrder

/-! ## Forests -/

/-- Whatever holds between two elements of a list carries over to a list related to it. -/
theorem pairwise_of_forall₂ {α β : Type} {related : α → β → Prop} {before : α → α → Prop}
    {after : β → β → Prop}
    (carry : ∀ {first second left right}, before first second → related first left →
      related second right → after left right)
    {lefts : List α} {rights : List β} (each : List.Forall₂ related lefts rights)
    (pairwise : lefts.Pairwise before) : rights.Pairwise after := by
  induction each with
  | nil => exact .nil
  | cons head tail ih =>
      rw [List.pairwise_cons] at pairwise
      refine .cons ?_ (ih pairwise.2)
      intro right member
      rcases exists_left_of_forall₂ tail member with ⟨left, leftMember, related⟩
      exact carry (pairwise.1 left leftMember) head related

/-- Neither of two nodes lies below the other. -/
def Apart {ι : Type} (bases : ι → List ι) (left right : ι) : Prop :=
  ¬ ReflTransGen (fun source target => target ∈ bases source) left right ∧
    ¬ ReflTransGen (fun source target => target ∈ bases source) right left

/-- Bases that make up trees: no node is the base of two others or of one twice, and bases
rank below the node that they are bases of. -/
structure IsForest {ι : Type} (bases : ι → List ι) (rank : ι → Nat) : Prop where
  single : ∀ {first second base}, base ∈ bases first → base ∈ bases second → first = second
  distinct : ∀ top, (bases top).Nodup
  falls : ∀ {top base}, base ∈ bases top → rank base < rank top

namespace IsForest

variable {ι : Type} {bases : ι → List ι} {rank : ι → Nat} (forest : IsForest bases rank)
include forest

theorem rank_le {top inner : ι}
    (path : ReflTransGen (fun source target => target ∈ bases source) top inner) :
    rank inner ≤ rank top := by
  induction path with
  | refl => exact Nat.le_refl _
  | tail _ edge ih => exact Nat.le_trans (Nat.le_of_lt (forest.falls edge)) ih

/-- The bases of a node lie apart. -/
theorem apart_bases (top : ι) : (bases top).Pairwise (Apart bases) := by
  have notBelow : ∀ left ∈ bases top, ∀ right ∈ bases top, left ≠ right →
      ¬ ReflTransGen (fun source target => target ∈ bases source) left right := by
    intro left leftBase right rightBase different path
    rcases path.cases_tail with same | ⟨parent, above, edge⟩
    · exact different same.symm
    · rw [forest.single edge rightBase] at above
      exact Nat.not_lt.mpr (forest.rank_le above) (forest.falls leftBase)
  refine (forest.distinct top).imp_of_mem ?_
  intro left right leftBase rightBase different
  exact ⟨notBelow left leftBase right rightBase different,
    notBelow right rightBase left leftBase (Ne.symm different)⟩

/-- The trees below nodes that lie apart have no node in common. -/
theorem disjoint {left right : ι} {leftBlock rightBlock : List ι} (apart : Apart bases left right)
    (first : PostOrder bases left leftBlock) (second : PostOrder bases right rightBlock) :
    leftBlock.Disjoint rightBlock := by
  intro inner inLeft inRight
  -- Upwards from a node there is one way only, so one of the tops lies on the way to the other.
  have upwards : Relator.RightUnique fun target source => target ∈ bases source :=
    fun _ _ _ => forest.single
  have fromLeft := ((first.mem_iff inner).mp inLeft).swap
  have fromRight := ((second.mem_iff inner).mp inRight).swap
  rcases ReflTransGen.total_of_right_unique upwards fromLeft fromRight with path | path
  · exact apart.2 path.swap
  · exact apart.1 path.swap

theorem nodup_of_apart {tops : List ι} {blocks : List (List ι)}
    (apart : tops.Pairwise (Apart bases)) (each : List.Forall₂ (PostOrder bases) tops blocks)
    (nodup : ∀ block ∈ blocks, block.Nodup) : blocks.flatten.Nodup := by
  refine List.nodup_flatten.mpr ⟨nodup, pairwise_of_forall₂ ?_ each apart⟩
  exact fun apart first second => forest.disjoint apart first second

/-- A traversal visits no node twice. -/
theorem nodup {top : ι} {block : List ι} (traversed : PostOrder bases top block) :
    block.Nodup := by
  refine traversed.induct (motive := fun _ block => block.Nodup) ?_
  intro top below each hypotheses
  rw [List.nodup_append]
  refine ⟨forest.nodup_of_apart (forest.apart_bases top) each ?_, List.nodup_singleton top, ?_⟩
  · intro block member
    rcases exists_left_of_forall₂ hypotheses member with ⟨_, _, nodup⟩
    exact nodup
  · intro inner visited other isTop same
    rcases List.mem_flatten.mp visited with ⟨block, member, visited⟩
    rcases exists_left_of_forall₂ each member with ⟨base, edge, traversed⟩
    have within := forest.rank_le ((traversed.mem_iff inner).mp visited)
    rw [same, List.mem_singleton.mp isTop] at within
    exact Nat.not_lt.mpr within (forest.falls edge)

/-- The traversals of the trees below different roots visit no node twice. -/
theorem nodup_flatten {roots : List ι} {blocks : List (List ι)} (distinct : roots.Nodup)
    (topmost : ∀ root ∈ roots, ∀ node, root ∉ bases node)
    (each : List.Forall₂ (PostOrder bases) roots blocks) : blocks.flatten.Nodup := by
  have notBelow : ∀ left, ∀ right ∈ roots, left ≠ right →
      ¬ ReflTransGen (fun source target => target ∈ bases source) left right := by
    intro left right member different path
    rcases path.cases_tail with same | ⟨parent, _, edge⟩
    · exact different same.symm
    · exact topmost right member parent edge
  have apart : roots.Pairwise (Apart bases) := by
    refine distinct.imp_of_mem ?_
    intro left right leftRoot rightRoot different
    exact ⟨notBelow left right rightRoot different,
      notBelow right left leftRoot (Ne.symm different)⟩
  refine forest.nodup_of_apart apart each ?_
  intro block member
  rcases exists_left_of_forall₂ each member with ⟨_, _, traversed⟩
  exact forest.nodup traversed

end IsForest

/-! ## The sweep -/

namespace OverrideGraph

variable {graph : OverrideGraph}

/-- Where no module has two overriders, taking a module releases all its bases. -/
theorem SweepInvariant.waiting_after (consistent : graph.Consistent)
    (single : graph.SinglyOverridden) {index : Nat} {rest counts taken : List Nat}
    (held : graph.SweepInvariant ⟨index :: rest, counts, taken⟩) :
    (graph.take index ⟨rest, counts, taken⟩).waiting =
      (graph.successors index).reverse ++ rest := by
  rw [waiting_take consistent]
  congr 2
  apply List.filter_eq_self.mpr
  intro target edge
  have distinct : (graph.outstanding taken target).Nodup :=
    (consistent.incoming_nodup target).filter _
  have alone : (graph.outstanding taken target).Perm [index] := by
    rw [List.perm_ext_iff_of_nodup distinct (List.nodup_singleton index)]
    intro source
    rw [List.mem_singleton]
    constructor
    · intro waited
      have other := consistent.mem_incoming.mp (List.mem_filter.mp waited).1
      exact single source index target other edge
    · intro same
      subst same
      exact (mem_outstanding consistent held.top_fresh).mpr edge
  exact decide_eq_true ((held.count_eq_one_iff consistent edge).mpr (List.perm_singleton.mp alone))

/-- A sweep puts the traversals of the subtrees on its stack in front of what it has
taken, the subtree at the bottom of the stack foremost. -/
theorem runSweep_postOrder (consistent : graph.Consistent) (single : graph.SinglyOverridden)
    (sweep : Sweep) (held : graph.SweepInvariant sweep) :
    ∃ blocks, List.Forall₂ (PostOrder graph.successors) sweep.waiting.reverse blocks ∧
      (graph.runSweep sweep).taken = blocks.flatten ++ sweep.taken := by
  induction sweep using runSweep.induct graph with
  | case1 counts taken =>
      rw [runSweep]
      exact ⟨[], .nil, rfl⟩
  | case2 index rest counts taken ih =>
      rw [runSweep]
      rcases ih (held.take consistent) with ⟨blocks, each, order⟩
      rw [held.waiting_after consistent single, List.reverse_append, List.reverse_reverse] at each
      rcases split_of_forall₂_append each with ⟨above, below, rfl, restEach, basesEach⟩
      -- The bases of the module taken lie on top, so their subtrees are listed last.
      refine ⟨above ++ [below.flatten ++ [index]], ?_, ?_⟩
      · rw [List.reverse_cons]
        exact List.rel_append restEach (.cons (.node basesEach) .nil)
      · rw [order, taken_take]
        simp only [List.flatten_append, List.flatten_singleton, List.append_assoc,
          List.singleton_append]

/-- Where no module has two overriders, the finished sweep has traversed the trees of the
outermost modules, one after the other. -/
theorem taken_eq_flatten (consistent : graph.Consistent) (single : graph.SinglyOverridden) :
    ∃ blocks, List.Forall₂ (PostOrder graph.successors) graph.outermost blocks ∧
      graph.finishedSweep.taken = blocks.flatten := by
  rcases runSweep_postOrder consistent single _ (initialSweep_invariant graph) with
    ⟨blocks, each, order⟩
  rw [waiting_initialSweep, List.reverse_reverse] at each
  exact ⟨blocks, each, order.trans (List.append_nil _)⟩

end OverrideGraph

end Overlay
