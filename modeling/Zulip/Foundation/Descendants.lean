import Mathlib.Data.Finset.Card
import Mathlib.Data.Finset.Image
import Mathlib.Logic.Relation

/-!
# Descendants in a finite directed graph

`descendants` computes what a recursive query with duplicate elimination returns: the start and, as
long as there are new ones, the successors of the elements that were found last. A set that no edge
leaves separates the graph: an element outside of it can get edges into it without closing a cycle.
-/

namespace Zulip

variable {Node : Type} [DecidableEq Node]

/-- An edge leads from the first element to the second one. -/
def Edge (edges : Finset (Node × Node)) (first second : Node) : Prop := (first, second) ∈ edges

/-- No element is reached from itself by one or more edges. -/
def Acyclic (edges : Finset (Node × Node)) : Prop :=
  ∀ node, ¬ Relation.TransGen (Edge edges) node node

/-- No edge leaves the set. -/
def ClosedUnder (edges : Finset (Node × Node)) (set : Finset Node) : Prop :=
  ∀ edge ∈ edges, edge.1 ∈ set → edge.2 ∈ set

/-- The other ends of the edges that start in a set. -/
def successors (edges : Finset (Node × Node)) (set : Finset Node) : Finset Node :=
  (edges.filter fun edge => edge.1 ∈ set).image Prod.snd

@[simp] theorem mem_successors {edges : Finset (Node × Node)} {set : Finset Node} {node : Node} :
    node ∈ successors edges set ↔ ∃ first ∈ set, (first, node) ∈ edges := by
  simp only [successors, Finset.mem_image, Finset.mem_filter, Prod.exists, exists_eq_right]
  exact ⟨fun ⟨first, isEdge, member⟩ => ⟨first, member, isEdge⟩,
    fun ⟨first, member, isEdge⟩ => ⟨first, isEdge, member⟩⟩

/-- The rounds of a recursive query: `working` was found in the round before, `seen` so far. -/
def recursiveQuery (edges : Finset (Node × Node)) :
    ℕ → Finset Node → Finset Node → Finset Node
  | 0, _, seen => seen
  | fuel + 1, working, seen =>
      let new := successors edges working \ seen
      if new = ∅ then seen else recursiveQuery edges fuel new (seen ∪ new)

/-- The elements that can be reached from a start. -/
def descendants (edges : Finset (Node × Node)) (start : Finset Node) : Finset Node :=
  recursiveQuery edges (edges.card + 1) start start

section Query

variable {edges : Finset (Node × Node)}

theorem subset_recursiveQuery (fuel : ℕ) (working seen : Finset Node) :
    seen ⊆ recursiveQuery edges fuel working seen := by
  induction fuel generalizing working seen with
  | zero => exact Finset.Subset.refl _
  | succ fuel inductionHypothesis =>
      rw [recursiveQuery]
      split_ifs
      · exact Finset.Subset.refl _
      · exact Finset.subset_union_left.trans (inductionHypothesis _ _)

theorem recursiveQuery_reachable {start : Finset Node} (fuel : ℕ) {working seen : Finset Node}
    (workingSeen : working ⊆ seen)
    (reachable : ∀ node ∈ seen, ∃ first ∈ start, Relation.ReflTransGen (Edge edges) first node) :
    ∀ node ∈ recursiveQuery edges fuel working seen,
      ∃ first ∈ start, Relation.ReflTransGen (Edge edges) first node := by
  induction fuel generalizing working seen with
  | zero => exact reachable
  | succ fuel inductionHypothesis =>
      rw [recursiveQuery]
      split_ifs
      · exact reachable
      · refine inductionHypothesis Finset.subset_union_right ?_
        intro node member
        rcases Finset.mem_union.mp member with old | new
        · exact reachable node old
        · obtain ⟨last, isLast, isEdge⟩ := mem_successors.mp (Finset.mem_sdiff.mp new).1
          obtain ⟨first, isFirst, path⟩ := reachable last (workingSeen isLast)
          exact ⟨first, isFirst, path.tail isEdge⟩

/-- With a round for every end of an edge that has not been found, no edge leaves the result. -/
theorem recursiveQuery_closed (fuel : ℕ) {working seen : Finset Node}
    (settled : ∀ edge ∈ edges, edge.1 ∈ seen → edge.1 ∈ working ∨ edge.2 ∈ seen)
    (enough : (edges.image Prod.snd \ seen).card ≤ fuel) :
    ClosedUnder edges (recursiveQuery edges fuel working seen) := by
  induction fuel generalizing working seen with
  | zero =>
      intro edge isEdge _
      have noneLeft := Finset.card_eq_zero.mp (Nat.le_zero.mp enough)
      have target : edge.2 ∈ edges.image Prod.snd := Finset.mem_image_of_mem _ isEdge
      by_contra missing
      have left : edge.2 ∈ edges.image Prod.snd \ seen := Finset.mem_sdiff.mpr ⟨target, missing⟩
      rw [noneLeft] at left
      cases left
  | succ fuel inductionHypothesis =>
      rw [recursiveQuery]
      split_ifs with noneNew
      · intro edge isEdge first
        rcases settled edge isEdge first with isWorking | isSeen
        · by_contra missing
          have new : edge.2 ∈ successors edges working \ seen :=
            Finset.mem_sdiff.mpr ⟨mem_successors.mpr ⟨edge.1, isWorking, isEdge⟩, missing⟩
          rw [noneNew] at new
          cases new
        · exact isSeen
      · refine inductionHypothesis ?_ ?_
        · intro edge isEdge first
          rcases Finset.mem_union.mp first with old | new
          · refine .inr (Finset.mem_union.mpr ?_)
            rcases settled edge isEdge old with isWorking | isSeen
            · by_cases already : edge.2 ∈ seen
              · exact .inl already
              · exact .inr (Finset.mem_sdiff.mpr
                  ⟨mem_successors.mpr ⟨edge.1, isWorking, isEdge⟩, already⟩)
            · exact .inl isSeen
          · exact .inl new
        · obtain ⟨node, isNew⟩ := Finset.nonempty_iff_ne_empty.mpr noneNew
          obtain ⟨isSuccessor, notSeen⟩ := Finset.mem_sdiff.mp isNew
          obtain ⟨first, -, isEdge⟩ := mem_successors.mp isSuccessor
          have target : node ∈ edges.image Prod.snd :=
            Finset.mem_image.mpr ⟨(first, node), isEdge, rfl⟩
          have fewer : (edges.image Prod.snd \ (seen ∪ (successors edges working \ seen))).card <
              (edges.image Prod.snd \ seen).card := by
            refine Finset.card_lt_card ⟨Finset.sdiff_subset_sdiff (Finset.Subset.refl _)
              Finset.subset_union_left, fun all => ?_⟩
            have still := all (Finset.mem_sdiff.mpr ⟨target, notSeen⟩)
            exact (Finset.mem_sdiff.mp still).2 (Finset.mem_union_right _ isNew)
          omega

theorem subset_descendants (start : Finset Node) : start ⊆ descendants edges start :=
  subset_recursiveQuery _ _ _

theorem descendants_closed (start : Finset Node) :
    ClosedUnder edges (descendants edges start) := by
  refine recursiveQuery_closed _ (fun _ _ first => .inl first) ?_
  calc
    _ ≤ (edges.image Prod.snd).card := Finset.card_le_card Finset.sdiff_subset
    _ ≤ edges.card := Finset.card_image_le
    _ ≤ edges.card + 1 := Nat.le_succ _

end Query

omit [DecidableEq Node] in
/-- A path that starts in a set that no edge leaves ends in it. -/
theorem ClosedUnder.of_path {edges : Finset (Node × Node)} {set : Finset Node}
    (closed : ClosedUnder edges set) {first last : Node}
    (path : Relation.ReflTransGen (Edge edges) first last) (member : first ∈ set) :
    last ∈ set := by
  induction path with
  | refl => exact member
  | tail _ isEdge inductionHypothesis => exact closed _ isEdge inductionHypothesis

/-- The descendants are what can be reached by zero or more edges. -/
theorem mem_descendants_iff {edges : Finset (Node × Node)} {start : Finset Node} {node : Node} :
    node ∈ descendants edges start ↔
      ∃ first ∈ start, Relation.ReflTransGen (Edge edges) first node := by
  constructor
  · exact recursiveQuery_reachable _ (Finset.Subset.refl _)
      (fun node member => ⟨node, member, .refl⟩) node
  · rintro ⟨first, isFirst, path⟩
    exact (descendants_closed start).of_path path (subset_descendants start isFirst)

/-! ## Changes of a graph -/

omit [DecidableEq Node] in
theorem Acyclic.mono {edges fewer : Finset (Node × Node)} (acyclic : Acyclic edges)
    (subset : fewer ⊆ edges) : Acyclic fewer :=
  fun node cycle => acyclic node (cycle.lift id fun _ _ isEdge => subset isEdge)

/-- Edges from an element into a set that no edge leaves and that does not have the element close no
cycle. -/
theorem Acyclic.union_of_closed {edges new : Finset (Node × Node)} {set : Finset Node} {node : Node}
    (acyclic : Acyclic edges) (closed : ClosedUnder edges set) (outside : node ∉ set)
    (into : ∀ edge ∈ new, edge.1 = node ∧ edge.2 ∈ set) : Acyclic (edges ∪ new) := by
  have stillClosed : ClosedUnder (edges ∪ new) set := by
    intro edge isEdge first
    rcases Finset.mem_union.mp isEdge with old | isNew
    · exact closed edge old first
    · exact absurd ((into edge isNew).1 ▸ first) outside
  -- A path either uses old edges only or enters the set, and then it stays there.
  have oldOrInside : ∀ {first last : Node}, Relation.TransGen (Edge (edges ∪ new)) first last →
      Relation.TransGen (Edge edges) first last ∨ last ∈ set := by
    intro first last path
    induction path with
    | single isEdge =>
        rcases Finset.mem_union.mp isEdge with old | isNew
        · exact .inl (.single old)
        · exact .inr (into _ isNew).2
    | tail _ isEdge inductionHypothesis =>
        rcases inductionHypothesis with old | inside
        · rcases Finset.mem_union.mp isEdge with oldEdge | isNew
          · exact .inl (old.tail oldEdge)
          · exact .inr (into _ isNew).2
        · exact .inr (stillClosed _ isEdge inside)
  intro start cycle
  rcases oldOrInside cycle with old | inside
  · exact acyclic start old
  · -- From inside, a path never uses a new edge.
    have allOld : ∀ {last : Node}, Relation.TransGen (Edge (edges ∪ new)) start last →
        Relation.TransGen (Edge edges) start last := by
      intro last path
      induction path with
      | single isEdge =>
          rcases Finset.mem_union.mp isEdge with old | isNew
          · exact .single old
          · exact absurd ((into _ isNew).1 ▸ inside) outside
      | @tail middle last before isEdge inductionHypothesis =>
          rcases Finset.mem_union.mp isEdge with old | isNew
          · exact inductionHypothesis.tail old
          · have middleInside := stillClosed.of_path before.to_reflTransGen inside
            exact absurd ((into _ isNew).1 ▸ middleInside) outside
    exact acyclic start (allOld cycle)

end Zulip
