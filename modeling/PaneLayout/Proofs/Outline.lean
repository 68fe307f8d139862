import Mathlib.Logic.Relation
import PaneLayout.Layout.Basic

set_option autoImplicit false

/-!
# Outlines

The tree of splits of a layout, without its weights and panes, and two normal forms of it. In the
binary one every split is a chain of splits of two. In the spliced one no split is the last child of
a split along the same axis; it is what splicing such children into their parents ends in, in
whatever order that is done.
-/

namespace PaneLayout

inductive Outline where
  | pane
  | split (axis : Axis) (children : List Outline)

namespace Layout

variable {α : Type}

mutual

def outline : Layout α → Outline
  | pane _ => .pane
  | split axis cs _ => .split axis (outlineOf cs)

def outlineOf : List (Layout α) → List Outline
  | [] => []
  | c :: cs => outline c :: outlineOf cs

end

theorem outlineOf_eq_map (cs : List (Layout α)) : outlineOf cs = cs.map outline := by
  induction cs with
  | nil => rfl
  | cons c cs ih => simp [outlineOf, ih]

end Layout

namespace Outline

mutual

/-- Every split has a child. -/
def Branching : Outline → Prop
  | pane => True
  | split _ os => os ≠ [] ∧ BranchingOf os

def BranchingOf : List Outline → Prop
  | [] => True
  | o :: os => Branching o ∧ BranchingOf os

end

theorem branchingOf_append {os os' : List Outline} :
    BranchingOf (os ++ os') ↔ BranchingOf os ∧ BranchingOf os' := by
  induction os with
  | nil => simp [BranchingOf]
  | cons o os ih => simp [BranchingOf, ih, and_assoc]

/-! ## Chains of splits of two -/

/-- Each child against all that follow. -/
def chain (axis : Axis) : List Outline → Outline
  | [] => split axis []
  | [o] => o
  | o :: o' :: os => split axis [o, chain axis (o' :: os)]

mutual

def binary : Outline → Outline
  | pane => pane
  | split axis os => chain axis (binaryOf os)

def binaryOf : List Outline → List Outline
  | [] => []
  | o :: os => binary o :: binaryOf os

end

theorem binaryOf_eq_map (os : List Outline) : binaryOf os = os.map binary := by
  induction os with
  | nil => rfl
  | cons o os ih => simp [binaryOf, ih]

mutual

def IsBinary : Outline → Prop
  | pane => True
  | split _ os => os.length = 2 ∧ IsBinaryOf os

def IsBinaryOf : List Outline → Prop
  | [] => True
  | o :: os => IsBinary o ∧ IsBinaryOf os

end

mutual

theorem binary_of_isBinary : ∀ {o : Outline}, o.IsBinary → o.binary = o
  | pane, _ => rfl
  | split axis os, h => by
    rw [binary, binaryOf_of_isBinaryOf h.2]
    match os, h.1 with
    | [a, b], _ => rfl

theorem binaryOf_of_isBinaryOf : ∀ {os : List Outline}, IsBinaryOf os → binaryOf os = os
  | [], _ => rfl
  | o :: os, h => by rw [binaryOf, binary_of_isBinary h.1, binaryOf_of_isBinaryOf h.2]

end

/-! ## Splicing -/

/-- One split that is the last child of a split along its axis gives way to its children. -/
inductive Splices : Outline → Outline → Prop
  | here (axis : Axis) (os inner : List Outline) :
    Splices (split axis (os ++ [split axis inner])) (split axis (os ++ inner))
  | within (axis : Axis) (before after : List Outline) {o o' : Outline} : Splices o o' →
    Splices (split axis (before ++ o :: after)) (split axis (before ++ o' :: after))

/-- There is nothing left to splice. -/
def Spliced (o : Outline) : Prop := ∀ o', ¬ o.Splices o'

/-- The children of a last child along the axis take its place. -/
def absorb (axis : Axis) : List Outline → List Outline
  | [] => []
  | [pane] => [pane]
  | [split axis' os] => if axis = axis' then os else [split axis' os]
  | o :: o' :: os => o :: absorb axis (o' :: os)

mutual

def splice : Outline → Outline
  | pane => pane
  | split axis os => split axis (absorb axis (spliceOf os))

def spliceOf : List Outline → List Outline
  | [] => []
  | o :: os => splice o :: spliceOf os

end

theorem spliceOf_eq_map (os : List Outline) : spliceOf os = os.map splice := by
  induction os with
  | nil => rfl
  | cons o os ih => simp [spliceOf, ih]

theorem absorb_append (axis : Axis) (os : List Outline) {os' : List Outline} (h : os' ≠ []) :
    absorb axis (os ++ os') = os ++ absorb axis os' := by
  induction os with
  | nil => rfl
  | cons o os ih =>
    obtain ⟨p, ps, hp⟩ := List.exists_cons_of_ne_nil (List.append_ne_nil_of_right_ne_nil os h)
    rw [List.cons_append, List.cons_append, ← ih, hp]
    cases o <;> rfl

theorem absorb_same (axis : Axis) (os inner : List Outline) :
    absorb axis (os ++ [split axis inner]) = os ++ inner := by
  rw [absorb_append axis os (by simp), absorb, if_pos rfl]

/-- Either the last child is along the axis and is taken in, or nothing happens. -/
theorem absorb_cases (axis : Axis) (os : List Outline) :
    (∃ before inner, os = before ++ [split axis inner] ∧ absorb axis os = before ++ inner) ∨
      (absorb axis os = os ∧ ∀ before inner, os ≠ before ++ [split axis inner]) := by
  rcases List.eq_nil_or_concat os with rfl | ⟨before, last, rfl⟩
  · exact .inr ⟨rfl, by simp⟩
  · rw [List.concat_eq_append, absorb_append axis before (by simp)]
    cases last with
    | pane => exact .inr ⟨rfl, by simp⟩
    | split axis' inner =>
      by_cases same : axis = axis'
      · subst same
        exact .inl ⟨before, inner, rfl, by rw [absorb, if_pos rfl]⟩
      · refine .inr ⟨by rw [absorb, if_neg same], fun before' inner' eq => ?_⟩
        have last := (List.append_inj' eq rfl).2
        exact same (split.inj (List.cons.inj last).1).1.symm

/-! ### Every way of splicing ends in the same outline -/

theorem splices_absorb (axis : Axis) (os : List Outline) :
    Relation.ReflTransGen Splices (split axis os) (split axis (absorb axis os)) := by
  rcases absorb_cases axis os with ⟨before, inner, rfl, eq⟩ | ⟨eq, -⟩
  · rw [eq]
    exact .single (.here axis before inner)
  · rw [eq]

theorem splices_within (axis : Axis) (before after : List Outline) {o o' : Outline}
    (h : Relation.ReflTransGen Splices o o') :
    Relation.ReflTransGen Splices (split axis (before ++ o :: after))
      (split axis (before ++ o' :: after)) := by
  induction h with
  | refl => exact .refl
  | tail _ step ih => exact ih.tail (.within axis before after step)

mutual

theorem splices_splice : ∀ o : Outline, Relation.ReflTransGen Splices o o.splice
  | pane => .refl
  | split axis os => (splices_spliceOf axis [] os).trans (splices_absorb axis (spliceOf os))

theorem splices_spliceOf (axis : Axis) : ∀ before os : List Outline,
    Relation.ReflTransGen Splices (split axis (before ++ os)) (split axis (before ++ spliceOf os))
  | _, [] => .refl
  | before, o :: os => by
    have first := splices_within axis before os (splices_splice o)
    have rest := splices_spliceOf axis (before ++ [o.splice]) os
    rw [List.append_assoc, List.append_assoc] at rest
    exact first.trans rest

end

theorem Splices.branching {o o' : Outline} (h : o.Splices o') : o.Branching → o'.Branching := by
  induction h with
  | here axis os inner =>
    rintro ⟨-, all⟩
    obtain ⟨outer, ⟨⟨some, inner⟩, -⟩⟩ := branchingOf_append.1 all
    exact ⟨List.append_ne_nil_of_right_ne_nil os some, branchingOf_append.2 ⟨outer, inner⟩⟩
  | within axis before after _ ih =>
    rintro ⟨-, all⟩
    obtain ⟨front, own, back⟩ := branchingOf_append.1 all
    exact ⟨by simp, branchingOf_append.2 ⟨front, ih own, back⟩⟩

theorem Splices.splice_eq {o o' : Outline} (h : o.Splices o') :
    o.Branching → o.splice = o'.splice := by
  induction h with
  | here axis os inner =>
    rintro ⟨-, all⟩
    obtain ⟨-, ⟨some, -⟩, -⟩ := branchingOf_append.1 all
    have left : spliceOf inner ≠ [] := by rwa [spliceOf_eq_map, Ne, List.map_eq_nil_iff]
    have both : spliceOf (os ++ [split axis inner]) =
        spliceOf os ++ [split axis (absorb axis (spliceOf inner))] := by
      simp [spliceOf_eq_map, splice]
    rw [splice, splice, both, absorb_same, ← absorb_append axis _ left]
    simp [spliceOf_eq_map]
  | within axis before after _ ih =>
    rintro ⟨-, all⟩
    obtain ⟨-, own, -⟩ := branchingOf_append.1 all
    simp [splice, spliceOf_eq_map, ih own]

theorem spliced_split_iff {axis : Axis} {os : List Outline} : (split axis os).Spliced ↔
    (∀ o ∈ os, o.Spliced) ∧ ∀ before inner, os ≠ before ++ [split axis inner] := by
  constructor
  · intro h
    constructor
    · intro o ho o' step
      obtain ⟨before, after, rfl⟩ := List.append_of_mem ho
      exact h _ (.within axis before after step)
    · rintro before inner rfl
      exact h _ (.here axis before inner)
  · rintro ⟨children, last⟩ o' step
    generalize hs : split axis os = s at step
    cases step with
    | here axis' before inner =>
      obtain ⟨rfl, rfl⟩ := split.inj hs
      exact last before inner rfl
    | within axis' before after step =>
      obtain ⟨rfl, rfl⟩ := split.inj hs
      exact children _ (by simp) _ step

/-- Taking in a last child leaves nothing to splice, if there was nothing inside the children. -/
theorem spliced_absorb {axis : Axis} {os : List Outline} (branching : BranchingOf os)
    (children : ∀ o ∈ os, o.Spliced) : (split axis (absorb axis os)).Spliced := by
  rcases absorb_cases axis os with ⟨before, inner, rfl, eq⟩ | ⟨eq, last⟩
  · rw [eq]
    obtain ⟨-, ⟨some, -⟩, -⟩ := branchingOf_append.1 branching
    obtain ⟨inside, last⟩ := spliced_split_iff.1 (children (split axis inner) (by simp))
    refine spliced_split_iff.2 ⟨fun o ho => ?_, fun before' inner' same => ?_⟩
    · rcases List.mem_append.1 ho with ho | ho
      · exact children o (by simp [ho])
      · exact inside o ho
    · obtain ⟨front, o, rfl⟩ := (List.eq_nil_or_concat inner).resolve_left some
      rw [List.concat_eq_append, ← List.append_assoc] at same
      have end_ := (List.append_inj' same rfl).2
      refine last front inner' ?_
      rw [List.concat_eq_append, end_]
  · rw [eq]
    exact spliced_split_iff.2 ⟨children, last⟩

theorem absorb_branching {axis : Axis} {os : List Outline} (some : os ≠ [])
    (h : BranchingOf os) : (split axis (absorb axis os)).Branching := by
  rcases absorb_cases axis os with ⟨before, inner, rfl, eq⟩ | ⟨eq, -⟩
  · rw [eq]
    exact Splices.branching (.here axis before inner) ⟨some, h⟩
  · rw [eq]
    exact ⟨some, h⟩

mutual

theorem splice_spliced : ∀ {o : Outline}, o.Branching → o.splice.Spliced ∧ o.splice.Branching
  | pane, _ => ⟨fun _ step => (by cases step), trivial⟩
  | split axis os, h => by
    obtain ⟨children, branching⟩ := spliceOf_spliced h.2
    have some : spliceOf os ≠ [] := by rw [spliceOf_eq_map, Ne, List.map_eq_nil_iff]; exact h.1
    exact ⟨spliced_absorb branching children, absorb_branching some branching⟩

theorem spliceOf_spliced : ∀ {os : List Outline}, BranchingOf os →
    (∀ o ∈ spliceOf os, o.Spliced) ∧ BranchingOf (spliceOf os)
  | [], _ => ⟨by simp [spliceOf], trivial⟩
  | o :: os, h => by
    obtain ⟨spliced, branching⟩ := splice_spliced h.1
    obtain ⟨rest, branchingRest⟩ := spliceOf_spliced h.2
    exact ⟨List.forall_mem_cons.2 ⟨spliced, rest⟩, branching, branchingRest⟩

end

mutual

theorem splice_of_spliced : ∀ {o : Outline}, o.Spliced → o.splice = o
  | pane, _ => rfl
  | split axis os, h => by
    obtain ⟨children, last⟩ := spliced_split_iff.1 h
    rw [splice, spliceOf_of_spliced children]
    rcases absorb_cases axis os with ⟨before, inner, same, -⟩ | ⟨eq, -⟩
    · exact absurd same (last before inner)
    · rw [eq]

theorem spliceOf_of_spliced :
    ∀ {os : List Outline}, (∀ o ∈ os, o.Spliced) → spliceOf os = os
  | [], _ => rfl
  | o :: os, h => by
    obtain ⟨own, rest⟩ := List.forall_mem_cons.1 h
    rw [spliceOf, splice_of_spliced own, spliceOf_of_spliced rest]

end

theorem splice_eq_of_splices {o o' : Outline} (branching : o.Branching)
    (h : Relation.ReflTransGen Splices o o') : o.splice = o'.splice ∧ o'.Branching := by
  induction h with
  | refl => exact ⟨rfl, branching⟩
  | tail _ step ih => exact ⟨ih.1.trans (step.splice_eq ih.2), step.branching ih.2⟩

/-- What is left when nothing can be spliced any more does not depend on the order of splicing. -/
theorem eq_splice_of_spliced {o o' : Outline} (branching : o.Branching)
    (h : Relation.ReflTransGen Splices o o') (spliced : o'.Spliced) : o' = o.splice := by
  rw [(splice_eq_of_splices branching h).1, splice_of_spliced spliced]

end Outline
end PaneLayout
