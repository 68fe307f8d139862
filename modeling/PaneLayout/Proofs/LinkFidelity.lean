import PaneLayout.Proofs.Naming
import PaneLayout.Proofs.Result

set_option autoImplicit false

/-!
# Links say what the layout says

What the bundle of a compilation makes of the links of a layout. A name becomes the section of the
pane it denotes. A number stays the number it is, and it may only be a section that was there
before: one that the run itself hands out is taken as well, even by the pane that it is given to.
-/

namespace PaneLayout

variable {α : Type}

def Layout.Shows (t : Layout α) (n : SectionId) : Prop := ∃ p ∈ t.panes, p.section? = some n

/-- A section of the layout, or one that the document has. -/
def Layout.Reaches (t : Layout α) (d : Document α) (n : SectionId) : Prop :=
  t.Shows n ∨ (d.widget? n).isSome

/-- Every numeric link target of the layout was there before. -/
def Layout.Grounded (t : Layout α) (d : Document α) : Prop :=
  ∀ p ∈ t.panes, ∀ l n, p.link = some l → l.source = .id n → t.Reaches d n

/-- The section `id` is what the target says, in a layout whose panes have the sections `ss`. -/
def LinkTarget.Denotes (t : Layout α) (d : Document α) (ss : List SectionId) (id : SectionId) :
    LinkTarget → Prop
  | .name key => ∃ j, (NameIndex.ofLayout t).resolve key = .unique j ∧ ss[j]? = some id
  | .id n => id = n ∧ t.Reaches d n

/-- A stored link is that of its owner's pane, and leads somewhere else. -/
def CompileOutcome.Faithful (o : CompileOutcome α) (t : Layout α) (d : Document α)
    (owner : SectionId) (tuple : LinkTuple) : Prop :=
  ∃ (i : Nat) (p : Pane) (l : Link), t.panes[i]? = some p ∧ o.layout.leaves[i]? = some owner ∧
    p.link = some l ∧ l.source.Denotes t d o.layout.leaves tuple.source ∧ tuple.source ≠ owner

variable [Scalar α]

namespace Compile.Finished

variable {d : Document α} {config : CompilerConfig} {request : LayoutRequest α} {t : Layout α}
  {plan : Plan α} {r : Registry} {s : Surroundings} {p : Progress} {e : Document α}
  {o : CompileOutcome α} {d' : Document α} (h : Finished d config request t plan r s p e o d')
include h

theorem widget?_isSome {n : SectionId} (hn : t.Reaches d n) : (d.widget? n).isSome := by
  rcases hn with ⟨pane, hp, hs⟩ | there
  · exact h.widget?_of_section hp hs
  · exact there

theorem leaves_nodup (distinct : o.created.Nodup) (new : ∀ id ∈ o.created, d.widget? id = none) :
    o.layout.leaves.Nodup := by
  rw [(h.page_eq (h.few_of_created distinct)).1]
  rw [h.created_eq] at distinct new
  exact h.sections_nodup distinct new

theorem section_of_pane (few : t.newPanes.length ≤ UInt32.size) {i : Nat} {pane : Pane}
    (hp : t.panes[i]? = some pane) : ∃ id, o.layout.leaves[i]? = some id ∧
      (pane.section? = some id ∨ pane.section? = none ∧ id ∈ o.created) := by
  rw [(h.page_eq few).1, h.created_eq]
  exact Pane.assignedSections_getElem? (Compile.sectionsOn_count d t) hp

theorem faithful (distinct : o.created.Nodup) (new : ∀ id ∈ o.created, d.widget? id = none)
    (grounded : t.Grounded d) {owner : SectionId} {tuple : LinkTuple}
    (set : .setLink owner tuple ∈ o.mutations) : o.Faithful t d owner tuple := by
  have few := h.few_of_created distinct
  have leaves := (h.page_eq few).1
  obtain ⟨i, ht, howner⟩ := (h.setLink_mem few).1 set
  obtain ⟨pane, l, hp, hl, source, -⟩ := h.link_of_tuple few ht
  rw [← leaves] at howner source
  refine ⟨i, pane, l, hp, howner, hl, ?_⟩
  cases hs : l.source with
  | name key =>
    rw [hs] at source
    obtain ⟨j, hj, source⟩ := Option.bind_eq_some_iff.1 source
    have unique := NameMatch.unique?_eq_some hj
    refine ⟨⟨j, unique, source⟩, fun same => ?_⟩
    rw [same, ← howner] at source
    obtain ⟨bound, -⟩ := List.getElem?_eq_some_iff.1 howner
    have index := (List.getElem?_inj bound (h.leaves_nodup distinct new)).1 source.symm
    exact Layout.name_ne_self h.valid hp hl hs unique index.symm
  | id n =>
    rw [hs] at source
    obtain rfl : n = tuple.source := Option.some.inj source
    have there := grounded pane (List.mem_of_getElem? hp) l _ hl hs
    refine ⟨⟨rfl, there⟩, fun same => ?_⟩
    obtain ⟨id, hid, own⟩ := h.section_of_pane few hp
    obtain rfl : owner = id := Option.some.inj (howner.symm.trans hid)
    rcases own with own | ⟨-, created⟩
    · exact (Layout.id_ne_self h.valid hp hl hs).2 (own.trans (congrArg some same.symm))
    · have present := h.widget?_isSome there
      rw [same, new owner created] at present
      cases present

theorem grounded_of_faithful (distinct : o.created.Nodup)
    (new : ∀ id ∈ o.created, d.widget? id = none)
    (faithful : ∀ owner tuple, .setLink owner tuple ∈ o.mutations → o.Faithful t d owner tuple) :
    t.Grounded d := by
  have few := h.few_of_created distinct
  intro pane hpane l n hl hn
  obtain ⟨i, hi, rfl⟩ := List.getElem_of_mem hpane
  have hp : t.panes[i]? = some t.panes[i] := List.getElem?_eq_getElem hi
  obtain ⟨tuple, ht⟩ := h.tuple_of_link hp hl
  obtain ⟨owner, howner, -⟩ := h.section_of_pane few hp
  have set : .setLink owner tuple ∈ o.mutations := by
    rw [h.setLink_mem few, ← (h.page_eq few).1]
    exact ⟨i, ht, howner⟩
  obtain ⟨i', pane', l', hp', howner', hl', denotes, -⟩ := faithful owner tuple set
  obtain ⟨bound, -⟩ := List.getElem?_eq_some_iff.1 howner
  obtain rfl : i = i' :=
    (List.getElem?_inj bound (h.leaves_nodup distinct new)).1 (howner.trans howner'.symm)
  obtain rfl : t.panes[i] = pane' := Option.some.inj (hp.symm.trans hp')
  obtain rfl : l = l' := Option.some.inj (hl.symm.trans hl')
  rw [hn] at denotes
  exact denotes.2

end Compile.Finished

/-- When the sections handed out are new, every link that a compilation stores is faithful exactly
if every numeric target was there before. -/
theorem faithful_iff_grounded {d d' : Document α} {config : CompilerConfig} {id : Uuid}
    {request : LayoutRequest α} {o : CompileOutcome α} {t : Layout α}
    (run : compile Document.client config id request d = (.ok o, d'))
    (layout : request.layout = some t) (distinct : o.created.Nodup)
    (new : ∀ i ∈ o.created, d.widget? i = none) :
    (∀ owner tuple, .setLink owner tuple ∈ o.mutations → o.Faithful t d owner tuple) ↔
      t.Grounded d := by
  obtain ⟨t', plan, r, s, p, e, h⟩ := Compile.compile_ok run
  obtain rfl : t = t' := Option.some.inj (layout.symm.trans h.layout)
  exact ⟨h.grounded_of_faithful distinct new, fun grounded _ _ => h.faithful distinct new grounded⟩

/-- Customers beside the orders that are there, kept in step with a section given by number. -/
def Document.syncedShop (orders : SectionId) : LayoutRequest Rat where
  view := some ⟨1⟩
  tables := shop.tableMap
  layout := some (.split .horizontal [
    .pane (.leaf ⟨7⟩),
    .pane (.new "Customers" .grid ⟨none, none, none, some (.syncedWith (.id orders))⟩)] none)

theorem faithful_iff_grounded_of_leaf : ∃ o d' t,
    compile Document.client .standard ⟨0⟩ (Document.syncedShop ⟨7⟩) Document.shop = (.ok o, d') ∧
    (Document.syncedShop ⟨7⟩).layout = some t ∧
    (o.created.Nodup ∧ ∀ i ∈ o.created, Document.shop.widget? i = none) ∧
    ((∀ owner tuple, .setLink owner tuple ∈ o.mutations →
      o.Faithful t Document.shop owner tuple) ↔ t.Grounded Document.shop) := by
  obtain ⟨o, d', run, found⟩ := exists_ok_of_test
    (fun o _ => decide (o.created.Nodup ∧ ∀ i ∈ o.created, Document.shop.widget? i = none))
    (x := compile Document.client .standard ⟨0⟩ (Document.syncedShop ⟨7⟩) Document.shop)
    (by decide +kernel)
  have new := of_decide_eq_true found
  exact ⟨o, d', _, run, rfl, new, faithful_iff_grounded run rfl new.1 new.2⟩

/-- The number of the new section itself: the widget is linked to itself. -/
theorem self_link_of_new_section : ∃ o d',
    compile Document.client .standard ⟨0⟩ (Document.syncedShop ⟨8⟩) Document.shop = (.ok o, d') ∧
    .setLink ⟨8⟩ (.cursor ⟨8⟩) ∈ o.mutations := by
  obtain ⟨o, d', run, found⟩ := exists_ok_of_test
    (fun o _ => decide (.setLink ⟨8⟩ (.cursor ⟨8⟩) ∈ o.mutations))
    (x := compile Document.client .standard ⟨0⟩ (Document.syncedShop ⟨8⟩) Document.shop)
    (by decide +kernel)
  exact ⟨o, d', run, of_decide_eq_true found⟩

end PaneLayout
