import PaneLayout.Proofs.Outcome

set_option autoImplicit false

/-!
# What the survey covers

A link that the run comes to resolve has been checked before anything was created, as long as its
target is not one of the numbers that the run hands out itself. So nothing but such a number can
make a link fail after the first creation.
-/

namespace PaneLayout.Surveyed

variable {α : Type} [Scalar α] {d : Document α} {tables : TableMap} {t : Layout α} {plan : Plan α}
  {r : Registry} {s : Surroundings}

theorem paneTable?_isSome (h : Surveyed d tables t plan r s) (draws : plan.Draws tables t)
    {p : Pane} (hp : p ∈ t.panes) : (d.paneTable? tables p).isSome := by
  unfold Document.paneTable?
  cases hs : p.section? with
  | some id =>
    have known := (h.known id).2 (h.reals p hp id hs)
    rw [Option.isSome_map]
    exact (h.known_get? known).2
  | none =>
    obtain ⟨name, hname⟩ := Option.isSome_iff_exists.1 ((Pane.table?_isSome_iff p).2 hs)
    rw [hname]
    exact draws.mapped p hp name hname

/-- The table of a link's source is known once the source has a section. -/
theorem targetTable?_isSome (h : Surveyed d tables t plan r s) (draws : plan.Draws tables t)
    {cs : List Creation} {target : LinkTarget}
    (found : ((Compile.registryAfter d r cs).lookupTarget target).isSome)
    (apart : ∀ n, target = .id n → n ∉ d.nextSections cs.length) :
    (d.targetTable? tables t.panes target).isSome := by
  unfold Document.targetTable?
  cases target with
  | name key =>
    simp only [Compile.registryAfter, Registry.lookupTarget, Registry.names_given,
      Registry.panes_given, h.names_eq draws, h.panes_eq draws, List.getElem?_map] at found
    obtain ⟨ref, href⟩ := Option.isSome_iff_exists.1 (Option.isSome_of_isSome_bind found)
    obtain ⟨i, hi, href⟩ := Option.bind_eq_some_iff.1 href
    obtain ⟨slot, hslot, -⟩ := Option.map_eq_some_iff.1 href
    have pane := (Layout.slots_getElem? hslot).2
    have resolved : ((NameIndex.ofPanes t.panes).resolve key).unique? = some i := hi
    dsimp only
    rw [resolved, Option.bind_some, pane, Option.bind_some]
    exact h.paneTable?_isSome draws (List.mem_of_getElem? pane)
  | id n =>
    dsimp only
    rw [Option.isSome_map]
    simp only [Registry.lookupTarget, List.contains_iff_mem, Option.isSome_ite] at found
    rcases (Compile.mem_known_registryAfter d r cs n).1 found with known | given
    · exact (h.known_get? known).2
    · exact absurd given (apart n rfl)

theorem resolves {rules : LinkRules} (h : Surveyed d tables t plan r s)
    (draws : plan.Draws tables t) (fits : ∀ l ∈ plan.links, ∀ ends,
      d.ends? tables t.panes l.ownerIndex l.target = some ends → l.link.Fits d.tables rules ends)
    {cs : List Creation} {l : PendingLink} (hl : l ∈ plan.links)
    (ready : (Compile.registryAfter d r cs).isResolvable l = true)
    (apart : ∀ n, l.target = .id n → n ∉ d.nextSections cs.length) :
    ∃ tuple, Compile.Resolves d.tables rules s (Compile.registryAfter d r cs) l tuple := by
  simp only [Registry.isResolvable, Bool.and_eq_true] at ready
  obtain ⟨source, hsource⟩ := Option.isSome_iff_exists.1 ready.2
  obtain ⟨owner, howner⟩ : ∃ owner, t.panes[l.ownerIndex]?.bind (d.paneTable? tables) = some owner := by
    obtain ⟨p, hp, -⟩ := draws.pane_of_link hl
    have known := h.paneTable?_isSome draws (List.mem_of_getElem? hp)
    obtain ⟨owner, howner⟩ := Option.isSome_iff_exists.1 known
    exact ⟨owner, by rw [hp]; exact howner⟩
  obtain ⟨table, htable⟩ := Option.isSome_iff_exists.1 (h.targetTable?_isSome draws ready.2 apart)
  have ends : d.ends? tables t.panes l.ownerIndex l.target = some ⟨owner, table⟩ := by
    unfold Document.ends?
    rw [howner, htable]
    rfl
  have known : s.ends (Compile.registryAfter d r cs) l = some ⟨owner, table⟩ := by
    rw [← ends]
    refine h.ends_eq draws hl _ ?_ (Compile.registryAfter d r cs).pending
    intro n hn
    rw [Compile.given_ids]
    exact apart n hn
  exact ⟨⟨source, (l.link.columnRefs d.tables ⟨owner, table⟩).1,
    (l.link.columnRefs d.tables ⟨owner, table⟩).2⟩, hsource, _, known, fits l hl _ ends, rfl⟩

/-- Only a number that the run has handed out leaves a link unresolved. -/
theorem handedOut_of_unresolved {rules : LinkRules} (h : Surveyed d tables t plan r s)
    (draws : plan.Draws tables t) (fits : ∀ l ∈ plan.links, ∀ ends,
      d.ends? tables t.panes l.ownerIndex l.target = some ends → l.link.Fits d.tables rules ends)
    {cs : List Creation} (unresolved : Compile.Unresolved d rules plan r s cs) :
    ∃ l ∈ plan.links, ∃ n, l.target = .id n ∧ n ∈ d.nextSections cs.length := by
  obtain ⟨l, hl, ready, none⟩ := unresolved
  refine Classical.byContradiction fun all => ?_
  have apart : ∀ n, l.target = .id n → n ∉ d.nextSections cs.length :=
    fun n hn given => all ⟨l, hl, n, hn, given⟩
  obtain ⟨tuple, resolves⟩ := h.resolves draws fits hl ready apart
  exact none tuple resolves

end PaneLayout.Surveyed
