import PaneLayout.Proofs.Result

set_option autoImplicit false

/-!
# Errors that leave the document alone

A malformed layout, an unknown table and an unknown column are meant to be found before anything
is created. They are, with one exception: a link may name by number a section that the run itself
hands out. Such a link is checked for the first time when that section has been created.
-/

namespace PaneLayout

variable {α : Type} [Scalar α]

/-- The errors that are meant to come before the first creation. -/
def CompileError.isEarly : CompileError → Bool
  | malformedLayout _ | unknownTable _ _ _ | unknownColumn _ _ _ _ => true
  | danglingLinkTarget _ _ | collaboratorFailure _ _ _ => false

/-- Some pane is linked to one of the sections `ids` by number. -/
def Layout.LinksTo (t : Layout α) (ids : List SectionId) : Prop :=
  ∃ p ∈ t.panes, ∃ l, p.link = some l ∧ ∃ n ∈ ids, l.source = .id n

namespace Compile

variable {d d' : Document α} {config : CompilerConfig} {request : LayoutRequest α}

/-- An early error after the first creation comes from a link to a section of this run. -/
theorem linksTo_of_broken {t : Layout α} {plan : Plan α} {r : Registry} {s : Surroundings}
    {err : CompileError} (draws : plan.Draws request.tables t)
    (surveyed : Surveyed d request.tables t plan r s)
    (fits : ∀ l ∈ plan.links, ∀ ends,
      d.ends? request.tables t.panes l.ownerIndex l.target = some ends →
      l.link.Fits d.tables (.ofConfig request.tables config) ends)
    (broken : Broken d config request t plan r s err d') (early : err.isEarly = true) :
    t.LinksTo (d.nextSections (d'.createCalls - d.createCalls)) := by
  cases broken with
  | stopped err e stopped =>
    cases stopped with
    | refused => cases early
    | unresolved cs rest err e all some grown unresolved =>
      obtain ⟨l, hl, n, hn, given⟩ := surveyed.handedOut_of_unresolved draws fits unresolved
      obtain ⟨p, hp, hk, source⟩ := draws.pane_of_link hl
      have count : d'.createCalls - d.createCalls = cs.length := by
        rw [grown.creates]
        omega
      refine ⟨p, List.mem_of_getElem? hp, l.link, hk, n, ?_, source.symm.trans hn⟩
      rw [count]
      exact given
  | dangling => cases early
  | rejected => cases early

end Compile

open Compile

/-- An early error leaves the document as it was, exactly unless a pane is linked to a number that
the run had handed out by then. -/
theorem onlyRead_iff_of_early_error {d d' : Document α} {config : CompilerConfig} {id : Uuid}
    {request : LayoutRequest α} {err : CompileError}
    (run : compile Document.client config id request d = (.error err, d'))
    (early : err.isEarly = true) :
    d.OnlyRead d' ↔ ∀ t, request.layout = some t →
      ¬ t.LinksTo (d.nextSections (d'.createCalls - d.createCalls)) := by
  constructor
  · rintro read t - ⟨p, -, l, -, n, given, -⟩
    have none : d'.createCalls - d.createCalls = 0 := by
      rw [read]
      exact Nat.sub_self _
    rw [none] at given
    cases given
  · intro apart
    cases compile_error run with
    | early read _ => exact read
    | late t plan r s layout valid draws surveyed fits broken =>
      exact absurd (linksTo_of_broken draws surveyed fits broken early) (apart t layout)

/-- Customers under their orders, filtered by a column that orders do not have. -/
def Document.filteredShop (orders : LinkTarget) : LayoutRequest Rat where
  view := none
  tables := shop.tableMap
  layout := some (.split .vertical [
    .pane (.new "Orders" .grid ⟨some "orders", none, none, none⟩),
    .pane (.new "Customers" .card ⟨none, none, none, some (.filteredBy orders "Nope")⟩)] none)

/-- By name the column is looked up before anything is created. -/
theorem onlyRead_iff_of_missing_column : ∃ err d',
    compile Document.client .standard ⟨0⟩ (Document.filteredShop (.name "orders")) Document.shop =
      (.error err, d') ∧ err.isEarly = true ∧
    (Document.shop.OnlyRead d' ↔ ∀ t, (Document.filteredShop (.name "orders")).layout = some t →
      ¬ t.LinksTo (Document.shop.nextSections (d'.createCalls - Document.shop.createCalls))) := by
  obtain ⟨err, d', run, early⟩ := exists_error_of_test (fun err _ => err.isEarly)
    (x := compile Document.client .standard ⟨0⟩ (Document.filteredShop (.name "orders"))
      Document.shop) (by decide +kernel)
  exact ⟨err, d', run, early, onlyRead_iff_of_early_error run early⟩

/-- By the number of the new section it is looked up too late. -/
theorem early_error_after_two_creations : ∃ err d',
    compile Document.client .standard ⟨0⟩ (Document.filteredShop (.id ⟨8⟩)) Document.shop =
      (.error err, d') ∧ err.isEarly = true ∧ d'.createCalls = 2 ∧
    ¬ Document.shop.OnlyRead d' := by
  obtain ⟨err, d', run, found⟩ := exists_error_of_test
    (fun err d' => err.isEarly && d'.createCalls == 2)
    (x := compile Document.client .standard ⟨0⟩ (Document.filteredShop (.id ⟨8⟩)) Document.shop)
    (by decide +kernel)
  rw [Bool.and_eq_true, beq_iff_eq] at found
  refine ⟨err, d', run, found.1, found.2, fun read => ?_⟩
  have calls : d'.createCalls = 0 := by
    rw [read]
    rfl
  omega

end PaneLayout
