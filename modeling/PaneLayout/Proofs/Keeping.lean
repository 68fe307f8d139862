import PaneLayout.Proofs.Reapplication
import PaneLayout.Proofs.Steady

set_option autoImplicit false

/-!
# What calls keep

A property of the state of a client that each of its calls keeps is kept by every compilation,
whichever way it ends. That the tables of all widgets are there is such a property.
-/

namespace PaneLayout

variable {α σ β : Type}

def LinkRun.Keeps (I : σ → Prop) (x : LinkRun σ β) : Prop :=
  ∀ st, I st.engine → I (x.start st).2.engine

/-- Every call that a compilation makes keeps the property. -/
structure Client.Keeps (I : σ → Prop) (client : Client α σ) : Prop where
  createWidget : ∀ t type view s, I s → I (client.createWidget t type view s).2
  applyMutations : ∀ ms s, I s → I (client.applyMutations ms s).2
  fetchWidget : ∀ id s, I s → I (client.fetchWidget id s).2
  listColumns : ∀ t s, I s → I (client.listColumns t s).2
  summarySource : ∀ t s, I s → I (client.summarySource t s).2

variable {I : σ → Prop} {client : Client α σ}

theorem LinkRun.keeps_closed : Closed fun {β} (x _ : LinkRun σ β) => x.Keeps I :=
  closed_of_preorder (R := fun st st' => I st.engine → I st'.engine) (fun _ kept => kept)
    fun first rest kept => rest (first kept)

theorem LinkRun.keeps_ofReply {call : σ → Reply σ β} (h : ∀ s, I s → I (call s).2)
    (onFault : Fault → CompileError) : Keeps I (Run.ofReply
      (fun st => ((call st.engine).1, { st with engine := (call st.engine).2 })) onFault) := by
  intro st kept
  have after := h st.engine kept
  rw [Run.start_ofReply]
  rcases answer : call st.engine with ⟨_ | _, s⟩ <;> rw [answer] at after <;> exact after

namespace Compile

theorem keeps_populating (h : client.Keeps I) :
    Populating (fun {β} (x _ : LinkRun σ β) => x.Keeps I) client client where
  toClosed := LinkRun.keeps_closed
  columns t := by
    intro st kept
    have after {r e} (answer : client.listColumns t st.engine = (r, e)) : I e := by
      have still := h.listColumns t st.engine kept
      rwa [answer] at still
    refine (Run.yields_end_iff (C := fun st' => I st'.engine)).1
      (LinkCheck.yields_columns client t (fun _ _ => kept) ?_ ?_)
    · exact fun _ _ answer => after answer
    · exact fun _ _ _ answer => after answer
  lineage t := by
    intro st kept
    have after {r e} (answer : client.summarySource t st.engine = (r, e)) : I e := by
      have still := h.summarySource t st.engine kept
      rwa [answer] at still
    refine (Run.yields_end_iff (C := fun st' => I st'.engine)).1
      (LinkCheck.yields_summarySource client t (fun _ _ => kept) ?_ ?_)
    · exact fun _ _ answer => after answer
    · exact fun _ _ _ answer => after answer
  fetch id := LinkRun.keeps_ofReply (h.fetchWidget id) _
  make i t type view := LinkRun.keeps_ofReply (h.createWidget t type view) _

theorem conclude_keeps [Scalar α] (h : client.Keeps I) (id : Uuid) (plan : Plan α)
    (s : Surroundings) (p : Progress) : (conclude client id plan s p).Keeps I :=
  conclude_closed LinkRun.keeps_closed client client
    (fun ms _ => LinkRun.keeps_ofReply (h.applyMutations ms) _) id plan s p

end Compile

open Compile in
/-- What the calls keep a compilation keeps. -/
theorem Client.Keeps.compile [Scalar α] (h : client.Keeps I) (config : CompilerConfig) (id : Uuid)
    (request : LayoutRequest α) {s : σ} (kept : I s) :
    I (compile client config id request s).2 := by
  have run : (compileRun client config id request).Keeps I := by
    rw [compileRun_eq]
    have first := (keeps_populating h).populate config request
    exact LinkRun.keeps_closed.bind (y := populate client config request)
      (g := fun x => conclude client id x.1 x.2.1 x.2.2) first
      fun x => conclude_keeps h id x.1 x.2.1 x.2.2
  exact run (.fresh s) kept

/-! ## Tables of widgets -/

namespace Document

variable {d e : Document α}

/-- Every widget is of a table of the document. -/
def Owned (d : Document α) : Prop :=
  ∀ id w, d.widget? id = some w → d.tables.contains w.table = true

theorem owned_of_applied {ms : List (Mutation α)} (owned : d.Owned) (applied : d.Applied ms e) :
    e.Owned := by
  intro id w hw
  have table := applied.table_eq id
  rw [hw] at table
  obtain ⟨v, hv, same⟩ := Option.map_eq_some_iff.1 table.symm
  have there := owned id v hv
  rw [same] at there
  rw [applied.tables]
  exact there

theorem owned_of_placed (owned : d.Owned) (view : Option ViewRef) {c : Creation}
    (there : d.tables.contains c.table = true) : (d.placed view c).2.Owned := by
  rw [placed_snd]
  intro id w hw
  change (d.widgets.insert _ _).get? id = some w at hw
  rw [SortedMap.get?_insert] at hw
  split at hw
  · obtain rfl := Option.some.inj hw
    exact there
  · exact owned id w hw

theorem keeps_owned : (Document.client : Client α (Document α)).Keeps Owned where
  createWidget t type view d owned := by
    change (createWidget t type view d).2.Owned
    rcases d.createWidget_snd t type view with ⟨spent, refused⟩ | ⟨can, made⟩
    · rw [refused]
      exact owned
    · rw [made]
      exact owned_of_placed owned view can.table
  applyMutations ms d owned := by
    obtain ⟨ns, -, applied⟩ := d.exists_applied ms
    exact owned_of_applied (d := d.bundling) owned applied
  fetchWidget _ _ owned := owned
  listColumns _ _ owned := owned
  summarySource _ _ owned := owned

end Document
end PaneLayout
