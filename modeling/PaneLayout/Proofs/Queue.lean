import Mathlib.Data.List.Perm.Basic
import PaneLayout.Proofs.Registry

set_option autoImplicit false

/-!
# The queue of a registry

What becomes of the links that are deferred on a registry, whatever is called on it and in which
order. None is lost and none is handed out twice, those that wait stand in the order in which they
were deferred, and none that could be resolved is left behind by a drain.
-/

namespace PaneLayout.Registry

/-- A call that changes a registry. -/
inductive Call where
  | register (p : Pane)
  | markKnown (id : SectionId)
  | resolve (p : PlaceholderId) (id : SectionId)
  | defer (l : PendingLink)
  | drain

def Call.registers : Call → Bool
  | register _ => true
  | _ => false

/-- A registry, the links that have been deferred on it, and what its drains have handed out. -/
structure History where
  registry : Registry
  deferred : List PendingLink
  drains : List (List PendingLink)

namespace History

def fresh : History := ⟨empty, [], []⟩

def step (h : History) : Call → History
  | .register p => { h with registry := (h.registry.register p).2 }
  | .markKnown id => { h with registry := h.registry.markKnown id }
  | .resolve p id => { h with registry := h.registry.resolve p id }
  | .defer l => { h with registry := h.registry.defer l, deferred := h.deferred ++ [l] }
  | .drain => { h with registry := h.registry.drain.2, drains := h.drains ++ [h.registry.drain.1] }

def run (h : History) (cs : List Call) : History := cs.foldl step h

end History

/-! ## What a call changes -/

theorem pending_register (r : Registry) (p : Pane) : (r.register p).2.pending = r.pending := by
  unfold register
  cases p.section? <;> rfl

/-- Draining leaves what can be resolved as it was. -/
theorem isResolvable_drain (r : Registry) : r.drain.2.isResolvable = r.isResolvable :=
  funext (isResolvable_pending _)

theorem grows_pending (r : Registry) (q : List PendingLink) : r.Grows { r with pending := q } :=
  ⟨rfl, rfl, fun _ => id, fun _ => id⟩

theorem grows_markKnown (r : Registry) (id : SectionId) : r.Grows (r.markKnown id) :=
  ⟨rfl, rfl, List.subset_cons_self id r.known, fun _ has => has⟩

namespace History

/-- Every deferred link has been handed out or still waits, and nothing has changed places. -/
structure Balanced (h : History) : Prop where
  all : h.deferred.Perm (h.drains.flatten ++ h.registry.pending)
  waiting : h.registry.pending.Sublist h.deferred
  drained : ∀ ls ∈ h.drains, ls.Sublist h.deferred

variable {h : History}

theorem Balanced.of_pending (b : h.Balanced) {r : Registry}
    (same : r.pending = h.registry.pending) : Balanced { h with registry := r } where
  all := by
    rw [same]
    exact b.all
  waiting := by
    rw [same]
    exact b.waiting
  drained := b.drained

theorem Balanced.defer (b : h.Balanced) (l : PendingLink) : (h.step (.defer l)).Balanced where
  all := by
    change (h.deferred ++ [l]).Perm (h.drains.flatten ++ (h.registry.pending ++ [l]))
    rw [← List.append_assoc]
    exact b.all.append_right [l]
  waiting := b.waiting.append_right [l]
  drained ls hls := (b.drained ls hls).trans (List.sublist_append_left h.deferred [l])

theorem Balanced.drain (b : h.Balanced) : (h.step .drain).Balanced where
  all := by
    have divided := List.filter_append_perm h.registry.isResolvable h.registry.pending
    change h.deferred.Perm ((h.drains ++ [h.registry.pending.filter h.registry.isResolvable]).flatten
      ++ h.registry.pending.filter fun l => !h.registry.isResolvable l)
    rw [List.flatten_append, List.flatten_singleton, List.append_assoc]
    exact b.all.trans (divided.symm.append_left _)
  waiting := List.filter_sublist.trans b.waiting
  drained := by
    change ∀ ls ∈ h.drains ++ [h.registry.pending.filter h.registry.isResolvable], _
    rw [List.forall_mem_append, List.forall_mem_singleton]
    exact ⟨b.drained, List.filter_sublist.trans b.waiting⟩

theorem Balanced.step (b : h.Balanced) (c : Call) : (h.step c).Balanced := by
  cases c with
  | register p => exact b.of_pending (pending_register h.registry p)
  | markKnown id => exact b.of_pending rfl
  | resolve p id => exact b.of_pending rfl
  | defer l => exact b.defer l
  | drain => exact b.drain

theorem Balanced.run (b : h.Balanced) (cs : List Call) : (h.run cs).Balanced := by
  induction cs generalizing h with
  | nil => exact b
  | cons c cs ih => exact ih (b.step c)

theorem step_grows (h : History) {c : Call} (quiet : c.registers = false) :
    h.registry.Grows (h.step c).registry := by
  cases c with
  | register p => cases quiet
  | markKnown id => exact grows_markKnown h.registry id
  | resolve p id => exact grows_given h.registry [(p, id)]
  | defer l => exact grows_pending h.registry _
  | drain => exact grows_pending h.registry _

theorem run_grows (h : History) {cs : List Call} (quiet : ∀ c ∈ cs, c.registers = false) :
    h.registry.Grows (h.run cs).registry := by
  induction cs generalizing h with
  | nil => exact .refl _
  | cons c cs ih =>
    obtain ⟨first, rest⟩ := List.forall_mem_cons.1 quiet
    exact (h.step_grows first).trans (ih (h.step c) rest)

/-- A drain hands out what can be resolved, in the order of the queue, and keeps the rest. -/
structure Drained (h h' : History) : Prop where
  drains : h'.drains = h.drains ++ [h.registry.pending.filter h.registry.isResolvable]
  pending : h'.registry.pending = h.registry.pending.filter fun l => !h.registry.isResolvable l
  waiting : ∀ l ∈ h'.registry.pending, h'.registry.isResolvable l = false

theorem drained_step (h : History) : h.Drained (h.step .drain) where
  drains := rfl
  pending := rfl
  waiting l hl := by
    have kept := (List.mem_filter.1 hl).2
    change h.registry.drain.2.isResolvable l = false
    rw [isResolvable_drain]
    simpa using kept

/-- After any calls on a fresh registry the links deferred are those handed out and those that wait.
A drain hands out all that can be resolved, and until another pane is registered a link that can be
resolved stays so. -/
theorem deferred_accounted (cs : List Call) :
    (fresh.run cs).Balanced ∧ (fresh.run cs).Drained (fresh.run (cs ++ [.drain])) ∧
    ∀ l, (fresh.run cs).registry.isResolvable l = true →
      ∀ ds : List Call, (∀ d ∈ ds, d.registers = false) →
        (fresh.run (cs ++ ds)).registry.isResolvable l = true := by
  have start : fresh.Balanced := ⟨.nil, .slnil, nofun⟩
  have split (ds : List Call) : fresh.run (cs ++ ds) = (fresh.run cs).run ds := List.foldl_append
  refine ⟨start.run cs, ?_, fun l ready ds quiet => ?_⟩
  · rw [split]
    exact (fresh.run cs).drained_step
  · rw [split]
    exact ((fresh.run cs).run_grows quiet).isResolvable ready

def ordersPane (id : SectionId) : Pane := .existing id ⟨some "orders", none, none, none⟩

def ordersLink : PendingLink := ⟨0, .real ⟨4⟩, .name "orders", .childOf (.name "orders")⟩

/-- Deferred and drained, the link can still be resolved. -/
theorem deferred_accounted_orders :
    (fresh.run [.register (ordersPane ⟨4⟩)]).registry.isResolvable ordersLink = true ∧
    (fresh.run ([.register (ordersPane ⟨4⟩)] ++ [.defer ordersLink, .drain])).registry.isResolvable
      ordersLink = true := by
  have ready : (fresh.run [.register (ordersPane ⟨4⟩)]).registry.isResolvable ordersLink = true := by
    decide +kernel
  exact ⟨ready, (deferred_accounted [.register (ordersPane ⟨4⟩)]).2.2 ordersLink ready
    [.defer ordersLink, .drain] (by decide)⟩

/-- A second pane of the same name takes it away. -/
example : (fresh.run [.register (ordersPane ⟨4⟩), .register (ordersPane ⟨5⟩)]).registry.isResolvable
    ordersLink = false := by
  decide +kernel

end History
end PaneLayout.Registry
