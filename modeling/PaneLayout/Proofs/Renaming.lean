import PaneLayout.Proofs.Bundle
import PaneLayout.Proofs.Registry
import PaneLayout.Proofs.Trace

set_option autoImplicit false

/-!
# Renamed sections

Sections by other names, throughout a page, a bundle, an error or a trace. Of what a compilation
works out, the tables at the ends of a link do not depend on what its new sections are called, and
the rest is renamed with them, as long as a number in the layout means what it meant.
-/

namespace PaneLayout

variable {α ι κ : Type}

/-- Every section of the list by the name it is paired with, and all others by their own. -/
def renameBy (xs : List (SectionId × SectionId)) (id : SectionId) : SectionId :=
  ((xs.find? fun x => x.1 == id).map (·.2)).getD id

section
variable {xs : List (SectionId × SectionId)} {a b : SectionId}

theorem renameBy_of_mem (distinct : (xs.map (·.1)).Nodup) (h : (a, b) ∈ xs) :
    renameBy xs a = b := by
  unfold renameBy
  cases found : xs.find? fun x => x.1 == a with
  | none =>
    have apart := List.find?_eq_none.1 found (a, b) h
    simp at apart
  | some x =>
    have same : x.1 = a := by simpa using List.find?_some found
    rw [List.inj_on_of_nodup_map distinct (List.mem_of_find?_eq_some found) h same]
    rfl

theorem renameBy_of_notMem (h : a ∉ xs.map (·.1)) : renameBy xs a = a := by
  unfold renameBy
  cases found : xs.find? fun x => x.1 == a with
  | none => rfl
  | some x =>
    have same : x.1 = a := by simpa using List.find?_some found
    exact absurd (List.mem_map.2 ⟨x, List.mem_of_find?_eq_some found, same⟩) h

end

/-! ## What is renamed -/

def Native.rename (f : ι → κ) : Native α ι → Native α κ
  | leaf id => leaf (f id)
  | split axis ratio a b => split axis ratio (a.rename f) (b.rename f)

namespace Native

theorem leaves_rename (f : ι → κ) (n : Native α ι) : (n.rename f).leaves = n.leaves.map f := by
  induction n with
  | leaf => rfl
  | split axis ratio a b iha ihb => simp [rename, leaves, iha, ihb]

theorem shape_rename (f : ι → κ) (n : Native α ι) : (n.rename f).shape = n.shape := by
  induction n with
  | leaf => rfl
  | split axis ratio a b iha ihb => simp [rename, shape, iha, ihb]

/-- Pages of one shape differ by what renames their leaves. -/
theorem eq_rename {f : ι → κ} {n : Native α ι} {m : Native α κ} (shape : m.shape = n.shape)
    (leaves : m.leaves = n.leaves.map f) : m = n.rename f :=
  eq_of_shape_of_leaves (shape.trans (shape_rename f n).symm)
    (leaves.trans (leaves_rename f n).symm)

end Native

variable (ρ : SectionId → SectionId)

def LinkTuple.rename (t : LinkTuple) : LinkTuple := { t with source := ρ t.source }

def Mutation.rename : Mutation α → Mutation α
  | setLayout view layout => setLayout view (layout.rename ρ)
  | setLink id t => setLink (ρ id) (t.rename ρ)
  | setSectionInfo id title description => setSectionInfo (ρ id) title description

/-- A widget that was just created: nothing in it but its own id is a section. -/
def WidgetInfo.rename (w : WidgetInfo) : WidgetInfo := { w with id := ρ w.id }

def CompileError.rename : CompileError → CompileError
  | danglingLinkTarget links created => danglingLinkTarget links (created.map (·.rename ρ))
  | collaboratorFailure step message created =>
    collaboratorFailure step message (created.map (·.rename ρ))
  | e => e

def CreateCall.rename (call : CreateCall) : CreateCall :=
  { call with answer := call.answer.map fun w => { w with id := ρ w.id } }

/-- What is read is not renamed: new sections are not asked for. -/
def Event.rename : Event α → Event α
  | createWidget call => createWidget (call.rename ρ)
  | applyMutations ms answer => applyMutations (ms.map (·.rename ρ)) answer
  | e => e

namespace CompileError

theorem rename_of_blank {e : CompileError} (blank : e.created = []) : e.rename ρ = e := by
  cases e with
  | malformedLayout | unknownTable | unknownColumn => rfl
  | danglingLinkTarget | collaboratorFailure =>
    obtain rfl := blank
    rfl

theorem rename_withCreated (e : CompileError) (ws : List WidgetInfo) :
    (e.withCreated ws).rename ρ = e.withCreated (ws.map (·.rename ρ)) := by
  cases e <;> rfl

end CompileError

theorem Mutation.kind_rename (m : Mutation α) : (m.rename ρ).kind = m.kind := by cases m <;> rfl

/-! ## Bundles -/

/-- The sections that a mutation is about. -/
def Mutation.sections : Mutation α → List SectionId
  | setLayout _ layout => layout.leaves
  | setLink id t => [id, t.source]
  | setSectionInfo id _ _ => [id]

namespace Plan

variable {plan : Plan α} {ss : List SectionId} {view : ViewRef} {page : Native α SectionId}
  {tuples : SortedMap Nat LinkTuple}

theorem bundle_rename : plan.bundle (ss.map ρ) view (page.rename ρ) (tuples.mapValues (·.rename ρ)) =
    (plan.bundle ss view page tuples).map (·.rename ρ) := by
  unfold bundle
  rw [List.map_cons, List.map_append]
  congr 2
  · change Mutation.links _ (tuples.toList.map _) = _
    unfold Mutation.links
    rw [List.filterMap_map, List.map_filterMap]
    refine List.filterMap_congr fun e _ => ?_
    rw [Function.comp_apply, List.getElem?_map]
    cases ss[e.1]? <;> rfl
  · unfold Mutation.texts
    rw [List.map_filterMap]
    refine List.filterMap_congr fun e _ => ?_
    split
    · rfl
    · rw [List.getElem?_map]
      cases ss[e.1]? <;> rfl

/-- A bundle is about the sections of the panes and the sources of their links. -/
theorem sections_bundle (leaves : page.leaves = ss) {m : Mutation α}
    (hm : m ∈ plan.bundle ss view page tuples) {id : SectionId} (hid : id ∈ m.sections) :
    id ∈ ss ∨ ∃ i t, tuples.get? i = some t ∧ t.source = id := by
  rcases List.mem_cons.1 hm with rfl | hm
  · rw [← leaves]
    exact .inl hid
  rcases List.mem_append.1 hm with hm | hm
  · obtain ⟨i, t, j, ht, hj, rfl⟩ := Mutation.mem_links.1 hm
    rcases List.mem_cons.1 hid with rfl | hid
    · exact .inl (List.mem_of_getElem? hj)
    · exact .inr ⟨i, t, SortedMap.get?_eq_some_iff.2 ht, (List.mem_singleton.1 hid).symm⟩
  · obtain ⟨i, a, b, j, -, hj, rfl⟩ := Mutation.mem_texts hm
    rw [List.mem_singleton.1 hid]
    exact .inl (List.mem_of_getElem? hj)

end Plan

/-! ## Registries -/

theorem findIdx?_congr {β : Type} {p q : β → Bool} {xs : List β} (h : ∀ x ∈ xs, p x = q x) :
    xs.findIdx? p = xs.findIdx? q := by
  induction xs with
  | nil => rfl
  | cons x xs ih =>
    obtain ⟨hx, hxs⟩ := List.forall_mem_cons.1 h
    rw [List.findIdx?_cons, List.findIdx?_cons, hx, ih hxs]

namespace Registry

/-- The second registry is the first one with its sections renamed. The sections of the tree and
the numbers that `Fixed` has keep their names, and no other section of the registry gets one. -/
structure Renamed (Fixed : SectionId → Prop) (r r' : Registry) : Prop where
  panes : r'.panes = r.panes
  names : r'.names = r.names
  pending : r'.pending = r.pending
  resolved : ∀ q, r'.resolved.get? q = (r.resolved.get? q).map ρ
  known : r'.known = r.known.map ρ
  fixed : ∀ a ∈ r.known, ∀ n, Fixed n → (ρ a = n ↔ a = n)
  real : ∀ id, .real id ∈ r.panes → Fixed id ∧ id ∈ r.known
  given : ∀ q a, r.resolved.get? q = some a → a ∈ r.known

namespace Renamed

variable {ρ} {Fixed : SectionId → Prop} {r r' : Registry}

/-- Before anything is handed out nothing is renamed. -/
theorem start (blank : r.resolved = ∅) (fixed : ∀ a ∈ r.known, Fixed a)
    (fixes : ∀ n, Fixed n → ρ n = n) (real : ∀ id, .real id ∈ r.panes → id ∈ r.known) :
    r.Renamed ρ Fixed r where
  panes := rfl
  names := rfl
  pending := rfl
  resolved q := by
    rw [blank]
    rfl
  known := by
    refine (List.map_congr_left fun a ha => ?_).trans r.known.map_id |>.symm
    exact fixes a (fixed a ha)
  fixed a ha n _ := by rw [fixes a (fixed a ha)]
  real id hid := ⟨fixed id (real id hid), real id hid⟩
  given q a ha := by
    rw [blank] at ha
    cases ha

variable (h : r.Renamed ρ Fixed r')
include h

theorem mem_known_of_lookup {ref : PaneRef} (mem : ref ∈ r.panes) {a : SectionId}
    (ha : r.lookup ref = some a) : a ∈ r.known := by
  cases ref with
  | real id =>
    obtain rfl := Option.some.inj ha
    exact (h.real _ mem).2
  | placeholder q => exact h.given q a ha

theorem lookup {ref : PaneRef} (mem : ref ∈ r.panes) :
    r'.lookup ref = (r.lookup ref).map ρ := by
  cases ref with
  | real id =>
    obtain ⟨keeps, known⟩ := h.real id mem
    exact congrArg some ((h.fixed id known id keeps).2 rfl).symm
  | placeholder q => exact h.resolved q

theorem lookup_isSome (ref : PaneRef) : (r'.lookup ref).isSome = (r.lookup ref).isSome := by
  cases ref with
  | real id => rfl
  | placeholder q =>
    change (r'.resolved.get? q).isSome = _
    rw [h.resolved q, Option.isSome_map]
    rfl

theorem lookupTarget {target : LinkTarget} (keeps : ∀ n, target = .id n → Fixed n) :
    r'.lookupTarget target = (r.lookupTarget target).map ρ := by
  cases target with
  | name key =>
    change ((r'.names.resolve key).unique?.bind (r'.panes[·]?)).bind r'.lookup = _
    rw [h.names, h.panes, Registry.lookupTarget, Option.map_bind]
    refine Option.bind_congr fun ref hr => ?_
    obtain ⟨i, -, hi⟩ := Option.bind_eq_some_iff.1 hr
    exact h.lookup (List.mem_of_getElem? hi)
  | id n =>
    have fixed := fun a ha => h.fixed a ha n (keeps n rfl)
    simp only [Registry.lookupTarget, List.contains_iff_mem, h.known, List.mem_map]
    by_cases hn : n ∈ r.known
    · rw [if_pos hn, if_pos ⟨n, hn, (fixed n hn).2 rfl⟩, Option.map_some, (fixed n hn).2 rfl]
    · rw [if_neg hn, if_neg]
      · rfl
      · rintro ⟨a, ha, same⟩
        exact hn ((fixed a ha).1 same ▸ ha)

theorem targetPane? {target : LinkTarget} (keeps : ∀ n, target = .id n → Fixed n) :
    r'.targetPane? target = r.targetPane? target := by
  cases target with
  | name key =>
    change (r'.names.resolve key).unique? = _
    rw [h.names]
    rfl
  | id n =>
    unfold Registry.targetPane?
    rw [h.panes]
    refine findIdx?_congr fun ref hr => ?_
    rw [h.lookup hr, decide_eq_decide]
    cases found : r.lookup ref with
    | none => simp
    | some a =>
      have known := h.mem_known_of_lookup hr found
      rw [Option.map_some, Option.some.injEq, Option.some.injEq]
      exact h.fixed a known n (keeps n rfl)

theorem isResolvable {l : PendingLink} (keeps : ∀ n, l.target = .id n → Fixed n) :
    r'.isResolvable l = r.isResolvable l := by
  unfold Registry.isResolvable
  rw [h.lookup_isSome, h.lookupTarget keeps, Option.isSome_map]

theorem mem_known_of_lookupTarget {target : LinkTarget} {a : SectionId}
    (ha : r.lookupTarget target = some a) : a ∈ r.known := by
  cases target with
  | name key =>
    obtain ⟨i, ref, -, hi, ha⟩ := Registry.lookupTarget_name ha
    exact h.mem_known_of_lookup (List.mem_of_getElem? hi) ha
  | id n =>
    obtain ⟨rfl, known⟩ := Registry.lookupTarget_id ha
    exact known

theorem resolve {q : PlaceholderId} {a b : SectionId} (pair : ρ a = b)
    (apart : ∀ n, Fixed n → (b = n ↔ a = n)) :
    (r.resolve q a).Renamed ρ Fixed (r'.resolve q b) where
  panes := h.panes
  names := h.names
  pending := h.pending
  resolved p := by
    change (r'.resolved.insert q b).get? p = ((r.resolved.insert q a).get? p).map ρ
    rw [SortedMap.get?_insert, SortedMap.get?_insert, h.resolved]
    split
    · rw [Option.map_some, pair]
    · rfl
  known := by
    change b :: r'.known = (a :: r.known).map ρ
    rw [List.map_cons, pair, h.known]
  fixed := by
    refine List.forall_mem_cons.2 ⟨?_, h.fixed⟩
    rw [pair]
    exact apart
  real id mem := ⟨(h.real id mem).1, List.mem_cons_of_mem _ (h.real id mem).2⟩
  given p c hc := by
    change (r.resolved.insert q a).get? p = some c at hc
    rw [SortedMap.get?_insert] at hc
    split at hc
    · obtain rfl := Option.some.inj hc
      exact List.mem_cons_self
    · exact List.mem_cons_of_mem _ (h.given p c hc)

/-- The queue may be changed on both sides. -/
theorem requeue {q q' : List PendingLink} (same : q' = q) :
    Renamed ρ Fixed { r with pending := q } { r' with pending := q' } where
  panes := h.panes
  names := h.names
  pending := same
  resolved := h.resolved
  known := h.known
  fixed := h.fixed
  real := h.real
  given := h.given

theorem drain (keeps : ∀ l ∈ r.pending, ∀ n, l.target = .id n → Fixed n) :
    r'.drain.1 = r.drain.1 ∧ r.drain.2.Renamed ρ Fixed r'.drain.2 := by
  have ready : ∀ l ∈ r.pending, r'.isResolvable l = r.isResolvable l :=
    fun l hl => h.isResolvable (keeps l hl)
  unfold Registry.drain
  rw [h.pending]
  refine ⟨List.filter_congr ready, h.requeue (List.filter_congr fun l hl => ?_)⟩
  rw [ready l hl]

end Renamed
end Registry
end PaneLayout
