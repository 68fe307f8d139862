import PaneLayout.Compile
import PaneLayout.Proofs.Applied
import PaneLayout.Proofs.Native

set_option autoImplicit false

/-!
# The bundle of a plan

Once every pane has a section a plan has a page and a bundle, and both are read off the list of
sections. On the widget of a pane the bundle does what `Compile.settledWidget` works out without
it.
-/

namespace PaneLayout

variable {α : Type}

/-- What the bundle reads of a pane besides its section. -/
def PanePlan.texts (p : PanePlan) : Nat × Option String × Option String :=
  (p.index, p.title, p.description)

namespace Mutation

def links (ss : List SectionId) (es : List (Nat × LinkTuple)) : List (Mutation α) :=
  es.filterMap fun e => ss[e.1]?.map fun id => .setLink id e.2

def texts (ss : List SectionId) (ts : List (Nat × Option String × Option String)) :
    List (Mutation α) :=
  ts.filterMap fun e => if e.2.1.isNone && e.2.2.isNone then none
    else ss[e.1]?.map fun id => .setSectionInfo id e.2.1 e.2.2

theorem links_cons {ss : List SectionId} {e : Nat × LinkTuple} {id : SectionId}
    (h : ss[e.1]? = some id) (es : List (Nat × LinkTuple)) :
    (links ss (e :: es) : List (Mutation α)) = .setLink id e.2 :: links ss es := by
  unfold links
  rw [List.filterMap_cons, h]
  rfl

theorem texts_cons_bare {e : Nat × Option String × Option String}
    (h : (e.2.1.isNone && e.2.2.isNone) = true) (ss : List SectionId)
    (ts : List (Nat × Option String × Option String)) :
    (texts ss (e :: ts) : List (Mutation α)) = texts ss ts := by
  unfold texts
  rw [List.filterMap_cons, if_pos h]

theorem texts_cons_told {ss : List SectionId} {e : Nat × Option String × Option String}
    {id : SectionId} (h : ¬ (e.2.1.isNone && e.2.2.isNone) = true) (hi : ss[e.1]? = some id)
    (ts : List (Nat × Option String × Option String)) :
    (texts ss (e :: ts) : List (Mutation α)) =
      .setSectionInfo id e.2.1 e.2.2 :: texts ss ts := by
  unfold texts
  rw [List.filterMap_cons, if_neg h, hi]
  rfl

end Mutation

/-- Where all values are there, each of the arguments has one. -/
theorem exists_of_map_some {β γ : Type} {f : β → Option γ} {xs : List β} {ys : List γ}
    (h : xs.map f = ys.map some) {x : β} (hx : x ∈ xs) : ∃ y, f x = some y := by
  have mem := List.mem_map_of_mem (f := f) hx
  rw [h] at mem
  obtain ⟨y, -, hy⟩ := List.mem_map.1 mem
  exact ⟨y, hy.symm⟩

namespace Plan

/-- The sections `ss` of all panes. -/
structure Assigned (plan : Plan α) (ss : List SectionId) : Prop where
  panes : plan.panes.map (fun p => plan.registry.lookup p.ref) = ss.map some
  leaves : plan.layout.leaves.map plan.registry.lookup = ss.map some

variable {plan : Plan α} {ss : List SectionId}

theorem Assigned.length (h : plan.Assigned ss) : plan.panes.length = ss.length := by
  have same := congrArg List.length h.panes
  rwa [List.length_map, List.length_map] at same

theorem Assigned.sectionOf (h : plan.Assigned ss) {i : Nat} {id : SectionId}
    (hi : ss[i]? = some id) : plan.sectionOf i = .ok id := by
  have found := congrArg (·[i]?) h.panes
  simp only [List.getElem?_map, hi] at found
  obtain ⟨p, hp, hl⟩ := Option.map_eq_some_iff.1 found
  unfold Plan.sectionOf
  rw [hp, Option.bind_some, hl]

/-! ## The page -/

def leafSection (r : Registry) (ref : PaneRef) : Except CompileError SectionId :=
  match r.lookup ref with
  | some id => .ok id
  | none => .error (.malformed (.unresolvedPlaceholder ref.text))

theorem toOption_leafSection (r : Registry) (ref : PaneRef) :
    (leafSection r ref).toOption = r.lookup ref := by
  unfold leafSection
  cases r.lookup ref <;> rfl

theorem nativeLayout_ok {n : Native α SectionId} (h : plan.nativeLayout = .ok n) :
    n.shape = plan.layout.shape ∧
      plan.layout.leaves.map plan.registry.lookup = n.leaves.map some := by
  obtain ⟨shape, leaves⟩ := Native.mapLeaves_ok h
  refine ⟨shape, ?_⟩
  have same := congrArg (List.map Except.toOption) leaves
  have looked : Except.toOption ∘ leafSection plan.registry = plan.registry.lookup :=
    funext (toOption_leafSection plan.registry)
  rw [List.map_map, List.map_map] at same
  exact looked ▸ same

theorem nativeLayout_eq (h : plan.Assigned ss) :
    ∃ n, plan.nativeLayout = .ok n ∧ n.leaves = ss ∧ n.shape = plan.layout.shape := by
  have total : ∀ ref ∈ plan.layout.leaves, ∃ id, leafSection plan.registry ref = .ok id := by
    intro ref hr
    obtain ⟨id, hid⟩ := exists_of_map_some h.leaves hr
    exact ⟨id, by rw [leafSection, hid]⟩
  obtain ⟨n, hn⟩ := Native.mapLeaves_total total
  obtain ⟨shape, leaves⟩ := nativeLayout_ok hn
  rw [h.leaves] at leaves
  exact ⟨n, hn, (List.map_inj_right fun _ _ => Option.some.inj).1 leaves.symm, shape⟩

/-! ## The mutations -/

theorem linkMutations_eq (h : plan.Assigned ss) {es : List (Nat × LinkTuple)}
    (hes : ∀ e ∈ es, e.1 < ss.length) : plan.linkMutations es = .ok (Mutation.links ss es) := by
  induction es with
  | nil => rfl
  | cons e es ih =>
    obtain ⟨he, hes⟩ := List.forall_mem_cons.1 hes
    have hi : ss[e.1]? = some ss[e.1] := List.getElem?_eq_getElem he
    have here : plan.sectionOf e.1 = .ok ss[e.1] := h.sectionOf hi
    rw [linkMutations, here, ih hes, Mutation.links_cons hi]
    rfl

theorem textMutations_eq (h : plan.Assigned ss) {ps : List PanePlan}
    (hps : ∀ p ∈ ps, p.index < ss.length) :
    plan.textMutations ps = .ok (Mutation.texts ss (ps.map (·.texts))) := by
  induction ps with
  | nil => rfl
  | cons p ps ih =>
    obtain ⟨hp, hps⟩ := List.forall_mem_cons.1 hps
    have hi : ss[p.index]? = some ss[p.index] := List.getElem?_eq_getElem hp
    have here : plan.sectionOf p.index = .ok ss[p.index] := h.sectionOf hi
    rw [textMutations, List.map_cons]
    split
    · next bare => rw [ih hps, Mutation.texts_cons_bare bare]
    · next told =>
      rw [here, ih hps, Mutation.texts_cons_told told hi]
      rfl

theorem mutations_eq (h : plan.Assigned ss) (view : ViewRef) (layout : Native α SectionId)
    {tuples : SortedMap Nat LinkTuple} (ht : ∀ i, tuples.contains i = true → i < ss.length)
    (hp : ∀ p ∈ plan.panes, p.index < ss.length) :
    plan.mutations view layout tuples = .ok (.setLayout view layout ::
      (Mutation.links ss tuples.toList ++ Mutation.texts ss (plan.panes.map (·.texts)))) := by
  have he : ∀ e ∈ tuples.toList, e.1 < ss.length := by
    intro e he
    refine ht e.1 (Option.isSome_iff_exists.2 ⟨e.2, ?_⟩)
    exact SortedMap.get?_eq_some_iff.2 he
  rw [mutations, linkMutations_eq h he, textMutations_eq h hp]
  rfl

end Plan

/-! ## What the bundle does to a widget -/

namespace Mutation

variable {ss : List SectionId} {i : Nat} {id : SectionId}

theorem touchAll_append (ms ns : List (Mutation α)) (id : SectionId) (w : WidgetInfo) :
    touchAll (ms ++ ns) id w = touchAll ns id (touchAll ms id w) := List.foldl_append

/-- Of entries with distinct keys only the one with key `i` acts on the widget of pane `i`. -/
theorem foldl_find {β : Type} (act : β → WidgetInfo → WidgetInfo) {es : List (Nat × β)}
    (keys : (es.map (·.1)).Nodup) (w : WidgetInfo) :
    es.foldl (fun w e => if i = e.1 then act e.2 w else w) w =
      (SortedMap.find i es).elim w fun b => act b w := by
  induction es generalizing w with
  | nil => rfl
  | cons e es ih =>
    obtain ⟨apart, keys⟩ := List.nodup_cons.1 keys
    rw [List.foldl_cons, ih keys, SortedMap.find]
    by_cases same : i = e.1
    · have none : SortedMap.find i es = none := by
        apply SortedMap.find_eq_none
        intro e' he' eq
        exact apart (List.mem_map.2 ⟨e', he', eq.trans same⟩)
      rw [none, if_pos same, if_pos same]
      rfl
    · rw [if_neg same, if_neg same]

theorem getElem?_eq_iff (distinct : ss.Nodup) (hi : ss[i]? = some id) (k : Nat) :
    ss[k]? = some id ↔ i = k := by
  obtain ⟨bound, -⟩ := List.getElem?_eq_some_iff.1 hi
  rw [← hi, eq_comm]
  exact List.getElem?_inj bound distinct

theorem touchAll_links (distinct : ss.Nodup) (hi : ss[i]? = some id)
    {es : List (Nat × LinkTuple)} (keys : (es.map (·.1)).Nodup) (w : WidgetInfo) :
    touchAll (links ss es : List (Mutation α)) id w =
      (SortedMap.find i es).elim w fun t => w.withLink (some t) := by
  rw [← foldl_find (fun t w => w.withLink (some t)) keys w]
  clear keys
  induction es generalizing w with
  | nil => rfl
  | cons e es ih =>
    have own := getElem?_eq_iff distinct hi e.1
    rw [List.foldl_cons, ← ih]
    cases hk : ss[e.1]? with
    | none =>
      rw [hk] at own
      rw [if_neg fun same => by simpa using own.2 same, links, List.filterMap_cons, hk]
      rfl
    | some j =>
      rw [hk, Option.some.injEq] at own
      rw [links_cons hk]
      change touchAll (links ss es) id (touch id w (.setLink j e.2 : Mutation α)) = _
      simp only [touch, own]

theorem touchAll_texts (distinct : ss.Nodup) (hi : ss[i]? = some id)
    {ts : List (Nat × Option String × Option String)} (keys : (ts.map (·.1)).Nodup)
    (w : WidgetInfo) : touchAll (texts ss ts : List (Mutation α)) id w =
      (SortedMap.find i ts).elim w fun told => w.withTexts told.1 told.2 := by
  rw [← foldl_find (fun told w => w.withTexts told.1 told.2) keys w]
  clear keys
  induction ts generalizing w with
  | nil => rfl
  | cons e ts ih =>
    have own := getElem?_eq_iff distinct hi e.1
    rw [List.foldl_cons, ← ih]
    by_cases bare : (e.2.1.isNone && e.2.2.isNone) = true
    · have nothing : w.withTexts e.2.1 e.2.2 = w := by
        simp only [Bool.and_eq_true, Option.isNone_iff_eq_none] at bare
        simp [WidgetInfo.withTexts, bare.1, bare.2]
      rw [texts_cons_bare bare, nothing, ite_self]
    · cases hk : ss[e.1]? with
      | none =>
        rw [hk] at own
        rw [if_neg fun same => by simpa using own.2 same, texts, List.filterMap_cons, if_neg bare, hk]
        rfl
      | some j =>
        rw [hk, Option.some.injEq] at own
        rw [texts_cons_told bare hk]
        change touchAll (texts ss ts) id (touch id w (.setSectionInfo j e.2.1 e.2.2 : Mutation α)) = _
        simp only [touch, own]

theorem touchAll_of_untouched {ms : List (Mutation α)}
    (h : ∀ m ∈ ms, ∀ w, touch id w m = w) (w : WidgetInfo) : touchAll ms id w = w := by
  induction ms with
  | nil => rfl
  | cons m ms ih =>
    obtain ⟨hm, hms⟩ := List.forall_mem_cons.1 h
    change touchAll ms id (touch id w m) = w
    rw [hm w, ih hms]

theorem mem_links {es : List (Nat × LinkTuple)} {m : Mutation α} :
    m ∈ links ss es ↔ ∃ i t j, (i, t) ∈ es ∧ ss[i]? = some j ∧ m = .setLink j t := by
  simp only [links, List.mem_filterMap, Option.map_eq_some_iff]
  constructor
  · rintro ⟨⟨i, t⟩, he, j, hj, rfl⟩
    exact ⟨i, t, j, he, hj, rfl⟩
  · rintro ⟨i, t, j, he, hj, rfl⟩
    exact ⟨(i, t), he, j, hj, rfl⟩

theorem mem_texts {ts : List (Nat × Option String × Option String)} {m : Mutation α}
    (h : m ∈ texts ss ts) : ∃ i a b j, (i, a, b) ∈ ts ∧ ss[i]? = some j ∧
      m = .setSectionInfo j a b := by
  simp only [texts, List.mem_filterMap] at h
  obtain ⟨⟨i, a, b⟩, he, hm⟩ := h
  split at hm
  · cases hm
  · obtain ⟨j, hj, rfl⟩ := Option.map_eq_some_iff.1 hm
    exact ⟨i, a, b, j, he, hj, rfl⟩

end Mutation

def Plan.bundle (plan : Plan α) (ss : List SectionId) (view : ViewRef) (layout : Native α SectionId)
    (tuples : SortedMap Nat LinkTuple) : List (Mutation α) :=
  .setLayout view layout ::
    (Mutation.links ss tuples.toList ++ Mutation.texts ss (plan.panes.map (·.texts)))

namespace Plan

variable {plan : Plan α} {ss : List SectionId} {view : ViewRef} {layout : Native α SectionId}
  {tuples : SortedMap Nat LinkTuple}

theorem touchAll_bundle (distinct : ss.Nodup) {i : Nat} {id : SectionId} (hi : ss[i]? = some id)
    (numbered : ∀ (j : Nat) p, plan.panes[j]? = some p → p.index = j) {q : PanePlan}
    (hq : plan.panes[i]? = some q) (w : WidgetInfo) :
    Mutation.touchAll (plan.bundle ss view layout tuples) id w =
      Compile.settledWidget tuples q w := by
  have keys : ((plan.panes.map (·.texts)).map (·.1)).Nodup := by
    rw [List.map_map]
    have indices : plan.panes.map (Prod.fst ∘ PanePlan.texts) = List.range plan.panes.length := by
      apply List.ext_getElem
      · rw [List.length_map, List.length_range]
      · intro j hj _
        rw [List.length_map] at hj
        rw [List.getElem_map, List.getElem_range]
        exact numbered j _ (List.getElem?_eq_getElem hj)
    rw [indices]
    exact List.nodup_range
  have told : SortedMap.find i (plan.panes.map (·.texts)) = some (q.title, q.description) := by
    refine SortedMap.find_of_mem keys (List.mem_map.2 ⟨q, List.mem_of_getElem? hq, ?_⟩)
    rw [PanePlan.texts, numbered i q hq]
  change Mutation.touchAll (_ ++ _) id w = _
  rw [Mutation.touchAll_append, Mutation.touchAll_links distinct hi tuples.keys_nodup,
    Mutation.touchAll_texts distinct hi keys, told, Compile.settledWidget, numbered i q hq]
  have linked : SortedMap.find i tuples.toList = tuples.get? i := rfl
  rw [linked]
  cases tuples.get? i <;> rfl

theorem touchAll_bundle_of_notMem {id : SectionId} (h : id ∉ ss) (w : WidgetInfo) :
    Mutation.touchAll (plan.bundle ss view layout tuples) id w = w := by
  apply Mutation.touchAll_of_untouched
  intro m hm w
  rcases List.mem_cons.1 hm with rfl | hm
  · rfl
  · rcases List.mem_append.1 hm with hm | hm
    · obtain ⟨i, t, j, -, hj, rfl⟩ := Mutation.mem_links.1 hm
      have other : j ≠ id := fun same => h (same ▸ List.mem_of_getElem? hj)
      exact if_neg other
    · obtain ⟨i, a, b, j, -, hj, rfl⟩ := Mutation.mem_texts hm
      have other : j ≠ id := fun same => h (same ▸ List.mem_of_getElem? hj)
      exact if_neg other

end Plan

namespace Compile

variable {plan : Plan α} {ss : List SectionId} {s : Surroundings} {p : Progress}

theorem finalWidgets_total (h : plan.Assigned ss) {qs : List PanePlan}
    (hqs : ∀ q ∈ qs, q.index < ss.length) : ∃ ws, finalWidgets plan s p qs = .ok ws := by
  induction qs with
  | nil => exact ⟨[], rfl⟩
  | cons q qs ih =>
    obtain ⟨hq, hqs⟩ := List.forall_mem_cons.1 hqs
    obtain ⟨ws, hws⟩ := ih hqs
    have here : plan.sectionOf q.index = .ok ss[q.index] :=
      h.sectionOf (List.getElem?_eq_getElem hq)
    unfold finalWidgets
    rw [here, hws]
    simp only [bind, Except.bind]
    split <;> exact ⟨_, rfl⟩

/-- The widgets worked out without the document are those that `look` finds on it. -/
theorem finalWidgets_eq (h : plan.Assigned ss) (look : SectionId → Option WidgetInfo)
    {qs : List PanePlan} (found : ∀ q ∈ qs, ∃ id w, ss[q.index]? = some id ∧
      (p.created.find? (fun w => w.id == id) <|> s.widgets.get? id) = some w ∧
      look id = some (settledWidget p.tuples q w)) :
    ∃ ws, finalWidgets plan s p qs = .ok ws ∧
      ws.map some = qs.map fun q => (ss[q.index]?).bind look := by
  induction qs with
  | nil => exact ⟨[], rfl, rfl⟩
  | cons q qs ih =>
    obtain ⟨⟨id, w, hi, hw, hl⟩, found⟩ := List.forall_mem_cons.1 found
    obtain ⟨ws, hws, same⟩ := ih found
    refine ⟨settledWidget p.tuples q w :: ws, ?_, ?_⟩
    · rw [finalWidgets, h.sectionOf hi, hws]
      simp only [bind, Except.bind, hw]
      rfl
    · rw [List.map_cons, List.map_cons, same, hi, Option.bind_some, hl]

end Compile
end PaneLayout
