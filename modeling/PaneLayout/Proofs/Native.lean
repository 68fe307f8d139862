import PaneLayout.Native.Basic
import PaneLayout.Proofs.Run

set_option autoImplicit false

/-!
# Shape and leaves

A native page is determined by its shape, which is the page with its leaves left blank, and the
list of its leaves. Filling in leaves changes the list and keeps the shape.
-/

namespace PaneLayout.Native

variable {α ι κ : Type}

def shape : Native α ι → Native α Unit
  | leaf _ => leaf ()
  | split axis ratio a b => split axis ratio a.shape b.shape

theorem leaves_length_eq {a : Native α ι} {b : Native α κ} (h : a.shape = b.shape) :
    a.leaves.length = b.leaves.length := by
  induction a generalizing b with
  | leaf i =>
    cases b with
    | leaf j => rfl
    | split => simp [shape] at h
  | split axis ratio a₁ a₂ ih₁ ih₂ =>
    cases b with
    | leaf j => simp [shape] at h
    | split axis' ratio' b₁ b₂ =>
      simp only [shape, split.injEq] at h
      simp [leaves, ih₁ h.2.2.1, ih₂ h.2.2.2]

theorem depth_shape (n : Native α ι) : n.shape.depth = n.depth := by
  induction n with
  | leaf i => rfl
  | split axis ratio a b iha ihb => rw [shape, depth, iha, ihb, depth]

theorem eq_of_shape_of_leaves {a b : Native α ι} (hs : a.shape = b.shape)
    (hl : a.leaves = b.leaves) : a = b := by
  induction a generalizing b with
  | leaf i =>
    cases b with
    | leaf j => simpa [leaves] using hl
    | split => simp [shape] at hs
  | split axis ratio a₁ a₂ ih₁ ih₂ =>
    cases b with
    | leaf j => simp [shape] at hs
    | split axis' ratio' b₁ b₂ =>
      simp only [shape, split.injEq] at hs
      obtain ⟨rfl, rfl, h₁, h₂⟩ := hs
      obtain ⟨l₁, l₂⟩ := List.append_inj hl (leaves_length_eq h₁)
      rw [ih₁ h₁ l₁, ih₂ h₂ l₂]

/-! ## Filling in leaves -/

theorem mapLeaves_leaf {m : Type → Type} [Monad m] (f : ι → m κ) (i : ι) :
    (leaf i : Native α ι).mapLeaves f = (f i >>= fun k => pure (leaf k)) := rfl

theorem mapLeaves_split {m : Type → Type} [Monad m] (f : ι → m κ) (axis : Axis) (ratio : α)
    (a b : Native α ι) : (split axis ratio a b).mapLeaves f =
      (a.mapLeaves f >>= fun a => b.mapLeaves f >>= fun b => pure (split axis ratio a b)) := rfl

theorem mapLeaves_ok {ε : Type} {f : ι → Except ε κ} {n : Native α ι} {m : Native α κ}
    (h : n.mapLeaves f = .ok m) : m.shape = n.shape ∧ n.leaves.map f = m.leaves.map .ok := by
  induction n generalizing m with
  | leaf i =>
    rw [mapLeaves_leaf, bind_ok_iff] at h
    obtain ⟨k, hk, h⟩ := h
    obtain rfl := pure_ok_iff.1 h
    simp [shape, leaves, hk]
  | split axis ratio a b iha ihb =>
    simp only [mapLeaves_split, bind_ok_iff] at h
    obtain ⟨a', ha, b', hb, h⟩ := h
    obtain rfl := pure_ok_iff.1 h
    obtain ⟨sa, la⟩ := iha ha
    obtain ⟨sb, lb⟩ := ihb hb
    simp [shape, leaves, sa, sb, la, lb]

/-- What fails is the first leaf that has no value. -/
theorem mapLeaves_error {ε : Type} {f : ι → Except ε κ} {n : Native α ι} {e : ε}
    (h : n.mapLeaves f = .error e) : ∃ before i after, n.leaves = before ++ i :: after ∧
      (∀ j ∈ before, ∃ k, f j = .ok k) ∧ f i = .error e := by
  induction n with
  | leaf i =>
    rw [mapLeaves_leaf, bind_error_iff] at h
    rcases h with h | ⟨k, -, h⟩
    · exact ⟨[], i, [], rfl, nofun, h⟩
    · cases h
  | split axis ratio a b iha ihb =>
    rw [mapLeaves_split, bind_error_iff] at h
    rcases h with h | ⟨a', ha, h⟩
    · obtain ⟨before, i, after, held, fine, failed⟩ := iha h
      exact ⟨before, i, after ++ b.leaves, by simp [leaves, held], fine, failed⟩
    · rw [bind_error_iff] at h
      rcases h with h | ⟨b', -, h⟩
      · obtain ⟨before, i, after, held, fine, failed⟩ := ihb h
        refine ⟨a.leaves ++ before, i, after, by simp [leaves, held], fun j hj => ?_, failed⟩
        rcases List.mem_append.1 hj with hj | hj
        · have value : f j ∈ a.leaves.map f := List.mem_map_of_mem hj
          rw [(mapLeaves_ok ha).2] at value
          obtain ⟨k, -, hk⟩ := List.mem_map.1 value
          exact ⟨k, hk.symm⟩
        · exact fine j hj
      · cases h

theorem mapLeaves_total {ε : Type} {f : ι → Except ε κ} {n : Native α ι}
    (h : ∀ i ∈ n.leaves, ∃ k, f i = .ok k) : ∃ m, n.mapLeaves f = .ok m := by
  induction n with
  | leaf i =>
    obtain ⟨k, hk⟩ := h i (by simp [leaves])
    exact ⟨leaf k, by rw [mapLeaves_leaf, hk]; rfl⟩
  | split axis ratio a b iha ihb =>
    obtain ⟨a', ha⟩ := iha fun i hi => h i (by simp [leaves, hi])
    obtain ⟨b', hb⟩ := ihb fun i hi => h i (by simp [leaves, hi])
    exact ⟨split axis ratio a' b', by rw [mapLeaves_split, ha, hb]; rfl⟩

/-! ## Chains -/

section
variable [Scalar α]

theorem chainWeighted_map {ι κ : Type} (g : Native α ι → Native α κ)
    (hg : ∀ axis ratio a b, g (split axis ratio a b) = split axis ratio (g a) (g b))
    (axis : Axis) (cs : List (Native α ι × α)) :
    chainWeighted axis (cs.map fun c => (g c.1, c.2)) =
      (chainWeighted axis cs).map fun c => (g c.1, c.2) := by
  induction cs with
  | nil => rfl
  | cons c cs ih =>
    simp only [List.map_cons, chainWeighted, ih]
    cases chainWeighted axis cs with
    | none => rfl
    | some t => simp [hg]

theorem chain_shape (axis : Axis) (ns : List (Native α ι)) (ws : List α) :
    chain axis (ns.map shape) ws = (chain axis ns ws).map shape := by
  have h := chainWeighted_map shape (fun _ _ _ _ => rfl) axis (ns.zip ws)
  unfold chain
  rw [show (ns.map shape).zip ws = (ns.zip ws).map fun c => (c.1.shape, c.2) by
    rw [List.zip_map_left]; rfl, h]
  simp [Option.map_map, Function.comp_def]

/-- A chain is its only child, or its first child against the chain of the others. -/
theorem chainWeighted_cons_cases {axis : Axis} {c : Native α ι × α} {cs : List (Native α ι × α)}
    {n : Native α ι} {w : α} (h : chainWeighted axis (c :: cs) = some (n, w)) :
    (cs = [] ∧ n = c.1 ∧ w = c.2) ∨
    (∃ tail under, chainWeighted axis cs = some (tail, under) ∧
      n = split axis (c.2 / (c.2 + under)) c.1 tail ∧ w = c.2 + under) := by
  rw [chainWeighted] at h
  cases ht : chainWeighted axis cs with
  | none =>
    have last : cs = [] := by
      cases cs with
      | nil => rfl
      | cons d ds =>
        rw [chainWeighted] at ht
        split at ht <;> simp at ht
    rw [ht] at h
    obtain ⟨rfl, rfl⟩ := Prod.mk.inj (Option.some.inj h)
    exact .inl ⟨last, rfl, rfl⟩
  | some t =>
    rw [ht] at h
    obtain ⟨rfl, rfl⟩ := Prod.mk.inj (Option.some.inj h)
    exact .inr ⟨t.1, t.2, rfl, rfl, rfl⟩

theorem chainWeighted_leaves {axis : Axis} {cs : List (Native α ι × α)} {n : Native α ι} {w : α}
    (h : chainWeighted axis cs = some (n, w)) : n.leaves = cs.flatMap fun c => c.1.leaves := by
  induction cs generalizing n w with
  | nil => simp [chainWeighted] at h
  | cons c cs ih =>
    rcases chainWeighted_cons_cases h with ⟨rfl, rfl, -⟩ | ⟨tail, under, ht, rfl, -⟩
    · simp
    · rw [leaves, ih ht, List.flatMap_cons]

theorem chain_leaves {axis : Axis} {ns : List (Native α ι)} {ws : List α} {n : Native α ι}
    (len : ws.length = ns.length) (h : chain axis ns ws = some n) :
    n.leaves = ns.flatMap leaves := by
  unfold chain at h
  obtain ⟨⟨m, w⟩, hm, rfl⟩ := Option.map_eq_some_iff.1 h
  rw [chainWeighted_leaves hm]
  have hz : (ns.zip ws).map Prod.fst = ns := List.map_fst_zip (by omega)
  conv => rhs; rw [← hz]
  rw [List.flatMap_map]

theorem chain_isSome {axis : Axis} {ns : List (Native α ι)} {ws : List α}
    (len : ws.length = ns.length) (h : ns ≠ []) : (chain axis ns ws).isSome := by
  obtain ⟨n, ns, rfl⟩ := List.exists_cons_of_ne_nil h
  obtain ⟨w, ws, rfl⟩ := List.exists_cons_of_length_eq_add_one len
  simp only [chain, List.zip_cons_cons, chainWeighted]
  split <;> rfl

end
end PaneLayout.Native
