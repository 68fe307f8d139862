import PaneLayout.Proofs.Native
import PaneLayout.Proofs.Pairs

set_option autoImplicit false

/-!
# Visits to the leaves

What is seen of a page being filled in by calls that may fail and that share a state. The leaves are
visited once each, from left to right, and no leaf is visited after a call that failed.
-/

namespace PaneLayout

variable {α σ ε ι κ : Type} {f : ι → Run σ ε κ}

/-- The calls one after the other, each in the state that the one before it left. All of them give
values. -/
inductive Visits (f : ι → Run σ ε κ) : σ → List ι → List κ → σ → Prop
  | nil (s : σ) : Visits f s [] [] s
  | cons {s t u : σ} {i : ι} {is : List ι} {k : κ} {ks : List κ} :
    (f i).start s = (.ok k, t) → Visits f t is ks u → Visits f s (i :: is) (k :: ks) u

theorem Visits.append {s t u : σ} {is js : List ι} {ks ls : List κ} (h : Visits f s is ks t)
    (h' : Visits f t js ls u) : Visits f s (is ++ js) (ks ++ ls) u := by
  induction h with
  | nil s => exact h'
  | cons here _ ih => exact .cons here (ih h')

/-- The calls on `is` end with the one that fails. -/
def Halts (f : ι → Run σ ε κ) (s : σ) (is : List ι) (e : ε) (u : σ) : Prop :=
  ∃ before i ks t, is = before ++ [i] ∧ Visits f s before ks t ∧ (f i).start t = (.error e, u)

theorem Halts.after {s t u : σ} {is js : List ι} {ks : List κ} {e : ε} (first : Visits f s is ks t)
    (h : Halts f t js e u) : Halts f s (is ++ js) e u := by
  obtain ⟨before, i, ls, v, rfl, visits, failed⟩ := h
  exact ⟨is ++ before, i, ks ++ ls, v, (List.append_assoc ..).symm, first.append visits, failed⟩

/-- Notes down every call beside the state, whether or not it fails. -/
def noting (f : ι → Run σ ε κ) (i : ι) : Run (List ι × σ) ε κ :=
  ExceptT.mk fun s => (((f i).start s.2).1, s.1 ++ [i], ((f i).start s.2).2)

theorem start_noting (f : ι → Run σ ε κ) (i : ι) (called : List ι) (s : σ) :
    (noting f i).start (called, s) =
      (((f i).start s).1, called ++ [i], ((f i).start s).2) := rfl

namespace Native

/-- Noted down or not, the calls come to the same. The list of calls grows by all leaves, or by
those up to the failure. -/
theorem mapLeaves_pairs (f : ι → Run σ ε κ) (n : Native α ι) (called : List ι) (s : σ) :
    (n.mapLeaves (noting f)).Pairs (n.mapLeaves f) (called, s) s
      (fun m m' s' t => m = m' ∧ s' = (called ++ n.leaves, t) ∧
        Visits f s n.leaves m'.leaves t ∧ m'.shape = n.shape)
      (fun e e' s' t => e = e' ∧ ∃ is rest, n.leaves = is ++ rest ∧ s' = (called ++ is, t) ∧
        Halts f s is e' t) := by
  induction n generalizing called s with
  | leaf i =>
    rcases run : (f i).start s with ⟨e | k, t⟩
    · have noted : ((leaf i : Native α ι).mapLeaves (noting f)).start (called, s) =
          (.error e, called ++ [i], t) := by
        rw [mapLeaves_leaf, Run.start_bind, start_noting, run]
      have unnoted : ((leaf i : Native α ι).mapLeaves f).start s = (.error e, t) := by
        rw [mapLeaves_leaf, Run.start_bind, run]
      exact .error noted unnoted ⟨rfl, [i], [], rfl, rfl, [], i, [], s, rfl, .nil s, run⟩
    · have noted : ((leaf i : Native α ι).mapLeaves (noting f)).start (called, s) =
          (.ok (leaf k), called ++ [i], t) := by
        rw [mapLeaves_leaf, Run.start_bind, start_noting, run]
        rfl
      have unnoted : ((leaf i : Native α ι).mapLeaves f).start s = (.ok (leaf k), t) := by
        rw [mapLeaves_leaf, Run.start_bind, run]
        rfl
      exact .ok noted unnoted ⟨rfl, rfl, .cons run (.nil t), rfl⟩
  | split axis ratio a b iha ihb =>
    rw [mapLeaves_split, mapLeaves_split]
    refine Run.Pairs.bind ((iha called s).mono ?_ ?_)
    · rintro a' _ _ t ⟨rfl, rfl, first, shapeA⟩
      refine Run.Pairs.bind ((ihb (called ++ a.leaves) t).mono ?_ ?_)
      · rintro b' _ _ u ⟨rfl, rfl, second, shapeB⟩
        refine .ok rfl rfl ⟨rfl, ?_, first.append second, ?_⟩
        · rw [leaves, List.append_assoc]
        · rw [shape, shapeA, shapeB, shape]
      · rintro e _ _ u ⟨rfl, is, rest, held, rfl, halts⟩
        refine ⟨rfl, a.leaves ++ is, rest, ?_, ?_, halts.after first⟩
        · rw [leaves, held, List.append_assoc]
        · rw [List.append_assoc]
    · rintro e _ _ t ⟨rfl, is, rest, held, rfl, halts⟩
      refine ⟨rfl, is, rest ++ b.leaves, ?_, rfl, halts⟩
      rw [leaves, held, List.append_assoc]

/-- Either every leaf is visited, from left to right, and the page that comes of it has the values
for leaves, or the first call that fails is the last one that is made, and its error is returned. -/
theorem mapLeaves_visits (f : ι → Run σ ε κ) (n : Native α ι) (s : σ) :
    (∃ m t, (n.mapLeaves f).start s = (.ok m, t) ∧
      (n.mapLeaves (noting f)).start ([], s) = (.ok m, n.leaves, t) ∧
      Visits f s n.leaves m.leaves t ∧ m.shape = n.shape ∧ m.depth = n.depth) ∨
    ∃ before i after ks t e u, n.leaves = before ++ i :: after ∧
      Visits f s before ks t ∧ (f i).start t = (.error e, u) ∧
      (n.mapLeaves f).start s = (.error e, u) ∧
      (n.mapLeaves (noting f)).start ([], s) = (.error e, before ++ [i], u) := by
  cases n.mapLeaves_pairs f [] s with
  | @ok m' m s' t noted run h =>
    obtain ⟨rfl, rfl, visits, shape⟩ := h
    have depth : m'.depth = n.depth := by rw [← m'.depth_shape, shape, n.depth_shape]
    exact .inl ⟨m', t, run, noted, visits, shape, depth⟩
  | @error e' e s' u noted run h =>
    obtain ⟨rfl, _, after, held, rfl, before, i, ks, t, rfl, visits, failed⟩ := h
    rw [List.append_assoc] at held
    exact .inr ⟨before, i, after, ks, t, e', u, held, visits, failed, run, noted⟩

end Native
end PaneLayout
