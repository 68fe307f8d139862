import PaneLayout.Proofs.Run

set_option autoImplicit false

/-!
# Two runs side by side

`Run.Pairs` speaks of two runs as `Run.Yields` speaks of one: they end alike, and what is said of
their endings is said of both at once.
-/

namespace PaneLayout.Run

variable {σ τ ε β γ δ κ : Type}

/-- Both runs end in values with `Q`, or both in errors with `E`. -/
inductive Pairs (x : Run σ ε β) (y : Run τ ε γ) (s : σ) (t : τ) (Q : β → γ → σ → τ → Prop)
    (E : ε → ε → σ → τ → Prop) : Prop
  | ok {b : β} {c : γ} {s' : σ} {t' : τ} : x.start s = (.ok b, s') → y.start t = (.ok c, t') →
    Q b c s' t' → Pairs x y s t Q E
  | error {e e' : ε} {s' : σ} {t' : τ} : x.start s = (.error e, s') →
    y.start t = (.error e', t') → E e e' s' t' → Pairs x y s t Q E

variable {x : Run σ ε β} {y : Run τ ε γ} {s : σ} {t : τ} {Q Q' : β → γ → σ → τ → Prop}
  {E E' : ε → ε → σ → τ → Prop}

theorem Pairs.mono (h : x.Pairs y s t Q E) (hQ : ∀ b c s' t', Q b c s' t' → Q' b c s' t')
    (hE : ∀ e e' s' t', E e e' s' t' → E' e e' s' t') : x.Pairs y s t Q' E' := by
  rcases h with ⟨hx, hy, q⟩ | ⟨hx, hy, e⟩
  · exact .ok hx hy (hQ _ _ _ _ q)
  · exact .error hx hy (hE _ _ _ _ e)

theorem Pairs.and {Q₁ : β → σ → Prop} {E₁ : ε → σ → Prop} {Q₂ : γ → τ → Prop} {E₂ : ε → τ → Prop}
    (h : x.Pairs y s t Q E) (h₁ : x.Yields s Q₁ E₁) (h₂ : y.Yields t Q₂ E₂) :
    x.Pairs y s t (fun b c s' t' => Q b c s' t' ∧ Q₁ b s' ∧ Q₂ c t')
      fun e e' s' t' => E e e' s' t' ∧ E₁ e s' ∧ E₂ e' t' := by
  rcases h with ⟨hx, hy, q⟩ | ⟨hx, hy, e⟩
  · exact .ok hx hy ⟨q, h₁.ok hx, h₂.ok hy⟩
  · exact .error hx hy ⟨e, h₁.error hx, h₂.error hy⟩

/-- Of runs that end in states with `C` it is enough to consider what follows up to such states. -/
theorem Pairs.bind_of_end {C : σ → τ → Prop} {f : β → Run σ ε δ} {g : γ → Run τ ε κ}
    {R : δ → κ → σ → τ → Prop} (h : x.Pairs y s t (fun b c s' t' =>
      C ((f b).start s').2 ((g c).start t').2 → (f b).Pairs (g c) s' t' R E) E)
    (ends : C ((x >>= f).start s).2 ((y >>= g).start t).2) :
    (x >>= f).Pairs (y >>= g) s t R E := by
  cases h with
  | @ok b c s' t' hx hy rest =>
    have hxf : (x >>= f).start s = (f b).start s' := by rw [start_bind, hx]
    have hyg : (y >>= g).start t = (g c).start t' := by rw [start_bind, hy]
    rw [hxf, hyg] at ends
    rcases rest ends with ⟨hf, hg, q⟩ | ⟨hf, hg, e⟩
    · exact .ok (hxf.trans hf) (hyg.trans hg) q
    · exact .error (hxf.trans hf) (hyg.trans hg) e
  | error hx hy e =>
    refine .error ?_ ?_ e
    · rw [start_bind, hx]
    · rw [start_bind, hy]

theorem Pairs.bind {f : β → Run σ ε δ} {g : γ → Run τ ε κ} {R : δ → κ → σ → τ → Prop}
    (h : x.Pairs y s t (fun b c s' t' => (f b).Pairs (g c) s' t' R E) E) :
    (x >>= f).Pairs (y >>= g) s t R E :=
  Pairs.bind_of_end (C := fun _ _ => True) (h.mono (fun _ _ _ _ next _ => next) fun _ _ _ _ => id)
    trivial

theorem Pairs.adapt {f g : ε → ε} (h : x.Pairs y s t Q fun e e' => E (f e) (g e')) :
    Run.Pairs (ExceptT.adapt f x : Run σ ε β) (ExceptT.adapt g y : Run τ ε γ) s t Q E := by
  rcases h with ⟨hx, hy, q⟩ | ⟨hx, hy, e⟩
  · refine .ok ?_ ?_ q
    · rw [start_adapt, hx]
      rfl
    · rw [start_adapt, hy]
      rfl
  · refine .error ?_ ?_ e
    · rw [start_adapt, hx]
      rfl
    · rw [start_adapt, hy]
      rfl

end PaneLayout.Run
