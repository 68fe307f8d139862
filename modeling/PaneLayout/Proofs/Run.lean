import PaneLayout.Client

set_option autoImplicit false

/-!
# What a run ends in

A run ends in a value or in an error, and leaves a state in both cases. `Run.Yields` speaks of the
two endings at once, so that one statement about an operation also says why it can fail.
-/

namespace PaneLayout

section
variable {ε β γ : Type}

theorem bind_ok_iff {x : Except ε β} {f : β → Except ε γ} {c : γ} :
    (x >>= f) = .ok c ↔ ∃ b, x = .ok b ∧ f b = .ok c := by
  cases x <;> simp [bind, Except.bind]

theorem bind_error_iff {x : Except ε β} {f : β → Except ε γ} {e : ε} :
    (x >>= f) = .error e ↔ x = .error e ∨ ∃ b, x = .ok b ∧ f b = .error e := by
  cases x <;> simp [bind, Except.bind]

theorem exists_ok_of_test {σ : Type} {x : Except ε β × σ} (test : β → σ → Bool)
    (h : (match x with | (.ok b, s) => test b s | (.error _, _) => false) = true) :
    ∃ b s, x = (.ok b, s) ∧ test b s = true := by
  rcases x with ⟨_ | b, s⟩
  · cases h
  · exact ⟨b, s, rfl, h⟩

theorem exists_error_of_test {σ : Type} {x : Except ε β × σ} (test : ε → σ → Bool)
    (h : (match x with | (.ok _, _) => false | (.error e, s) => test e s) = true) :
    ∃ e s, x = (.error e, s) ∧ test e s = true := by
  rcases x with ⟨e | _, s⟩
  · exact ⟨e, s, rfl, h⟩
  · cases h

theorem pure_ok_iff {b c : β} : (pure b : Except ε β) = .ok c ↔ b = c := by simp [pure, Except.pure]

end

namespace Run

variable {σ ε ε' β γ : Type}

/-! ## Running -/

theorem start_get (s : σ) : (get : Run σ ε σ).start s = (.ok s, s) := rfl

theorem start_modify (f : σ → σ) (s : σ) :
    (modify f : Run σ ε PUnit).start s = (.ok ⟨⟩, f s) := rfl

theorem start_bind (x : Run σ ε β) (f : β → Run σ ε γ) (s : σ) :
    (x >>= f).start s = match x.start s with
      | (.ok b, t) => (f b).start t
      | (.error e, t) => (.error e, t) := by
  simp only [start, ExceptT.run_bind]
  change StateT.bind _ _ s = _
  rw [StateT.bind]
  rcases h : x.run s with ⟨r, t⟩
  cases r <;> rfl

/-- What is made of the value leaves the state as it is. -/
theorem end_bind_pure (x : Run σ ε β) (f : β → γ) (s : σ) :
    ((x >>= fun b => pure (f b)).start s).2 = (x.start s).2 := by
  rw [start_bind]
  rcases x.start s with ⟨_ | _, _⟩ <;> rfl

theorem start_ofReply (call : σ → Reply σ β) (onFault : Fault → ε) (s : σ) :
    (ofReply call onFault).start s = match call s with
      | (.ok b, t) => (.ok b, t)
      | (.error f, t) => (.error (onFault f), t) := rfl

theorem start_adapt (f : ε → ε') (x : Run σ ε β) (s : σ) :
    Run.start (ExceptT.adapt f x : Run σ ε' β) s = ((x.start s).1.mapError f, (x.start s).2) := rfl

/-! ## Both endings -/

/-- Started in `s`, the run ends in a value with `Q` or in an error with `E`; both also see the
state it leaves. -/
def Yields (x : Run σ ε β) (s : σ) (Q : β → σ → Prop) (E : ε → σ → Prop) : Prop :=
  match x.start s with
  | (.ok b, t) => Q b t
  | (.error e, t) => E e t

variable {x : Run σ ε β} {s t : σ} {Q Q' : β → σ → Prop} {E E' : ε → σ → Prop}

theorem Yields.of_ok {b : β} (h : x.start s = (.ok b, t)) (q : Q b t) : x.Yields s Q E := by
  unfold Yields
  rw [h]
  exact q

theorem Yields.of_error {e : ε} (h : x.start s = (.error e, t)) (q : E e t) : x.Yields s Q E := by
  unfold Yields
  rw [h]
  exact q

theorem Yields.ok {b : β} (h : x.Yields s Q E) (run : x.start s = (.ok b, t)) : Q b t := by
  unfold Yields at h
  rwa [run] at h

theorem Yields.error {e : ε} (h : x.Yields s Q E) (run : x.start s = (.error e, t)) : E e t := by
  unfold Yields at h
  rwa [run] at h

theorem Yields.mono (h : x.Yields s Q E) (hQ : ∀ b t, Q b t → Q' b t) (hE : ∀ e t, E e t → E' e t) :
    x.Yields s Q' E' := by
  rcases run : x.start s with ⟨_ | _, t⟩
  · exact .of_error run (hE _ _ (h.error run))
  · exact .of_ok run (hQ _ _ (h.ok run))

theorem Yields.and (h : x.Yields s Q E) (h' : x.Yields s Q' E') :
    x.Yields s (fun b t => Q b t ∧ Q' b t) fun e t => E e t ∧ E' e t := by
  rcases run : x.start s with ⟨_ | _, t⟩
  · exact .of_error run ⟨h.error run, h'.error run⟩
  · exact .of_ok run ⟨h.ok run, h'.ok run⟩

/-- What is true of both endings is true of the state that is left. -/
theorem yields_end_iff {C : σ → Prop} :
    x.Yields s (fun _ t => C t) (fun _ t => C t) ↔ C (x.start s).2 := by
  unfold Yields
  rcases x.start s with ⟨_ | _, t⟩ <;> exact Iff.rfl

theorem yields_trivial (x : Run σ ε β) (s : σ) : x.Yields s (fun _ _ => True) fun _ _ => True := by
  unfold Yields
  split <;> trivial

theorem yields_bind {f : β → Run σ ε γ} {R : γ → σ → Prop} :
    (x >>= f).Yields s R E ↔ x.Yields s (fun b t => (f b).Yields t R E) E := by
  unfold Yields
  rw [start_bind]
  rcases x.start s with ⟨_ | _, t⟩ <;> exact Iff.rfl

theorem yields_ofReply {call : σ → Reply σ β} {onFault : Fault → ε} :
    (ofReply call onFault).Yields s Q E ↔
      match call s with
      | (.ok b, t) => Q b t
      | (.error f, t) => E (onFault f) t := by
  unfold Yields
  rw [start_ofReply]
  rcases call s with ⟨_ | _, t⟩ <;> exact Iff.rfl

theorem yields_adapt {f : ε → ε'} {E : ε' → σ → Prop} :
    Run.Yields (ExceptT.adapt f x : Run σ ε' β) s Q E ↔ x.Yields s Q fun e t => E (f e) t := by
  unfold Yields
  rw [start_adapt]
  rcases x.start s with ⟨_ | _, t⟩ <;> exact Iff.rfl

end Run
end PaneLayout
