import PaneLayout.Layout.Names
import PaneLayout.Proofs.SortedMap

set_option autoImplicit false

/-!
# What a name denotes

The panes that carry a key in one of their fields, and which of the fields decides. The index of a
layout answers by this, though it is filled one pane at a time.
-/

namespace PaneLayout

/-- One pane, or several that cannot be told apart. -/
def NameMatch.among? : List Nat → Option NameMatch
  | [] => none
  | [i] => some (.unique i)
  | i :: j :: is => some (.ambiguous (i :: j :: is))

/-- The indices of the panes whose field holds the key, counted from `i`. -/
def Pane.carriers (field : Pane → Option String) (key : String) (i : Nat) (ps : List Pane) :
    List Nat :=
  ((ps.zipIdx i).filter fun x => field x.1 = some key).map (·.2)

theorem Pane.carriers_cons (field : Pane → Option String) (key : String) (i : Nat) (p : Pane)
    (ps : List Pane) : carriers field key i (p :: ps) =
      (if field p = some key then [i] else []) ++ carriers field key (i + 1) ps := by
  unfold carriers
  rw [List.zipIdx_cons, List.filter_cons]
  by_cases here : field p = some key <;> simp [here]

/-- What a key denotes among the panes: the first field decides in which some pane holds it. -/
def Pane.denoted (ps : List Pane) (key : String) : NameMatch :=
  if key = "" then .missing
  else (NameMatch.among? (carriers name key 0 ps) <|> NameMatch.among? (carriers title key 0 ps)
    <|> NameMatch.among? (carriers table? key 0 ps)).getD .missing

def Layout.denoted {α : Type} (t : Layout α) : String → NameMatch := Pane.denoted t.panes

namespace NameTier

variable {tier : NameTier} {field : Pane → Option String} {key : String}

/-- The panes that are known under the key. -/
def known (tier : NameTier) (key : String) : List Nat := (tier.get? key).getD []

theorem resolve?_eq (tier : NameTier) (key : String) :
    resolve? tier key = NameMatch.among? (known tier key) := by
  unfold resolve? known
  rcases tier.get? key with _ | _ | ⟨i, _ | ⟨j, is⟩⟩ <;> rfl

def addFrom (tier : NameTier) (field : Pane → Option String) (i : Nat) : List Pane → NameTier
  | [] => tier
  | p :: ps => addFrom (add tier i (field p)) field (i + 1) ps

theorem known_add_of_ne {k : String} (ne : key ≠ k) (i : Nat) :
    known (add tier i (some k)) key = known tier key := by
  rw [add]
  dsimp only
  split
  · rfl
  · split
    · rfl
    · rw [known, SortedMap.get?_insert_of_ne _ _ ne]
      rfl

theorem known_add {i : Nat} (named : key ≠ "") (new : i ∉ known tier key) (text : Option String) :
    known (add tier i text) key = known tier key ++ if text = some key then [i] else [] := by
  cases text with
  | none => exact (List.append_nil _).symm
  | some k =>
    by_cases same : k = key
    · subst same
      have unheld : ¬ ((tier.get? k).getD []).contains i = true := fun held =>
        new (List.contains_iff_mem.1 held)
      rw [add, if_neg named, if_neg unheld, if_pos rfl, known, SortedMap.get?_insert_self]
      rfl
    · have other : ¬ some k = some key := fun eq => same (Option.some.inj eq)
      rw [known_add_of_ne (Ne.symm same), if_neg other, List.append_nil]

/-- The empty text is no name. -/
theorem known_add_empty (i : Nat) (text : Option String) :
    known (add tier i text) "" = known tier "" := by
  cases text with
  | none => rfl
  | some k =>
    by_cases blank : k = ""
    · subst blank
      rfl
    · exact known_add_of_ne (Ne.symm blank) i

theorem known_addFrom (named : key ≠ "") {i : Nat} (old : ∀ j ∈ known tier key, j < i)
    (ps : List Pane) :
    known (addFrom tier field i ps) key = known tier key ++ Pane.carriers field key i ps := by
  induction ps generalizing tier i with
  | nil => exact (List.append_nil _).symm
  | cons p ps ih =>
    have new : i ∉ known tier key := fun held => Nat.lt_irrefl i (old i held)
    have added := known_add named new (field p)
    have older : ∀ j ∈ known (add tier i (field p)) key, j < i + 1 := by
      intro j hj
      rw [added, List.mem_append] at hj
      rcases hj with hj | hj
      · exact Nat.lt_succ_of_lt (old j hj)
      · split at hj
        · rw [List.mem_singleton.1 hj]
          exact Nat.lt_succ_self i
        · cases hj
    rw [addFrom, ih older, added, Pane.carriers_cons, List.append_assoc]

theorem known_addFrom_empty (i : Nat) (ps : List Pane) :
    known (addFrom tier field i ps) "" = known tier "" := by
  induction ps generalizing tier i with
  | nil => rfl
  | cons p ps ih => rw [addFrom, ih, known_add_empty]

end NameTier

namespace NameIndex

theorem addFrom_eq (index : NameIndex) (i : Nat) (ps : List Pane) : index.addFrom i ps =
    ⟨NameTier.addFrom index.names Pane.name i ps, NameTier.addFrom index.titles Pane.title i ps,
      NameTier.addFrom index.tables Pane.table? i ps⟩ := by
  induction ps generalizing index i with
  | nil => rfl
  | cons p ps ih =>
    rw [addFrom, ih]
    rfl

theorem resolve_ofPanes (ps : List Pane) (key : String) :
    (ofPanes ps).resolve key = Pane.denoted ps key := by
  rw [ofPanes, addFrom_eq, resolve, NameTier.resolve?_eq, NameTier.resolve?_eq,
    NameTier.resolve?_eq, Pane.denoted]
  by_cases blank : key = ""
  · subst blank
    rw [NameTier.known_addFrom_empty, NameTier.known_addFrom_empty, NameTier.known_addFrom_empty]
    rfl
  · have fresh : ∀ j ∈ NameTier.known ∅ key, j < 0 := fun j none => nomatch none
    rw [if_neg blank]
    change (NameMatch.among? (NameTier.known (NameTier.addFrom ∅ Pane.name 0 ps) key) <|>
      NameMatch.among? (NameTier.known (NameTier.addFrom ∅ Pane.title 0 ps) key) <|>
      NameMatch.among? (NameTier.known (NameTier.addFrom ∅ Pane.table? 0 ps) key)).getD .missing = _
    rw [NameTier.known_addFrom blank fresh, NameTier.known_addFrom blank fresh,
      NameTier.known_addFrom blank fresh]
    rfl

end NameIndex
end PaneLayout
