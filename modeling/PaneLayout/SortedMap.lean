set_option autoImplicit false

/-!
# Sorted maps

Finite maps as entry lists in strictly increasing key order.

The order is a field of the type, so two maps with the same lookups are the same map
(`SortedMap.ext_get?`). `get?_insert` is the law the rest of the library reasons with.
-/

namespace PaneLayout

/-- A strict linear order on keys, decided by computation. -/
class KeyOrder (κ : Type) [DecidableEq κ] where
  before : κ → κ → Bool
  irrefl : ∀ a, before a a = false
  trans : ∀ {a b c}, before a b = true → before b c = true → before a c = true
  total : ∀ {a b}, a ≠ b → before a b = false → before b a = true

instance : KeyOrder Nat where
  before a b := decide (a < b)
  irrefl a := by simp
  trans h k := by simp at *; omega
  total h k := by simp at *; omega

/-- Strings are ordered by code point. -/
instance : KeyOrder String where
  before a b := decide (a < b)
  irrefl a := by simp
  trans h k := by simp only [decide_eq_true_eq] at *; exact String.lt_trans h k
  total {a b} h k := by
    simp only [decide_eq_false_iff_not, decide_eq_true_eq, String.not_lt] at *
    exact Decidable.byContradiction fun n => h (String.le_antisymm (String.not_lt.1 n) k)

/-- Keys with an injective rank are ordered by it. -/
@[reducible] def KeyOrder.ofRank {κ : Type} [DecidableEq κ] (rank : κ → Nat)
    (inj : ∀ {a b}, rank a = rank b → a = b) : KeyOrder κ where
  before a b := decide (rank a < rank b)
  irrefl a := by simp
  trans h k := by simp at *; omega
  total {a b} h k := by
    have : rank a ≠ rank b := fun e => h (inj e)
    simp at *; omega

structure SortedMap (κ ν : Type) [DecidableEq κ] [KeyOrder κ] where
  entries : List (κ × ν)
  sorted : entries.Pairwise fun a b => KeyOrder.before a.1 b.1 = true

namespace SortedMap

variable {κ ν : Type} [DecidableEq κ] [KeyOrder κ]

def empty : SortedMap κ ν := ⟨[], .nil⟩

instance : Inhabited (SortedMap κ ν) := ⟨empty⟩
instance : EmptyCollection (SortedMap κ ν) := ⟨empty⟩

theorem ext {m n : SortedMap κ ν} (h : m.entries = n.entries) : m = n := by
  cases m; cases n; cases h; rfl

instance [DecidableEq ν] : DecidableEq (SortedMap κ ν) := fun m n =>
  if h : m.entries = n.entries then .isTrue (ext h) else .isFalse fun e => h (e ▸ rfl)

def find (k : κ) : List (κ × ν) → Option ν
  | [] => none
  | e :: es => if k = e.1 then some e.2 else find k es

def get? (m : SortedMap κ ν) (k : κ) : Option ν := find k m.entries

def contains (m : SortedMap κ ν) (k : κ) : Bool := (m.get? k).isSome

def put (k : κ) (v : ν) : List (κ × ν) → List (κ × ν)
  | [] => [(k, v)]
  | e :: es =>
    if k = e.1 then (k, v) :: es
    else if KeyOrder.before k e.1 then (k, v) :: e :: es
    else e :: put k v es

theorem mem_put {k : κ} {v : ν} {x : κ × ν} {es : List (κ × ν)} (h : x ∈ put k v es) :
    x = (k, v) ∨ x ∈ es := by
  induction es with
  | nil => simp [put] at h; exact .inl h
  | cons e es ih => rw [put] at h; split at h <;> (try split at h) <;> grind

theorem put_sorted (k : κ) (v : ν) {es : List (κ × ν)}
    (h : es.Pairwise fun a b => KeyOrder.before a.1 b.1 = true) :
    (put k v es).Pairwise fun a b => KeyOrder.before a.1 b.1 = true := by
  induction es with
  | nil => simp [put]
  | cons e es ih =>
    have ⟨he, hes⟩ := List.pairwise_cons.1 h
    rw [put]
    split
    · next hk => exact List.pairwise_cons.2 ⟨fun x hx => hk ▸ he x hx, hes⟩
    · next hk =>
      split
      · next hb =>
        refine List.pairwise_cons.2 ⟨fun x hx => ?_, h⟩
        rcases List.mem_cons.1 hx with rfl | hx
        · exact hb
        · exact KeyOrder.trans hb (he x hx)
      · next hb =>
        refine List.pairwise_cons.2 ⟨fun x hx => ?_, ih hes⟩
        rcases mem_put hx with rfl | hx
        · exact KeyOrder.total hk (by simpa using hb)
        · exact he x hx

def insert (m : SortedMap κ ν) (k : κ) (v : ν) : SortedMap κ ν :=
  ⟨put k v m.entries, put_sorted k v m.sorted⟩

/-- Later entries replace earlier ones with the same key. -/
def ofList (es : List (κ × ν)) : SortedMap κ ν :=
  es.foldl (fun m e => m.insert e.1 e.2) empty

def toList (m : SortedMap κ ν) : List (κ × ν) := m.entries
def keys (m : SortedMap κ ν) : List κ := m.entries.map (·.1)
def values (m : SortedMap κ ν) : List ν := m.entries.map (·.2)
def size (m : SortedMap κ ν) : Nat := m.entries.length
def isEmpty (m : SortedMap κ ν) : Bool := m.entries.isEmpty

/-- Keeps the value a key already has. -/
def insertNew (m : SortedMap κ ν) (k : κ) (v : ν) : SortedMap κ ν :=
  if m.contains k then m else m.insert k v

@[simp] theorem get?_empty (k : κ) : (empty : SortedMap κ ν).get? k = none := rfl

theorem find_put (k j : κ) (v : ν) (es : List (κ × ν)) :
    find j (put k v es) = if j = k then some v else find j es := by
  induction es with
  | nil => simp [put, find]
  | cons e es ih => simp only [put]; split <;> (try split) <;> grind [find]

theorem get?_insert (m : SortedMap κ ν) (k j : κ) (v : ν) :
    (m.insert k v).get? j = if j = k then some v else m.get? j :=
  find_put k j v m.entries

@[simp] theorem get?_insert_self (m : SortedMap κ ν) (k : κ) (v : ν) :
    (m.insert k v).get? k = some v := by simp [get?_insert]

theorem get?_insert_of_ne (m : SortedMap κ ν) {k j : κ} (v : ν) (h : j ≠ k) :
    (m.insert k v).get? j = m.get? j := by simp [get?_insert, h]

theorem contains_insert (m : SortedMap κ ν) (k j : κ) (v : ν) :
    (m.insert k v).contains j = (decide (j = k) || m.contains j) := by
  simp only [contains, get?_insert]; split <;> simp [*]

theorem get?_insertNew (m : SortedMap κ ν) (k j : κ) (v : ν) :
    (m.insertNew k v).get? j = if j = k then some ((m.get? k).getD v) else m.get? j := by
  unfold insertNew contains
  cases h : m.get? k with
  | none => simp [get?_insert]
  | some w => by_cases e : j = k <;> simp [h, e]

omit [KeyOrder κ] in
theorem find_eq_none {k : κ} {es : List (κ × ν)} (h : ∀ e ∈ es, e.1 ≠ k) : find k es = none := by
  induction es with
  | nil => rfl
  | cons e es ih => grind [find]

theorem find_eq_some_iff {k : κ} {v : ν} {es : List (κ × ν)}
    (h : es.Pairwise fun a b => KeyOrder.before a.1 b.1 = true) :
    find k es = some v ↔ (k, v) ∈ es := by
  induction es with
  | nil => simp [find]
  | cons e es ih =>
    have ⟨he, hes⟩ := List.pairwise_cons.1 h
    rw [find]
    split
    · next hk =>
      subst hk
      constructor
      · rintro ⟨⟩; simp
      · intro hm
        rcases List.mem_cons.1 hm with hm | hm
        · rw [← hm]
        · have := he _ hm; simp [KeyOrder.irrefl] at this
    · next hk => rw [ih hes]; grind

theorem get?_eq_some_iff {m : SortedMap κ ν} {k : κ} {v : ν} :
    m.get? k = some v ↔ (k, v) ∈ m.toList := find_eq_some_iff m.sorted

theorem entries_eq {as bs : List (κ × ν)}
    (ha : as.Pairwise fun a b => KeyOrder.before a.1 b.1 = true)
    (hb : bs.Pairwise fun a b => KeyOrder.before a.1 b.1 = true)
    (h : ∀ x, x ∈ as ↔ x ∈ bs) : as = bs := by
  induction as generalizing bs with
  | nil => cases bs with
    | nil => rfl
    | cons b bs => simpa using (h b).2 (List.mem_cons_self ..)
  | cons a as ih => cases bs with
    | nil => simpa using (h a).1 (List.mem_cons_self ..)
    | cons b bs =>
      have ⟨ha1, ha2⟩ := List.pairwise_cons.1 ha
      have ⟨hb1, hb2⟩ := List.pairwise_cons.1 hb
      have irr : ∀ x : κ × ν, KeyOrder.before x.1 x.1 ≠ true := by simp [KeyOrder.irrefl]
      have e : a = b := by
        rcases List.mem_cons.1 ((h a).1 (List.mem_cons_self ..)) with e | e
        · exact e
        · rcases List.mem_cons.1 ((h b).2 (List.mem_cons_self ..)) with f | f
          · exact f.symm
          · exact absurd (KeyOrder.trans (hb1 _ e) (ha1 _ f)) (irr b)
      subst e
      congr 1
      refine ih ha2 hb2 fun x => ⟨fun hx => ?_, fun hx => ?_⟩
      · rcases List.mem_cons.1 ((h x).1 (List.mem_cons_of_mem _ hx)) with rfl | e
        · exact absurd (ha1 _ hx) (irr x)
        · exact e
      · rcases List.mem_cons.1 ((h x).2 (List.mem_cons_of_mem _ hx)) with rfl | e
        · exact absurd (hb1 _ hx) (irr x)
        · exact e

theorem ext_get? {m n : SortedMap κ ν} (h : ∀ k, m.get? k = n.get? k) : m = n :=
  ext <| entries_eq m.sorted n.sorted fun x => by
    rw [← Prod.eta x]
    exact ⟨fun hx => get?_eq_some_iff.1 (h _ ▸ get?_eq_some_iff.2 hx),
      fun hx => get?_eq_some_iff.1 (h _ ▸ get?_eq_some_iff.2 hx)⟩

end SortedMap
end PaneLayout
