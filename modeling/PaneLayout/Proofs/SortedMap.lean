import PaneLayout.SortedMap

set_option autoImplicit false

/-!
# Entries of a map, and entries put into it one after the other
-/

namespace PaneLayout.SortedMap

variable {κ ν : Type} [DecidableEq κ] [KeyOrder κ]

theorem keys_nodup (m : SortedMap κ ν) : (m.toList.map (·.1)).Nodup := by
  rw [List.Nodup, List.pairwise_map]
  refine m.sorted.imp ?_
  intro a b before same
  rw [same, KeyOrder.irrefl] at before
  cases before

theorem mem_keys (m : SortedMap κ ν) (k : κ) : k ∈ m.keys ↔ m.contains k = true := by
  rw [keys, contains, Option.isSome_iff_exists, List.mem_map]
  constructor
  · rintro ⟨⟨j, v⟩, he, rfl⟩
    exact ⟨v, get?_eq_some_iff.2 he⟩
  · rintro ⟨v, hv⟩
    exact ⟨(k, v), get?_eq_some_iff.1 hv, rfl⟩

theorem keys_increasing {ν : Type} (m : SortedMap Nat ν) : m.keys.Pairwise (· < ·) := by
  rw [keys, List.pairwise_map]
  exact m.sorted.imp of_decide_eq_true

theorem contains_insertNew (m : SortedMap κ ν) (k j : κ) (v : ν) :
    (m.insertNew k v).contains j = true ↔ j = k ∨ m.contains j = true := by
  rw [contains, get?_insertNew]
  by_cases same : j = k
  · simp [same]
  · simp [same, contains]

/-- What is true of the entries of a map and of a new one is true with the new one in it. -/
theorem forall_get?_insert {m : SortedMap κ ν} {P : κ → ν → Prop} {k : κ} {v : ν}
    (old : ∀ j w, m.get? j = some w → P j w) (new : P k v) :
    ∀ j w, (m.insert k v).get? j = some w → P j w := by
  intro j w found
  rw [get?_insert] at found
  split at found
  · next same =>
    obtain rfl := Option.some.inj found
    exact same ▸ new
  · exact old j w found

omit [KeyOrder κ] in
theorem find_of_mem {k : κ} {v : ν} {es : List (κ × ν)} (distinct : (es.map (·.1)).Nodup)
    (h : (k, v) ∈ es) : find k es = some v := by
  induction es with
  | nil => simp at h
  | cons e es ih =>
    obtain ⟨apart, distinct⟩ := List.nodup_cons.1 distinct
    rw [find]
    rcases List.mem_cons.1 h with rfl | h
    · exact if_pos rfl
    · have ne : k ≠ e.1 := fun same => apart (List.mem_map.2 ⟨(k, v), h, same⟩)
      rw [if_neg ne, ih distinct h]

/-- What is found has the least key of all that would do. -/
theorem find?_least {m : SortedMap κ ν} {test : κ × ν → Bool} {e e' : κ × ν}
    (found : m.toList.find? test = some e) (mem : e' ∈ m.toList) (passes : test e' = true) :
    e' = e ∨ KeyOrder.before e.1 e'.1 = true := by
  obtain ⟨-, front, back, split, fails⟩ := List.find?_eq_some_iff_append.1 found
  have sorted : (front ++ e :: back).Pairwise fun a b => KeyOrder.before a.1 b.1 = true :=
    split ▸ m.sorted
  rw [split, List.mem_append, List.mem_cons] at mem
  rcases mem with early | same | late
  · have failed := fails e' early
    rw [passes] at failed
    cases failed
  · exact .inl same
  · exact .inr (List.rel_of_pairwise_cons (List.pairwise_append.1 sorted).2.1 late)

/-! ## Mapped values -/

section
variable {ω : Type} (f : ν → ω)

def mapValues (m : SortedMap κ ν) : SortedMap κ ω :=
  ⟨m.entries.map fun e => (e.1, f e.2), List.pairwise_map.2 m.sorted⟩

omit [KeyOrder κ] in
theorem find_map_snd (k : κ) (es : List (κ × ν)) :
    find k (es.map fun e => (e.1, f e.2)) = (find k es).map f := by
  induction es with
  | nil => rfl
  | cons e es ih =>
    rw [List.map_cons, find, find, ih]
    split <;> rfl

theorem get?_mapValues (m : SortedMap κ ν) (k : κ) :
    (m.mapValues f).get? k = (m.get? k).map f := find_map_snd f k m.entries

theorem mapValues_insert (m : SortedMap κ ν) (k : κ) (v : ν) :
    (m.insert k v).mapValues f = (m.mapValues f).insert k (f v) := by
  refine ext_get? fun j => ?_
  rw [get?_mapValues, get?_insert, get?_insert, get?_mapValues]
  split <;> rfl

end

section
variable {ω : Type} (f : ν → Option ω)

/-- The entries whose values come to something. -/
def filterMapValues (m : SortedMap κ ν) : SortedMap κ ω where
  entries := m.entries.filterMap fun e => (f e.2).map (e.1, ·)
  sorted := by
    refine m.sorted.filterMap _ ?_
    rintro a b before x hx y hy
    obtain ⟨-, -, rfl⟩ := Option.map_eq_some_iff.1 hx
    obtain ⟨-, -, rfl⟩ := Option.map_eq_some_iff.1 hy
    exact before

theorem get?_filterMapValues (m : SortedMap κ ν) (k : κ) :
    (m.filterMapValues f).get? k = (m.get? k).bind f := by
  refine Option.ext fun v => ?_
  rw [get?_eq_some_iff, Option.bind_eq_some_iff]
  constructor
  · intro h
    obtain ⟨⟨j, w⟩, he, hv⟩ := List.mem_filterMap.1 h
    obtain ⟨v', hf, same⟩ := Option.map_eq_some_iff.1 hv
    obtain ⟨rfl, rfl⟩ := Prod.mk.inj same
    exact ⟨w, get?_eq_some_iff.2 he, hf⟩
  · rintro ⟨w, hw, hf⟩
    refine List.mem_filterMap.2 ⟨(k, w), get?_eq_some_iff.1 hw, ?_⟩
    rw [hf]
    rfl

end

/-! ## Many entries -/

def insertAll (m : SortedMap κ ν) (es : List (κ × ν)) : SortedMap κ ν :=
  es.foldl (fun m e => m.insert e.1 e.2) m

variable {m : SortedMap κ ν} {es : List (κ × ν)} {k : κ} {v : ν}

theorem insertAll_concat (m : SortedMap κ ν) (es : List (κ × ν)) (k : κ) (v : ν) :
    m.insertAll (es ++ [(k, v)]) = (m.insertAll es).insert k v := List.foldl_append

theorem get?_insertAll_of_notMem (h : k ∉ es.map (·.1)) : (m.insertAll es).get? k = m.get? k := by
  induction es generalizing m with
  | nil => rfl
  | cons e es ih =>
    simp only [List.map_cons, List.mem_cons, not_or] at h
    change ((m.insert e.1 e.2).insertAll es).get? k = _
    rw [ih h.2, get?_insert_of_ne _ _ h.1]

/-- What an entry becomes depends on nothing but what it was. -/
theorem get?_insertAll_congr {n : SortedMap κ ν} (es : List (κ × ν)) (h : n.get? k = m.get? k) :
    (n.insertAll es).get? k = (m.insertAll es).get? k := by
  induction es generalizing m n with
  | nil => exact h
  | cons e es ih =>
    refine ih (m := m.insert e.1 e.2) (n := n.insert e.1 e.2) ?_
    rw [get?_insert, get?_insert, h]

theorem get?_insertAll_of_mem (distinct : (es.map (·.1)).Nodup) (h : (k, v) ∈ es) :
    (m.insertAll es).get? k = some v := by
  induction es generalizing m with
  | nil => simp at h
  | cons e es ih =>
    obtain ⟨he, hes⟩ := List.nodup_cons.1 distinct
    rcases List.mem_cons.1 h with rfl | h
    · change ((m.insert k v).insertAll es).get? k = _
      rw [get?_insertAll_of_notMem he, get?_insert_self]
    · exact ih hes h

/-- A key has the value of its last entry, or the value it had if it has no entry. -/
theorem get?_insertAll_cases (h : (m.insertAll es).get? k = some v) :
    (m.get? k = some v ∧ k ∉ es.map (·.1)) ∨
      ∃ front back, es = front ++ (k, v) :: back ∧ k ∉ back.map (·.1) := by
  induction es generalizing m with
  | nil => exact .inl ⟨h, List.not_mem_nil⟩
  | cons e es ih =>
    rcases ih (m := m.insert e.1 e.2) h with ⟨h, later⟩ | ⟨front, back, rfl, later⟩
    · rw [get?_insert] at h
      split at h
      · next same =>
        obtain rfl := Option.some.inj h
        exact .inr ⟨[], es, by rw [same]; rfl, later⟩
      · next other => exact .inl ⟨h, List.not_mem_cons_of_ne_of_not_mem other later⟩
    · exact .inr ⟨e :: front, back, rfl, later⟩

theorem mem_of_get?_insertAll (h : (m.insertAll es).get? k = some v) :
    m.get? k = some v ∨ (k, v) ∈ es := by
  rcases get?_insertAll_cases h with ⟨h, -⟩ | ⟨front, back, rfl, -⟩
  · exact .inl h
  · exact .inr (List.mem_append_right front List.mem_cons_self)

theorem get?_insertAll_same {ks : List κ} (h : k ∈ ks) :
    (m.insertAll (ks.map fun k => (k, v))).get? k = some v := by
  induction ks generalizing m with
  | nil => simp at h
  | cons j ks ih =>
    change ((m.insert j v).insertAll (ks.map fun k => (k, v))).get? k = some v
    by_cases later : k ∈ ks
    · exact ih later
    · obtain rfl : k = j := (List.mem_cons.1 h).resolve_right later
      rw [get?_insertAll_of_notMem (by simpa using later), get?_insert_self]

/-- The entries of a map make up the map. -/
theorem ofList_toList (m : SortedMap κ ν) : ofList m.toList = m := by
  refine ext_get? fun k => ?_
  change (insertAll ∅ m.toList).get? k = _
  cases h : m.get? k with
  | none =>
    refine (get?_insertAll_of_notMem fun mem => ?_).trans rfl
    obtain ⟨e, he, rfl⟩ := List.mem_map.1 mem
    rw [get?_eq_some_iff.2 he] at h
    cases h
  | some v => exact get?_insertAll_of_mem m.keys_nodup (get?_eq_some_iff.1 h)

theorem contains_insertAll (m : SortedMap κ ν) (es : List (κ × ν)) (k : κ) :
    (m.insertAll es).contains k = true ↔ m.contains k = true ∨ k ∈ es.map (·.1) := by
  induction es generalizing m with
  | nil => simp [insertAll]
  | cons e es ih =>
    change ((m.insert e.1 e.2).insertAll es).contains k = true ↔ _
    rw [ih, contains_insert]
    simp only [Bool.or_eq_true, decide_eq_true_eq, List.map_cons, List.mem_cons]
    rw [or_assoc, or_left_comm]

end PaneLayout.SortedMap
