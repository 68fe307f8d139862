import PaneLayout.Proofs.Numerals

set_option autoImplicit false

/-!
# Reading what is written

A JSON value is read off its own text. How numerals are read is left open: all that counts is that
they are read as the numbers that they were written for.
-/

namespace PaneLayout

/-- A JSON value: integers have 64 bits, doubles are of some kind, and the keys of an object are
texts, each of which stands once. -/
inductive Datum.IsJson (double : Float → Prop) : Datum → Prop
  | null : IsJson double null
  | bool (b : Bool) : IsJson double (bool b)
  | unsigned {n : ℕ} (lt : n < 2 ^ 64) : IsJson double (unsigned n)
  | signed {i : ℤ} (neg : i < 0) (le : -2 ^ 63 ≤ i) : IsJson double (signed i)
  | real {x : Float} (kind : double x) : IsJson double (real x)
  | text (s : String) : IsJson double (text s)
  | list {items : List Datum} (each : ∀ d ∈ items, IsJson double d) : IsJson double (list items)
  | record {fields : List (String × Datum)} (distinct : (fields.map (·.1)).Nodup)
      (each : ∀ f ∈ fields, IsJson double f.2) : IsJson double (record fields)

theorem Datum.IsJson.mono {double double' : Float → Prop} (sub : ∀ x, double x → double' x)
    {d : Datum} (h : d.IsJson double) : d.IsJson double' := by
  induction h with
  | null => exact .null
  | bool b => exact .bool b
  | unsigned lt => exact .unsigned lt
  | signed neg le => exact .signed neg le
  | real kind => exact .real (sub _ kind)
  | text s => exact .text s
  | list _ ih => exact .list ih
  | record distinct _ ih => exact .record distinct ih

namespace Json

/-! ## Texts -/

theorem hexDigits?_escape :
    ∀ n < 0x20, hexDigits? ['0', '0', hexChar (n / 16), hexChar (n % 16)] = some n := by
  decide

theorem pushUnit_control {p : Partial} (hp : p.high = none) {c : Char} (hc : c.toNat < 0x20) :
    p.pushUnit c.toNat = p.push c := by
  have high : isHigh c.toNat = false := by simp [isHigh]; omega
  have low : isLow c.toNat = false := by simp [isLow]; omega
  simp [Partial.pushUnit, Partial.push, hp, high, low, Char.ofNat_toNat]

/-- Each character is read off its escape. -/
theorem text?_escapeChar {p : Partial} (hp : p.high = none) (c : Char) (rest : List Char) :
    text? p (escapeChar c ++ rest) = text? (p.push c) rest := by
  unfold escapeChar
  split
  · next h => subst h; rfl
  split
  · next h => subst h; rfl
  split
  · next h => subst h; rfl
  split
  · next h => subst h; rfl
  split
  · next h => subst h; rfl
  split
  · next h => subst h; rfl
  split
  · next h => subst h; rfl
  split
  · next h =>
    simp only [List.cons_append, List.nil_append]
    rw [text?, hexDigits?_escape c.toNat h]
    exact congrArg (text? · rest) (pushUnit_control hp h)
  · next quote slash _ _ _ _ _ control =>
    rw [List.singleton_append, text?]
    · rw [if_neg (by simp [control, slash])]
    · exact quote
    · rintro _ _ _ _ _ rfl
      exact absurd rfl slash
    · rintro _ _ rfl
      exact absurd rfl slash

/-- A text is read off what stands between its quotes. -/
theorem text?_escaped (cs done rest : List Char) :
    text? ⟨done, none, true⟩ (cs.flatMap escapeChar ++ '"' :: rest) =
      some (.text (String.ofList (done.reverse ++ cs)), rest) := by
  induction cs generalizing done with
  | nil => simp [text?, Partial.datum]
  | cons c cs ih =>
    rw [List.flatMap_cons, List.append_assoc, text?_escapeChar rfl]
    exact (ih (c :: done)).trans (by simp)

theorem toList_quote (s : String) :
    (quote s).toList = '"' :: (s.toList.flatMap escapeChar ++ ['"']) := by
  rw [quote, String.toList_ofList, List.cons_append]

theorem text?_quote (s : String) (rest : List Char) :
    text? ⟨[], none, true⟩ (s.toList.flatMap escapeChar ++ ['"'] ++ rest) = some (.text s, rest) := by
  rw [List.append_assoc, List.singleton_append, text?_escaped]
  simp

/-! ## Values -/

/-- Numerals are read as the numbers that they were written for. -/
structure Understands (num : Numeral → Datum) (double : Float → Prop) : Prop where
  unsigned : ∀ ds, Spelt ds → natOf ds < 2 ^ 64 →
    num ⟨false, ds, none, none⟩ = .unsigned (natOf ds)
  signed : ∀ ds, Spelt ds → 0 < natOf ds → natOf ds ≤ 2 ^ 63 →
    num ⟨true, ds, none, none⟩ = .signed (-natOf ds)
  real : ∀ n x, double x → n.Stands x → num n = .real x

variable {num : Numeral → Datum} {double : Float → Prop}

theorem compact_unsigned (n : ℕ) : compact (.unsigned n) = Nat.repr n := rfl

theorem compact_signed {i : ℤ} (neg : i < 0) :
    compact (.signed i) = "-" ++ Nat.repr i.natAbs := by
  rw [compact, scalar, if_pos neg] <;> intro _ h <;> cases h

theorem compact_real (x : Float) : compact (.real x) = number.text x := rfl

theorem compact_text (s : String) : compact (.text s) = quote s := rfl

theorem chars_unsigned (n : ℕ) : ∃ ds, Spelt ds ∧ natOf ds = n ∧
    (compact (.unsigned n)).toList = Numeral.chars ⟨false, ds, none, none⟩ := by
  obtain ⟨ds, spelt, value, text⟩ := exists_spelt n
  refine ⟨ds, spelt, value, ?_⟩
  rw [compact_unsigned, text]
  simp [Numeral.chars, Numeral.sign, Numeral.point, Numeral.power]

theorem chars_signed {i : ℤ} (neg : i < 0) : ∃ ds, Spelt ds ∧ natOf ds = i.natAbs ∧
    (compact (.signed i)).toList = Numeral.chars ⟨true, ds, none, none⟩ := by
  obtain ⟨ds, spelt, value, text⟩ := exists_spelt i.natAbs
  refine ⟨ds, spelt, value, ?_⟩
  rw [compact_signed neg, String.toList_append, text]
  simp [Numeral.chars, Numeral.sign, Numeral.point, Numeral.power]

theorem proper_integer {negative : Bool} {ds : List ℕ} (spelt : Spelt ds) :
    Numeral.Proper ⟨negative, ds, none, none⟩ :=
  ⟨spelt, fun _ h => nomatch h⟩

/-- What a value begins with: not with what ends the list or the object around it. -/
def Opens (cs : List Char) : Prop :=
  ∃ c rest, cs = c :: rest ∧ isSpace c = false ∧ c ≠ ']' ∧ c ≠ '\x7d'

theorem opens_digitChar : ∀ d < 10, isSpace (Nat.digitChar d) = false ∧
    Nat.digitChar d ≠ ']' ∧ Nat.digitChar d ≠ '\x7d' := by
  decide

theorem opens_chars {n : Numeral} (proper : n.Proper) : Opens n.chars := by
  obtain ⟨d, ds, hw⟩ := List.exists_cons_of_ne_nil proper.whole.ne_nil
  cases hn : n.negative with
  | true =>
    refine ⟨'-', _, by rw [Numeral.chars, Numeral.sign, hn]; rfl, ?_⟩
    decide
  | false =>
    refine ⟨Nat.digitChar d, _, by rw [Numeral.chars, Numeral.sign, hn, hw]; rfl, ?_⟩
    exact opens_digitChar d (proper.whole.digit d (hw ▸ List.mem_cons_self))

theorem opens_compact {d : Datum} (json : d.IsJson double) : Opens (compact d).toList := by
  cases json with
  | null => exact ⟨'n', _, rfl, by decide⟩
  | bool b => cases b <;> exact ⟨_, _, rfl, by decide⟩
  | @unsigned n lt =>
    obtain ⟨ds, spelt, -, text⟩ := chars_unsigned n
    rw [text]
    exact opens_chars (proper_integer spelt)
  | signed neg le =>
    obtain ⟨ds, spelt, -, text⟩ := chars_signed neg
    rw [text]
    exact opens_chars (proper_integer spelt)
  | @real x kind =>
    obtain ⟨n, stands⟩ := exists_stands x
    rw [compact_real, stands.text]
    exact opens_chars stands.proper
  | text s =>
    rw [compact_text, toList_quote]
    exact ⟨_, _, rfl, by decide⟩
  | list each =>
    rw [compact, String.toList_append, String.toList_append]
    exact ⟨'[', _, rfl, by decide⟩
  | record distinct each =>
    rw [Datum.record, compact, String.toList_append, String.toList_append]
    exact ⟨'\x7b', _, rfl, by decide⟩

theorem skip_opens {cs : List Char} (opens : Opens cs) (rest : List Char) :
    skip (cs ++ rest) = cs ++ rest := by
  obtain ⟨c, cs, rfl, space, -⟩ := opens
  rw [skip, List.cons_append, List.dropWhile_cons_of_neg (by simp [space])]

theorem digitChar_ne : ∀ d < 10, Nat.digitChar d ≠ '"' ∧ Nat.digitChar d ≠ '[' ∧
    Nat.digitChar d ≠ '\x7b' ∧ Nat.digitChar d ≠ 'n' ∧ Nat.digitChar d ≠ 't' ∧
    Nat.digitChar d ≠ 'f' := by
  decide

theorem value?_chars {n : Numeral} (proper : n.Proper) (fuel : ℕ) {rest : List Char}
    (ends : Ends rest) : value? num (fuel + 1) (n.chars ++ rest) = some (num n, rest) := by
  have read := numeral?_chars proper ends
  have opens : ∃ c cs, n.chars ++ rest = c :: cs ∧ c ≠ '"' ∧ c ≠ '[' ∧ c ≠ '\x7b' ∧ c ≠ 'n' ∧
      c ≠ 't' ∧ c ≠ 'f' := by
    obtain ⟨d, ds, hw⟩ := List.exists_cons_of_ne_nil proper.whole.ne_nil
    cases hn : n.negative with
    | true =>
      refine ⟨'-', _, by rw [Numeral.chars, Numeral.sign, hn]; rfl, ?_⟩
      decide
    | false =>
      refine ⟨Nat.digitChar d, _, by rw [Numeral.chars, Numeral.sign, hn, hw]; rfl, ?_⟩
      exact digitChar_ne d (proper.whole.digit d (hw ▸ List.mem_cons_self))
  obtain ⟨c, cs, text, quote, list, map, null, true, false⟩ := opens
  rw [value?, skip_opens (opens_chars proper), text]
  split
  · exact absurd (List.cons.inj ‹_›).1 quote
  · exact absurd (List.cons.inj ‹_›).1 list
  · exact absurd (List.cons.inj ‹_›).1 map
  · exact absurd (List.cons.inj ‹_›).1 null
  · exact absurd (List.cons.inj ‹_›).1 true
  · exact absurd (List.cons.inj ‹_›).1 false
  · rw [← text, read]
    rfl

theorem Ends.cons {c : Char} (here : c = ',' ∨ c = ']' ∨ c = '\x7d') (rest : List Char) :
    Ends (c :: rest) := by
  rintro _ ⟨⟩
  exact here

/-- The value is read off the head of a text that begins with its own. -/
def ReadsBack (num : Numeral → Datum) (d : Datum) : Prop :=
  ∀ fuel rest, 2 * (compact d).toList.length ≤ fuel → Ends rest →
    value? num fuel ((compact d).toList ++ rest) = some (d, rest)

theorem compactItems_cons (d e : Datum) (es : List Datum) :
    (compactItems (d :: e :: es)).toList =
      (compact d).toList ++ ',' :: (compactItems (e :: es)).toList := by
  rw [compactItems, String.toList_append, String.toList_append, List.append_assoc]
  · rfl
  · exact fun h => nomatch h

theorem items?_compact (d : Datum) (ds : List Datum) (each : ∀ e ∈ d :: ds, ReadsBack num e)
    (fuel : ℕ) (rest : List Char)
    (enough : 2 * (compactItems (d :: ds)).toList.length + 1 ≤ fuel) :
    items? num fuel ((compactItems (d :: ds)).toList ++ ']' :: rest) = some (d :: ds, rest) := by
  obtain ⟨fuel, rfl⟩ : ∃ n, fuel = n + 1 := ⟨fuel - 1, by omega⟩
  obtain ⟨here, each⟩ := List.forall_mem_cons.1 each
  cases ds with
  | nil =>
    rw [compactItems] at enough ⊢
    rw [items?, here fuel _ (by omega) (.cons (by decide) rest)]
    rfl
  | cons e es =>
    rw [compactItems_cons, List.length_append, List.length_cons] at enough
    have more := items?_compact e es each fuel rest (by omega)
    have first := here fuel (',' :: ((compactItems (e :: es)).toList ++ ']' :: rest)) (by omega)
      (.cons (.inl rfl) _)
    rw [compactItems_cons, List.append_assoc, List.cons_append, items?, first]
    change (items? num fuel ((compactItems (e :: es)).toList ++ ']' :: rest)).bind _ = _
    rw [more]
    rfl

theorem opens_items {d : Datum} (opens : Opens (compact d).toList) (ds : List Datum) :
    Opens (compactItems (d :: ds)).toList := by
  cases ds with
  | nil => exact opens
  | cons e es =>
    obtain ⟨c, cs, text, here⟩ := opens
    exact ⟨c, _, by rw [compactItems_cons, text]; rfl, here⟩

theorem readsBack_list {items : List Datum} (opens : ∀ d ∈ items, Opens (compact d).toList)
    (each : ∀ d ∈ items, ReadsBack num d) : ReadsBack num (.list items) := by
  intro fuel rest enough ends
  have text : (compact (.list items)).toList = '[' :: ((compactItems items).toList ++ [']']) := by
    rw [compact, String.toList_append, String.toList_append]
    rfl
  rw [text, List.length_cons, List.length_append, List.length_singleton] at enough
  obtain ⟨fuel, rfl⟩ : ∃ n, fuel = n + 1 := ⟨fuel - 1, by omega⟩
  rw [text, List.cons_append, List.append_assoc, List.singleton_append]
  cases items with
  | nil => rfl
  | cons d ds =>
    have read := items?_compact d ds each fuel rest (by omega)
    have opens := opens_items (List.forall_mem_cons.1 opens).1 ds
    have inside := skip_opens opens (']' :: rest)
    obtain ⟨c, cs, head, -, close, -⟩ := opens
    have start (cs : List Char) : skip ('[' :: cs) = '[' :: cs := rfl
    rw [value?, start]
    simp only [inside]
    split
    · next h =>
      rw [head] at h
      exact absurd (List.cons.inj h).1 close
    · rw [read]
      rfl

/-! ### Objects -/

/-- The entries of an object, whose keys are texts. -/
def entriesOf (fields : List (String × Datum)) : List (Datum × Datum) :=
  fields.map fun f => (.text f.1, f.2)

theorem compactEntries_cons (f g : String × Datum) (gs : List (String × Datum)) :
    (compactEntries (entriesOf (f :: g :: gs))).toList =
      (quote f.1).toList ++ ':' :: ((compact f.2).toList ++
        ',' :: (compactEntries (entriesOf (g :: gs))).toList) := by
  have text : compactEntries (entriesOf (f :: g :: gs)) =
      quote f.1 ++ ":" ++ compact f.2 ++ "," ++ compactEntries (entriesOf (g :: gs)) := rfl
  simp [text]

theorem compactEntries_singleton (f : String × Datum) :
    (compactEntries (entriesOf [f])).toList =
      (quote f.1).toList ++ ':' :: (compact f.2).toList := by
  have text : compactEntries (entriesOf [f]) = quote f.1 ++ ":" ++ compact f.2 := rfl
  simp [text]

theorem entries?_last {k : String} {v : Datum} {cs rest : List Char} {fuel : ℕ}
    (read : value? num fuel cs = some (v, '\x7d' :: rest)) :
    entries? num (fuel + 1) ((quote k).toList ++ ':' :: cs) = some ([(.text k, v)], rest) := by
  have start (cs : List Char) : skip ('"' :: cs) = '"' :: cs := rfl
  rw [toList_quote, List.cons_append, entries?, start]
  simp only [text?_quote, bind, Option.bind]
  change (value? num fuel cs).bind _ = _
  rw [read]
  rfl

theorem entries?_more {k : String} {v : Datum} {cs more rest : List Char}
    {es : List (Datum × Datum)} {fuel : ℕ} (read : value? num fuel cs = some (v, ',' :: more))
    (others : entries? num fuel more = some (es, rest)) :
    entries? num (fuel + 1) ((quote k).toList ++ ':' :: cs) = some ((.text k, v) :: es, rest) := by
  have start (cs : List Char) : skip ('"' :: cs) = '"' :: cs := rfl
  rw [toList_quote, List.cons_append, entries?, start]
  simp only [text?_quote, bind, Option.bind]
  change (value? num fuel cs).bind _ = _
  rw [read]
  change (entries? num fuel more).bind _ = _
  rw [others]
  rfl

theorem entries?_compact (f : String × Datum) (fs : List (String × Datum))
    (each : ∀ g ∈ f :: fs, ReadsBack num g.2) (fuel : ℕ) (rest : List Char)
    (enough : 2 * (compactEntries (entriesOf (f :: fs))).toList.length + 1 ≤ fuel) :
    entries? num fuel ((compactEntries (entriesOf (f :: fs))).toList ++ '\x7d' :: rest) =
      some (entriesOf (f :: fs), rest) := by
  obtain ⟨fuel, rfl⟩ : ∃ n, fuel = n + 1 := ⟨fuel - 1, by omega⟩
  obtain ⟨here, each⟩ := List.forall_mem_cons.1 each
  cases fs with
  | nil =>
    rw [compactEntries_singleton, List.length_append, List.length_cons] at enough
    rw [compactEntries_singleton, List.append_assoc, List.cons_append]
    exact entries?_last (here fuel _ (by omega) (.cons (by decide) rest))
  | cons g gs =>
    rw [compactEntries_cons, List.length_append, List.length_cons, List.length_append,
      List.length_cons] at enough
    have others := entries?_compact g gs each fuel rest (by omega)
    rw [compactEntries_cons, List.append_assoc, List.cons_append, List.append_assoc,
      List.cons_append]
    exact entries?_more (here fuel _ (by omega) (.cons (by decide) _)) others

theorem opens_entries (f : String × Datum) (fs : List (String × Datum)) :
    Opens (compactEntries (entriesOf (f :: fs))).toList := by
  cases fs with
  | nil =>
    rw [compactEntries_singleton, toList_quote]
    exact ⟨_, _, rfl, by decide⟩
  | cons g gs =>
    rw [compactEntries_cons, toList_quote]
    exact ⟨_, _, rfl, by decide⟩

theorem readsBack_record {fields : List (String × Datum)}
    (each : ∀ f ∈ fields, ReadsBack num f.2) : ReadsBack num (.record fields) := by
  intro fuel rest enough ends
  have text : (compact (.record fields)).toList =
      '\x7b' :: ((compactEntries (entriesOf fields)).toList ++ ['\x7d']) := by
    rw [Datum.record, compact, String.toList_append, String.toList_append]
    rfl
  rw [text, List.length_cons, List.length_append, List.length_singleton] at enough
  obtain ⟨fuel, rfl⟩ : ∃ n, fuel = n + 1 := ⟨fuel - 1, by omega⟩
  rw [text, List.cons_append, List.append_assoc, List.singleton_append]
  cases fields with
  | nil => rfl
  | cons f fs =>
    have read := entries?_compact f fs each fuel rest (by omega)
    have opens := opens_entries f fs
    have inside := skip_opens opens ('\x7d' :: rest)
    obtain ⟨c, cs, head, -, -, close⟩ := opens
    have start (cs : List Char) : skip ('\x7b' :: cs) = '\x7b' :: cs := rfl
    rw [value?, start]
    simp only [inside]
    split
    · next h =>
      rw [head] at h
      exact absurd (List.cons.inj h).1 close
    · rw [read]
      rfl

/-! ### Whole texts -/

theorem readsBack_scalar {d : Datum} (opens : Opens (compact d).toList)
    (read : ∀ fuel rest, Ends rest →
      value? num (fuel + 1) ((compact d).toList ++ rest) = some (d, rest)) : ReadsBack num d := by
  intro fuel rest enough ends
  obtain ⟨c, cs, text, -⟩ := opens
  rw [text, List.length_cons] at enough
  obtain ⟨fuel, rfl⟩ : ∃ n, fuel = n + 1 := ⟨fuel - 1, by omega⟩
  exact read fuel rest ends

theorem readsBack_numeral {d : Datum} {n : Numeral} (proper : n.Proper)
    (text : (compact d).toList = n.chars) (read : num n = d) : ReadsBack num d :=
  readsBack_scalar (text ▸ opens_chars proper) fun fuel rest ends => by
    rw [text, value?_chars proper fuel ends, read]

/-- Every JSON value is read off its text. -/
theorem readsBack {d : Datum} (understands : Understands num double) (json : d.IsJson double) :
    ReadsBack num d := by
  induction json with
  | null => exact readsBack_scalar ⟨'n', _, rfl, by decide⟩ fun _ _ _ => rfl
  | bool b => cases b <;> exact readsBack_scalar ⟨_, _, rfl, by decide⟩ fun _ _ _ => rfl
  | @unsigned n lt =>
    obtain ⟨ds, spelt, value, text⟩ := chars_unsigned n
    refine readsBack_numeral (proper_integer spelt) text ?_
    rw [understands.unsigned ds spelt (by omega), value]
  | @signed i neg le =>
    obtain ⟨ds, spelt, value, text⟩ := chars_signed neg
    refine readsBack_numeral (proper_integer spelt) text ?_
    rw [understands.signed ds spelt (by omega) (by omega), value]
    congr 1
    omega
  | @real x kind =>
    obtain ⟨n, stands⟩ := exists_stands x
    refine readsBack_numeral stands.proper ?_ (understands.real n x kind stands)
    rw [compact_real, stands.text]
  | text s =>
    refine readsBack_scalar ⟨'"', _, toList_quote s, by decide⟩ fun fuel rest _ => ?_
    have start (cs : List Char) : skip ('"' :: cs) = '"' :: cs := rfl
    rw [compact_text, toList_quote, List.cons_append, value?, start]
    exact text?_quote s rest
  | list json ih => exact readsBack_list (fun d hd => opens_compact (json d hd)) ih
  | record distinct json ih => exact readsBack_record ih

theorem readWith?_compact (understands : Understands num double) {d : Datum}
    (json : d.IsJson double) : readWith? num (compact d) = some d := by
  have read := readsBack understands json (2 * (compact d).toList.length + 2) [] (by omega) ends_nil
  rw [List.append_nil] at read
  simp only [readWith?, read, bind, Option.bind]
  rfl

/-! ## Readings of numerals -/

/-- A double that is read again by the reading that rounds twice. -/
def Returns (x : Float) : Prop := ∃ n : Numeral, n.Stands x ∧ n.datum = .real x

theorem understands_datum : Understands Numeral.datum Returns where
  unsigned ds _ lt := by
    have small : natOf ds < limit := lt
    simp [Numeral.datum, small]
  signed ds _ pos le := by
    have small : ¬ (natOf ds = 0 ∨ limit / 2 < natOf ds) := by
      have half : limit / 2 = 2 ^ 63 := by decide
      omega
    simp only [Numeral.datum, small, if_true, if_false]
  real n x := by
    rintro ⟨m, hm, read⟩ hn
    have same : m.chars = n.chars := by rw [← hm.text, hn.text]
    rw [← chars_inj hm.proper hn.proper same, read]

theorem read?_compact {d : Datum} (json : d.IsJson Returns) : read? (compact d) = some d :=
  readWith?_compact understands_datum json

open Classical in
/-- A numeral is read as the double that it is written for, if there is one. -/
noncomputable def Numeral.exact (n : Numeral) : Datum :=
  if h : ∃ x, n.Stands x then .real h.choose else n.datum

theorem Numeral.exact_integer (negative : Bool) (ds : List ℕ) :
    exact ⟨negative, ds, none, none⟩ = datum ⟨negative, ds, none, none⟩ := by
  refine dif_neg ?_
  rintro ⟨x, stands⟩
  rcases stands.real with h | h <;> cases h

theorem understands_exact : Understands Numeral.exact fun _ => True where
  unsigned ds spelt lt := (Numeral.exact_integer _ ds).trans (understands_datum.unsigned ds spelt lt)
  signed ds spelt pos le :=
    (Numeral.exact_integer _ ds).trans (understands_datum.signed ds spelt pos le)
  real n x _ stands := by
    have some : ∃ x, n.Stands x := ⟨x, stands⟩
    rw [Numeral.exact, dif_pos some, some.choose_spec.unique stands]

/-- JSON values are told apart by their texts. -/
theorem compact_inj {d e : Datum} (hd : d.IsJson double) (he : e.IsJson double)
    (same : compact d = compact e) : d = e := by
  have read := readWith?_compact understands_exact (hd.mono fun _ _ => trivial)
  rw [same, readWith?_compact understands_exact (he.mono fun _ _ => trivial)] at read
  exact (Option.some.inj read).symm

end Json
end PaneLayout
