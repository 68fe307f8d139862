import PaneLayout.Layout.Text
import PaneLayout.Proofs.Reporting

set_option autoImplicit false

/-!
# Requests, mutations and errors as texts

A reader of JSON gives up on values that are nested too deeply, and no more is asked of it than that
it gives back the others. Then a request, a list of mutations or an error is read from its text as
what it was. The texts of mutations alone tell them apart, however deep they are.
-/

namespace PaneLayout

/-! ## Nesting -/

namespace Datum

/-- Levels of lists and maps, none for a scalar. -/
def nesting : Datum → ℕ
  | list items => nestingOf items + 1
  | map entries => nestingOfEntries entries + 1
  | _ => 0
where
  nestingOf : List Datum → ℕ
    | [] => 0
    | d :: ds => max d.nesting (nestingOf ds)
  nestingOfEntries : List (Datum × Datum) → ℕ
    | [] => 0
    | (_, v) :: es => max v.nesting (nestingOfEntries es)

theorem nesting_list_le {items : List Datum} {n : ℕ} (each : ∀ d ∈ items, d.nesting ≤ n) :
    (list items).nesting ≤ n + 1 := by
  suffices le : nesting.nestingOf items ≤ n from Nat.succ_le_succ le
  induction items with
  | nil => exact Nat.zero_le n
  | cons d ds ih =>
    obtain ⟨here, rest⟩ := List.forall_mem_cons.1 each
    exact Nat.max_le.2 ⟨here, ih rest⟩

theorem nesting_record_le {fields : List (String × Datum)} {n : ℕ}
    (each : ∀ f ∈ fields, f.2.nesting ≤ n) : (record fields).nesting ≤ n + 1 := by
  suffices le : nesting.nestingOfEntries (fields.map fun f => (text f.1, f.2)) ≤ n from
    Nat.succ_le_succ le
  induction fields with
  | nil => exact Nat.zero_le n
  | cons f fields ih =>
    obtain ⟨here, rest⟩ := List.forall_mem_cons.1 each
    exact Nat.max_le.2 ⟨here, ih rest⟩

theorem nesting_ofList_le {β : Type} {f : β → Datum} {bs : List β} {n : ℕ}
    (each : ∀ b ∈ bs, (f b).nesting ≤ n) : (ofList f bs).nesting ≤ n + 1 := by
  refine nesting_list_le fun d hd => ?_
  obtain ⟨b, hb, rfl⟩ := List.mem_map.1 hd
  exact each b hb

/-- Records and unions alike are nested one level more than what their fields hold. -/
theorem nesting_given_le {slots : List (String × Option Datum)} {n : ℕ}
    (each : ∀ s ∈ slots, ∀ d ∈ s.2, d.nesting ≤ n) : (record (given slots)).nesting ≤ n + 1 :=
  nesting_record_le fun f hf => each _ (mem_given.1 hf) f.2 rfl

@[simp] theorem nesting_text (s : String) : (text s).nesting = 0 := rfl
@[simp] theorem nesting_unsigned (n : ℕ) : (unsigned n).nesting = 0 := rfl
@[simp] theorem nesting_ofWord (w : UInt32) : (ofWord w).nesting = 0 := rfl

end Datum

@[simp] theorem SectionId.nesting (id : SectionId) : id.datum.nesting = 0 := rfl
@[simp] theorem TableRef.nesting (t : TableRef) : t.datum.nesting = 0 := rfl
@[simp] theorem ViewRef.nesting (v : ViewRef) : v.datum.nesting = 0 := rfl
@[simp] theorem WidgetType.nesting (t : WidgetType) : t.datum.nesting = 0 := rfl
@[simp] theorem MutationKind.nesting (k : MutationKind) : k.datum.nesting = 0 := rfl

@[simp] theorem LinkTarget.nesting (t : LinkTarget) : t.datum.nesting = 0 := by
  cases t <;> rfl

theorem WidgetInfo.nesting_le (w : WidgetInfo) : w.datum.nesting ≤ 1 := by
  rw [datum_eq]
  exact Datum.nesting_given_le (by simp)

theorem Issue.nesting_le (i : Issue) : i.datum.nesting ≤ 1 := by
  rw [datum_eq]
  exact Datum.nesting_given_le (by simp)

theorem DanglingLink.nesting_le (l : DanglingLink) : l.datum.nesting ≤ 1 := by
  rw [datum_eq]
  exact Datum.nesting_given_le (by simp)

theorem FailedStep.nesting_le (s : FailedStep) : s.datum.nesting ≤ 1 := by
  rw [datum_eq]
  refine Datum.nesting_given_le (List.forall_mem_cons.2 ⟨by simp, ?_⟩)
  cases s <;> simp [slots]

/-- An error holds lists of records, and no records inside those. -/
theorem CompileError.nesting_le (e : CompileError) : e.datum.nesting ≤ 3 := by
  have texts (ts : List String) : (Datum.ofList .text ts).nesting ≤ 2 :=
    Datum.nesting_ofList_le fun t _ => Nat.zero_le 1
  have widgets (ws : List WidgetInfo) : (Datum.ofList WidgetInfo.datum ws).nesting ≤ 2 :=
    Datum.nesting_ofList_le fun w _ => w.nesting_le
  have issues (is : List Issue) : (Datum.ofList Issue.datum is).nesting ≤ 2 :=
    Datum.nesting_ofList_le fun i _ => i.nesting_le
  have links (ls : List DanglingLink) : (Datum.ofList DanglingLink.datum ls).nesting ≤ 2 :=
    Datum.nesting_ofList_le fun l _ => l.nesting_le
  have step (s : FailedStep) : s.datum.nesting ≤ 2 := s.nesting_le.trans (by decide)
  rw [datum_eq]
  refine Datum.nesting_given_le (List.forall_mem_cons.2 ⟨by simp, ?_⟩)
  cases e <;> simp [slots, body, texts, widgets, issues, links, step]

/-! ## Bytes -/

theorem toList_loop (bs : ByteArray) (i : ℕ) (done : List UInt8) :
    ByteArray.toList.loop bs i done = done.reverse ++ bs.data.toList.drop i := by
  induction i, done using ByteArray.toList.loop.induct bs with
  | case1 i done lt ih =>
    have lt' : i < bs.data.toList.length := lt
    have here : bs.data.toList.drop i = bs.get! i :: bs.data.toList.drop (i + 1) := by
      rw [List.drop_eq_getElem_cons lt']
      congr 1
      simp [ByteArray.get!, getElem!_pos bs.data i lt]
    rw [ByteArray.toList.loop, if_pos lt, ih, here, List.reverse_cons, List.append_assoc,
      List.singleton_append]
  | case2 i done last =>
    have rest : bs.data.toList.drop i = [] := List.drop_eq_nil_of_le (Nat.le_of_not_lt last)
    rw [ByteArray.toList.loop, if_neg last, rest, List.append_nil]

theorem bytes_inj {as bs : ByteArray} (same : as.toList = bs.toList) : as = bs := by
  rw [ByteArray.toList, toList_loop, ByteArray.toList, toList_loop] at same
  exact ByteArray.ext (Array.toList_inj.1 same)

/-! ## Texts -/

/-- A reader that gives back every JSON value that is nested at most 127 levels. -/
def Json.Faithful (read? : String → Option Datum) : Prop :=
  ∀ d : Datum, d.IsJson (fun x => x.isFinite) → d.nesting ≤ 127 → read? (compact d) = some d

theorem Json.faithful_exact : Faithful (readWith? Numeral.exact) := fun _ json _ =>
  readWith?_compact understands_exact (json.mono fun _ _ => trivial)

namespace Mutation

/-- What the fingerprint of a list of mutations is taken of. -/
def payload (ms : List (Mutation Float)) : List UInt8 :=
  (Json.compact (.ofList datum ms)).toUTF8.toList

theorem fingerprint_eq (ms : List (Mutation Float)) :
    fingerprint ms = Sha256.hexDigest (payload ms) := rfl

variable {double : Float → Prop} (finite : ∀ x, double x → x.isFinite)
include finite

theorem isJson_ofList {ms : List (Mutation Float)}
    (doubles : ∀ m ∈ ms, ∀ x ∈ m.ratios, double x) : (Datum.ofList datum ms).IsJson double :=
  Datum.isJson_ofList fun m hm => m.isJson finite (doubles m hm)

theorem listOf?_ofList {ms : List (Mutation Float)} (mode : Mode)
    (doubles : ∀ m ∈ ms, ∀ x ∈ m.ratios, double x) :
    Datum.listOf? (ofDatum? mode) (.ofList datum ms) = some ms :=
  Datum.listOf?_ofList fun m hm => m.ofDatum?_datum finite (doubles m hm) mode

theorem payload_inj {ms ns : List (Mutation Float)} (hm : ∀ m ∈ ms, ∀ x ∈ m.ratios, double x)
    (hn : ∀ n ∈ ns, ∀ x ∈ n.ratios, double x) (same : payload ms = payload ns) : ms = ns := by
  have text : Json.compact (.ofList datum ms) = Json.compact (.ofList datum ns) :=
    String.toByteArray_inj.1 (bytes_inj same)
  have data := Json.compact_inj (isJson_ofList finite hm) (isJson_ofList finite hn) text
  have read := listOf?_ofList finite .direct hm
  rw [data, listOf?_ofList finite .direct hn] at read
  exact (Option.some.inj read).symm

end Mutation

/-! ### The reader at hand -/

/-- Errors have no doubles, so any reader that understands integers and texts will do. -/
theorem CompileError.read?_compact {e : CompileError} (words : ∀ i ∈ e.positions, i < 2 ^ 64) :
    (Json.read? (Json.compact e.datum)).bind (ofDatum? .direct) = some e := by
  rw [Json.read?_compact (e.isJson words)]
  exact e.ofDatum?_datum words .direct

/-- A reader that rounds twice gives back the requests whose weights survive that. -/
theorem LayoutRequest.ofJson?_compact {r : LayoutRequest Float}
    (weights : r.AllWeights fun x => x.isFinite ∧ Json.Returns x) :
    ofJson? (Json.compact r.datum) = some r := by
  have finite : ∀ x : Float, x.isFinite = true ∧ Json.Returns x → x.isFinite = true :=
    fun _ h => h.1
  have json := (r.isJson finite weights).mono fun _ h => h.2
  rw [ofJson?, Json.read?_compact json]
  exact r.ofDatum?_datum finite weights

/-! ### Any faithful reader -/

/-- As JSON values, requests, mutations and errors are read as what they were. They are read so from
their texts too if these are nested at most 127 levels, which no error exceeds. What a
fingerprint is taken of is the same only for equal lists of mutations. -/
theorem json_round_trip {read? : String → Option Datum} (faithful : Json.Faithful read?) :
    (∀ r : LayoutRequest Float, r.AllWeights (fun x => x.isFinite) →
      LayoutRequest.ofDatum? r.datum = some r ∧
      (r.datum.nesting ≤ 127 →
        (read? (Json.compact r.datum)).bind LayoutRequest.ofDatum? = some r)) ∧
    (∀ ms : List (Mutation Float), (∀ m ∈ ms, ∀ x ∈ m.ratios, x.isFinite) →
      Datum.listOf? (Mutation.ofDatum? .direct) (.ofList Mutation.datum ms) = some ms ∧
      ((Datum.ofList Mutation.datum ms).nesting ≤ 127 →
        (read? (Json.compact (.ofList Mutation.datum ms))).bind
          (Datum.listOf? (Mutation.ofDatum? .direct)) = some ms)) ∧
    (∀ e : CompileError, (∀ i ∈ e.positions, i < 2 ^ 64) →
      CompileError.ofDatum? .direct e.datum = some e ∧
      (read? (Json.compact e.datum)).bind (CompileError.ofDatum? .direct) = some e) ∧
    (∀ ms : List (Mutation Float), fingerprint ms = Sha256.hexDigest (Mutation.payload ms)) ∧
    ∀ ms ns : List (Mutation Float), (∀ m ∈ ms, ∀ x ∈ m.ratios, x.isFinite) →
      (∀ n ∈ ns, ∀ x ∈ n.ratios, x.isFinite) →
      Mutation.payload ms = Mutation.payload ns → ms = ns := by
  have finite : ∀ x : Float, x.isFinite = true → x.isFinite = true := fun _ h => h
  refine ⟨fun r weights => ?request, fun ms ratios => ?mutations, fun e words => ?error,
    Mutation.fingerprint_eq, fun ms ns hm hn same => Mutation.payload_inj finite hm hn same⟩
  case request =>
    have read := r.ofDatum?_datum finite weights
    refine ⟨read, fun shallow => ?_⟩
    rw [faithful r.datum (r.isJson finite weights) shallow]
    exact read
  case mutations =>
    have read := Mutation.listOf?_ofList finite .direct ratios
    refine ⟨read, fun shallow => ?_⟩
    rw [faithful _ (Mutation.isJson_ofList finite ratios) shallow]
    exact read
  case error =>
    have read := e.ofDatum?_datum words .direct
    refine ⟨read, ?_⟩
    rw [faithful e.datum (e.isJson words) (e.nesting_le.trans (by decide))]
    exact read

/-! ### A page with an order form -/

namespace Sample

/-- Every kind of pane and of split, with links to a section and to a name, and a name that reads
like the number of a section. -/
def request : LayoutRequest Float where
  view := some ⟨3⟩
  tables := .ofList [("Orders", ⟨1⟩), ("\"Lines\"\n", ⟨2⟩)]
  layout := some (.split .horizontal
    [.pane (.leaf ⟨4⟩),
      .split .vertical
        [.pane (.existing ⟨5⟩ ⟨some "5", none, some "", some (.childOf (.id ⟨4⟩))⟩),
          .pane (.new "Orders" .cardList ⟨none, some "caf\u00e9 \\", none,
            some (.matchedBy (.name "5") "buyer" "id")⟩)] none]
    (some [0.1, -0.0]))

def mutations : List (Mutation Float) :=
  [.setLayout ⟨3⟩ (.split .horizontal 0.1 (.leaf ⟨4⟩) (.split .vertical 0.5 (.leaf ⟨5⟩) (.leaf ⟨6⟩))),
    .setLink ⟨6⟩ ⟨⟨5⟩, ⟨2⟩, ⟨0⟩⟩, .setSectionInfo ⟨6⟩ none (some "null")]

/-- The tag of the step that failed is also the field of the error that holds it. -/
def error : CompileError :=
  .collaboratorFailure (.applyMutations (some 1) (some .setLink)) "refused" []

end Sample

theorem json_round_trip_sample : Json.Faithful (Json.readWith? Json.Numeral.exact) ∧
    (Json.readWith? Json.Numeral.exact (Json.compact Sample.request.datum)).bind
      LayoutRequest.ofDatum? = some Sample.request ∧
    (Json.readWith? Json.Numeral.exact (Json.compact (.ofList Mutation.datum Sample.mutations))).bind
      (Datum.listOf? (Mutation.ofDatum? .direct)) = some Sample.mutations ∧
    (Json.readWith? Json.Numeral.exact (Json.compact Sample.error.datum)).bind
      (CompileError.ofDatum? .direct) = some Sample.error ∧
    Mutation.payload Sample.mutations ≠ Mutation.payload [] := by
  obtain ⟨requests, mutations, errors, -, payloads⟩ := json_round_trip Json.faithful_exact
  have weights : Sample.request.AllWeights fun x => x.isFinite = true := by
    rintro t ⟨⟩
    unfold Layout.AllWeights
    decide
  have ratios : ∀ m ∈ Sample.mutations, ∀ x ∈ m.ratios, x.isFinite = true := by decide
  refine ⟨Json.faithful_exact, (requests _ weights).2 (by decide), (mutations _ ratios).2 (by decide),
    (errors _ (by decide)).2, fun same => ?_⟩
  exact List.cons_ne_nil _ _ (payloads _ _ ratios (by decide) same)

end PaneLayout
