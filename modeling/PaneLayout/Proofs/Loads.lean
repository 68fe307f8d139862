import PaneLayout.LinkCheck

set_option autoImplicit false

/-!
# Checks whatever is asked for the schema

Checks of links over any two ways to get the columns and the lineage of a table. To ask the document
and keep its answers is one of them, to ask it anew each time another. Checks put together what they
get by sequencing alone.
-/

namespace PaneLayout

variable {α σ τ : Type}

/-- Ways to get the columns of a table, and the table that it summarises. -/
structure Loads (τ : Type) where
  columns : TableRef → Run τ CompileError (List ColumnInfo)
  lineage : TableRef → Run τ CompileError (Option TableRef)

namespace Loads

/-! ## Checks -/

section

variable (L : Loads τ) (rules : LinkRules)

def column (t : TableRef) (id label : String) : Run τ CompileError ColumnInfo := do
  if id == rowIdColumn then return .rowId
  let cols ← L.columns t
  match cols.find? fun c => c.id == id with
  | some c => return c
  | none =>
    throw (.unknownColumn (TableMap.displayName rules.tables t) id label
      (LinkCheck.knownColumns cols))

def sourceColumn (l : Link) (ends : LinkEnds) (label : String) : Run τ CompileError ColumnRef := do
  match l.sourceCol with
  | some id =>
    let c ← L.column rules ends.source id label
    match if rules.columnKinds then LinkCheck.kindViolation? l c label else none with
    | some v => throw (.malformed v)
    | none => return c.ref
  | none => return .unset

def targetColumn (l : Link) (ends : LinkEnds) (label : String) : Run τ CompileError ColumnRef := do
  match l.targetCol with
  | some id => return (← L.column rules ends.owner id label).ref
  | none => return .unset

def checkLineage (l : Link) (ends : LinkEnds) (label : String) : Run τ CompileError Unit := do
  if rules.lineage && l.kind = .breakdownOf then
    let source ← L.lineage ends.owner
    if source ≠ some ends.source then
      throw (.malformed (.notSummary label (TableMap.displayName rules.tables ends.owner)
        (TableMap.displayName rules.tables ends.source)))

def check (l : Link) (ends : LinkEnds) (label : String) :
    Run τ CompileError (ColumnRef × ColumnRef) := do
  let label := l.text ++ " on " ++ label
  let source ← L.sourceColumn rules l ends label
  let target ← L.targetColumn rules l ends label
  L.checkLineage rules l ends label
  return (source, target)

def resolve (l : Link) (source : SectionId) (ends : LinkEnds) (label : String) :
    Run τ CompileError LinkTuple := do
  let (sourceCol, targetCol) ← L.check rules l ends label
  return ⟨source, sourceCol, targetCol⟩

end

/-! ## Ways to get the schema -/

/-- The document is asked, and what it answers is kept. -/
def keeping (client : Client α σ) : Loads (Schooled σ) :=
  ⟨LinkCheck.columns client, LinkCheck.summarySource client⟩

/-- The document is asked each time. -/
def asking (client : Client α σ) : Loads σ where
  columns t := Run.ofReply (client.listColumns t) fun f =>
    .collaboratorFailure (.loadSchema t) f.message []
  lineage t := Run.ofReply (client.summarySource t) fun f =>
    .collaboratorFailure (.loadSchema t) f.message []

theorem check_keeping (client : Client α σ) (rules : LinkRules) (l : Link) (ends : LinkEnds)
    (label : String) : (keeping client).check rules l ends label =
      LinkCheck.check client rules l ends label := rfl

theorem resolve_keeping (client : Client α σ) (rules : LinkRules) (l : Link) (source : SectionId)
    (ends : LinkEnds) (label : String) : (keeping client).resolve rules l source ends label =
      LinkCheck.resolve client rules l source ends label := rfl

/-! ## Relations between checks -/

/-- Closed under sequencing, and true of the errors that checks raise and of the two ways to get
the schema. -/
structure Related (P : ∀ {β : Type}, Run σ CompileError β → Run τ CompileError β → Prop)
    (L : Loads σ) (M : Loads τ) : Prop where
  done : ∀ {β : Type} (b : β), P (pure b) (pure b)
  fail : ∀ {β : Type} (e : CompileError), e.created = [] →
    P (throw e : Run σ CompileError β) (throw e)
  bind : ∀ {β γ : Type} {x : Run σ CompileError β} {y : Run τ CompileError β}
    {f : β → Run σ CompileError γ} {g : β → Run τ CompileError γ},
    P x y → (∀ b, P (f b) (g b)) → P (x >>= f) (y >>= g)
  columns : ∀ t, P (L.columns t) (M.columns t)
  lineage : ∀ t, P (L.lineage t) (M.lineage t)

namespace Related

variable {P : ∀ {β : Type}, Run σ CompileError β → Run τ CompileError β → Prop} {L : Loads σ}
  {M : Loads τ} (h : Related P L M) (rules : LinkRules)
include h

theorem column (t : TableRef) (id label : String) :
    P (L.column rules t id label) (M.column rules t id label) := by
  unfold Loads.column
  split
  · exact h.done _
  · refine h.bind (h.columns t) fun cols => ?_
    split
    · exact h.done _
    · exact h.fail _ rfl

theorem sourceColumn (l : Link) (ends : LinkEnds) (label : String) :
    P (L.sourceColumn rules l ends label) (M.sourceColumn rules l ends label) := by
  unfold Loads.sourceColumn
  cases l.sourceCol with
  | none => exact h.done _
  | some id =>
    refine h.bind (h.column rules ends.source id label) fun c => ?_
    cases if rules.columnKinds = true then LinkCheck.kindViolation? l c label else none with
    | some v => exact h.fail _ rfl
    | none => exact h.done _

theorem targetColumn (l : Link) (ends : LinkEnds) (label : String) :
    P (L.targetColumn rules l ends label) (M.targetColumn rules l ends label) := by
  unfold Loads.targetColumn
  cases l.targetCol with
  | none => exact h.done _
  | some id => exact h.bind (h.column rules ends.owner id label) fun c => h.done _

theorem checkLineage (l : Link) (ends : LinkEnds) (label : String) :
    P (L.checkLineage rules l ends label) (M.checkLineage rules l ends label) := by
  unfold Loads.checkLineage
  split
  · refine h.bind (h.lineage ends.owner) fun source => ?_
    split
    · exact h.fail _ rfl
    · exact h.done _
  · exact h.done _

theorem check (l : Link) (ends : LinkEnds) (label : String) :
    P (L.check rules l ends label) (M.check rules l ends label) :=
  h.bind (h.sourceColumn rules l ends _) fun _ =>
    h.bind (h.targetColumn rules l ends _) fun _ =>
      h.bind (h.checkLineage rules l ends _) fun _ => h.done _

theorem resolve (l : Link) (source : SectionId) (ends : LinkEnds) (label : String) :
    P (L.resolve rules l source ends label) (M.resolve rules l source ends label) :=
  h.bind (h.check rules l ends label) fun _ => h.done _

end Related
end Loads
end PaneLayout
