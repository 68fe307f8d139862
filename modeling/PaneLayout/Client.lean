import PaneLayout.Native.Mutation

set_option autoImplicit false

/-!
# Clients

The document as the compiler sees it: six calls, each of which may fail and may change the state
behind it.

The state is a parameter, so the in-memory document, a recording wrapper around it and any other
client are all values of one type.
-/

namespace PaneLayout

/-- The answer to a creation: the new section and the page it is on. -/
structure CreatedWidget where
  id : SectionId
  view : ViewRef
deriving DecidableEq, Inhabited

inductive Fault where
  | plain (message : String)
  /-- One mutation of a bundle was refused; those before it may have been applied. -/
  | rejected (index : Nat) (reason : String)
deriving DecidableEq, Inhabited

def Fault.message : Fault → String
  | plain m => m
  | rejected i reason => "Mutation " ++ decimal i ++ " rejected: " ++ reason

def Fault.index? : Fault → Option Nat
  | plain _ => none
  | rejected i _ => some i

/-- The answer of a call and the state after it. -/
abbrev Reply (σ β : Type) := Except Fault β × σ

structure Client (α σ : Type) where
  /-- On a new page when no view is given. -/
  createWidget : TableRef → WidgetType → Option ViewRef → σ → Reply σ CreatedWidget
  applyMutations : List (Mutation α) → σ → Reply σ Unit
  fetchWidget : SectionId → σ → Reply σ (Option WidgetInfo)
  loadLayout : ViewRef → σ → Reply σ (Option (Native α SectionId))
  /-- Without the row id. -/
  listColumns : TableRef → σ → Reply σ (List ColumnInfo)
  /-- The table that this one summarises. -/
  summarySource : TableRef → σ → Reply σ (Option TableRef)

/-- A computation over a state that stays when it fails. -/
abbrev Run (σ ε : Type) := ExceptT ε (StateM σ)

namespace Run

variable {σ ε β : Type}

def ofReply (call : σ → Reply σ β) (onFault : Fault → ε) : Run σ ε β :=
  ExceptT.mk fun s => match call s with
    | (.ok b, s) => (.ok b, s)
    | (.error f, s) => (.error (onFault f), s)

def start (run : Run σ ε β) (s : σ) : Except ε β × σ := run.run s

end Run
end PaneLayout
