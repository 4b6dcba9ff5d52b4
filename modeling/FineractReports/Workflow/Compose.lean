import FineractReports.Workflow.Verify

/-!
# Composition of completed outputs

Fields a principal may not see are dropped from each source before the sources
are merged; the names of the dropped fields are reported.
-/

namespace FineractReports.Workflow

structure ComposeSource where
  output : Json
  outputSlots : List NodeOutputSlot

structure ComposeOutcome where
  value : Json
  droppedFields : List String

def dropHiddenSlot (maxVisible : Sensitivity) (state : List (String × Json) × List String)
    (slot : NodeOutputSlot) : List (String × Json) × List String :=
  if sensitivityRank slot.sensitivity > sensitivityRank maxVisible ∧
      (Assoc.get? state.1 slot.name).isSome = true then
    (Assoc.erase state.1 slot.name, state.2 ++ [slot.name])
  else state

def filterSensitivity (maxVisible : Sensitivity) (source : ComposeSource) :
    Json × List String :=
  match source.output with
  | .obj members =>
    let (kept, dropped) := source.outputSlots.foldl (dropHiddenSlot maxVisible) (members, [])
    (.obj kept, dropped)
  | output => (output, [])

def compose (mode : Composition) (sources : List ComposeSource) (maxVisible : Sensitivity) :
    Except String ComposeOutcome :=
  let filtered := sources.map (filterSensitivity maxVisible)
  let values := filtered.map Prod.fst
  let dropped := filtered.flatMap Prod.snd
  match mode, values with
  | .single, [value] => .ok ⟨value, dropped⟩
  | .comparison, _ :: _ | .grouped, _ :: _ => .ok ⟨.obj [("sources", .arr values)], dropped⟩
  | _, _ => .error "composition sources do not satisfy the workflow contract"

def maxVisibleSensitivity (principal : PrincipalContext) : Sensitivity :=
  if principal.canViewPii then .pii else .filterOnly

end FineractReports.Workflow
