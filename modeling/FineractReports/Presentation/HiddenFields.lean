import FineractReports.Knowledge.Validator
import FineractReports.Presentation.Builder

/-!
# Hidden fields

What a response shows depends on the visible fields of the rows only. A field is shown
under its name, so a name that is declared both hidden and visible is shown.
-/

namespace FineractReports.Presentation

open Execution

section Rows

variable {fields : List QueryOutputField} {canViewPii : Bool}

/-- A projected field of the name is visible. -/
def ShownBy (fields : List QueryOutputField) (canViewPii : Bool) (name : String) : Prop :=
  ∃ field ∈ fields, field.name = name ∧ isHidden field canViewPii = false

theorem takeField_hidden {state : List (String × Json) × List (String × Json)}
    {field : QueryOutputField} (h : isHidden field canViewPii = true) :
    takeField canViewPii state field = state :=
  if_pos h

theorem takeField_present {source out : List (String × Json)} {field : QueryOutputField}
    {value : Json} (h : isHidden field canViewPii = false)
    (hvalue : Assoc.get? source field.name = some value) :
    takeField canViewPii (source, out) field =
      (Assoc.erase source field.name, Assoc.insert out field.name value) := by
  unfold takeField
  rw [h, hvalue]
  rfl

theorem takeField_absent {source out : List (String × Json)} {field : QueryOutputField}
    (h : isHidden field canViewPii = false) (hnone : Assoc.get? source field.name = none) :
    takeField canViewPii (source, out) field = (source, out) := by
  unfold takeField
  rw [h, hnone]
  rfl

theorem shownBy_cons {field : QueryOutputField} {name : String} :
    ShownBy (field :: fields) canViewPii name ↔
      (field.name = name ∧ isHidden field canViewPii = false) ∨
        ShownBy fields canViewPii name := by
  simp [ShownBy]

/-- What filtering leaves of a name: the value of the source when the name is shown. -/
theorem foldl_takeField_get? (source out : List (String × Json)) (name : String) :
    (ShownBy fields canViewPii name →
      Assoc.get? (fields.foldl (takeField canViewPii) (source, out)).2 name =
        (Assoc.get? source name).or (Assoc.get? out name)) ∧
    (¬ ShownBy fields canViewPii name →
      Assoc.get? (fields.foldl (takeField canViewPii) (source, out)).2 name =
        Assoc.get? out name) := by
  induction fields generalizing source out with
  | nil => simp [ShownBy]
  | cons field rest ih =>
    rw [List.foldl_cons, shownBy_cons]
    cases hhidden : isHidden field canViewPii with
    | true =>
      rw [takeField_hidden hhidden]
      simpa using ih source out
    | false =>
      cases hvalue : Assoc.get? source field.name with
      | none =>
        rw [takeField_absent hhidden hvalue]
        obtain ⟨hshown, hunshown⟩ := ih source out
        refine ⟨?_, ?_⟩
        · rintro (⟨rfl, -⟩ | hrest)
          · by_cases hrest : ShownBy rest canViewPii field.name
            · exact hshown hrest
            · rw [hunshown hrest, hvalue, Option.none_or]
          · exact hshown hrest
        · intro hnot
          exact hunshown fun hrest => hnot (Or.inr hrest)
      | some value =>
        rw [takeField_present hhidden hvalue]
        obtain ⟨hshown, hunshown⟩ :=
          ih (Assoc.erase source field.name) (Assoc.insert out field.name value)
        by_cases hname : field.name = name
        · subst hname
          refine ⟨?_, fun hnot => absurd (Or.inl ⟨rfl, rfl⟩) hnot⟩
          intro _
          rw [hvalue, Option.some_or]
          by_cases hrest : ShownBy rest canViewPii field.name
          · rw [hshown hrest, Assoc.get?_erase, if_pos rfl, Option.none_or,
              Assoc.get?_insert_self]
          · rw [hunshown hrest, Assoc.get?_insert_self]
        · refine ⟨?_, ?_⟩
          · rintro (⟨habsurd, -⟩ | hrest)
            · exact absurd habsurd hname
            · rw [hshown hrest, Assoc.get?_erase, if_neg hname, Assoc.get?_insert_of_ne _ _ hname]
          · intro hnot
            rw [hunshown fun hrest => hnot (Or.inr hrest), Assoc.get?_insert_of_ne _ _ hname]

theorem filteredMembers_get? (source : List (String × Json)) (name : String) (value : Json) :
    Assoc.get? (filteredMembers source fields canViewPii) name = some value ↔
      ShownBy fields canViewPii name ∧ Assoc.get? source name = some value := by
  obtain ⟨hshown, hunshown⟩ := @foldl_takeField_get? fields canViewPii source [] name
  unfold filteredMembers
  by_cases h : ShownBy fields canViewPii name
  · rw [hshown h]
    simp [h]
  · rw [hunshown h]
    simp [h]

/-- Sources that agree on the shown names are filtered to the same row. -/
theorem foldl_takeField_congr (a b out : List (String × Json))
    (h : ∀ name, ShownBy fields canViewPii name → Assoc.get? a name = Assoc.get? b name) :
    (fields.foldl (takeField canViewPii) (a, out)).2 =
      (fields.foldl (takeField canViewPii) (b, out)).2 := by
  induction fields generalizing a b out with
  | nil => rfl
  | cons field rest ih =>
    have hrest : ∀ name, ShownBy rest canViewPii name → Assoc.get? a name = Assoc.get? b name :=
      fun name hname => h name (shownBy_cons.mpr (Or.inr hname))
    rw [List.foldl_cons, List.foldl_cons]
    cases hhidden : isHidden field canViewPii with
    | true =>
      rw [takeField_hidden hhidden, takeField_hidden hhidden]
      exact ih a b out hrest
    | false =>
      have hsame := h field.name (shownBy_cons.mpr (Or.inl ⟨rfl, hhidden⟩))
      cases hvalue : Assoc.get? a field.name with
      | none =>
        rw [takeField_absent hhidden hvalue, takeField_absent hhidden (hsame ▸ hvalue)]
        exact ih a b out hrest
      | some value =>
        rw [takeField_present hhidden hvalue, takeField_present hhidden (hsame ▸ hvalue)]
        apply ih
        intro name hname
        rw [Assoc.get?_erase, Assoc.get?_erase, hrest name hname]

end Rows

section Response

variable (decimals : DecimalNumbers) (showJson : Json → String)
  (catalog : KnowledgeCatalog) (plan : ExecutionPlan) (policy : PolicyDecision)

/-- The output fields the plan's dataset shape or query declares, projected or not. -/
def declaredFields : List QueryOutputField :=
  match datasetFields catalog plan with
  | some (fields, _) => fields.map fieldOf
  | none => queryFields catalog plan

/-- A declared field of the name is hidden by the policy. -/
def HiddenName (name : String) : Prop :=
  ∃ field ∈ declaredFields catalog plan, field.name = name ∧
    isHidden field policy.canViewPii = true

def Declared (name : String) : Prop := ∃ field ∈ declaredFields catalog plan, field.name = name

/-- The rows differ in hidden fields and undeclared keys only. -/
def AgreeOnVisible (a b : List (String × Json)) : Prop :=
  ∀ name, Declared catalog plan name → ¬ HiddenName catalog plan policy name →
    Assoc.get? a name = Assoc.get? b name

/-- A name the response may show: projected and visible, and hidden by no declaration. -/
def MayShow (name : String) : Prop :=
  ShownBy (responseFields catalog plan) policy.canViewPii name ∧
    ¬ HiddenName catalog plan policy name

/-- A response does not depend on hidden fields and undeclared keys, and every row of its
table holds values the row had, of fields the response may show. -/
def HidesFields : Prop :=
  (∀ (toolResult : ToolResult) (rows rows' : List (List (String × Json))),
    List.Forall₂ (AgreeOnVisible catalog plan policy) rows rows' →
    ResponseBuilder.fromToolResult decimals showJson plan policy
        { toolResult with rows := rows.map .obj } catalog =
      ResponseBuilder.fromToolResult decimals showJson plan policy
        { toolResult with rows := rows'.map .obj } catalog) ∧
  ∀ (toolResult : ToolResult) (rows : List (List (String × Json))),
    toolResult.rows = rows.map .obj → ∃ table,
      (ResponseBuilder.fromToolResult decimals showJson plan policy toolResult catalog).table =
        some table ∧
      List.Forall₂ (fun source shown => ∃ members, shown = .obj members ∧
        ∀ name value, Assoc.get? members name = some value →
          MayShow catalog plan policy name ∧ Assoc.get? source name = some value) rows table.rows

/-- No name is declared by a hidden field and shown by a visible one. -/
def NamesUnmixed : Prop :=
  ∀ name, ShownBy (responseFields catalog plan) policy.canViewPii name →
    ¬ HiddenName catalog plan policy name

variable {decimals showJson catalog plan policy}

theorem responseFields_declared {field : QueryOutputField}
    (h : field ∈ responseFields catalog plan) : field ∈ declaredFields catalog plan := by
  unfold responseFields at h
  unfold declaredFields
  cases hdataset : datasetFields catalog plan with
  | none =>
    rw [hdataset] at h
    exact h
  | some selected =>
    rw [hdataset] at h
    obtain ⟨declared, hin, rfl⟩ := List.mem_map.mp h
    exact List.mem_map_of_mem (List.mem_filter.mp hin).1

theorem filteredRows_congr (hnames : NamesUnmixed catalog plan policy)
    {rows rows' : List (List (String × Json))}
    (h : List.Forall₂ (AgreeOnVisible catalog plan policy) rows rows') :
    (rows.map Json.obj).map
        (fun row => filteredRow row (responseFields catalog plan) policy.canViewPii) =
      (rows'.map Json.obj).map
        fun row => filteredRow row (responseFields catalog plan) policy.canViewPii := by
  induction h with
  | nil => rfl
  | @cons a b rest rest' hagree _ ih =>
    simp only [List.map_cons, ih, List.cons.injEq, and_true]
    apply congrArg Json.obj
    apply foldl_takeField_congr
    intro name hshown
    obtain ⟨field, hfield, hname, hvisible⟩ := hshown
    exact hagree name ⟨field, responseFields_declared hfield, hname⟩
      (hnames name ⟨field, hfield, hname, hvisible⟩)

theorem fromToolResult_table (toolResult : ToolResult) :
    ((ResponseBuilder.fromToolResult decimals showJson plan policy toolResult catalog).table).map
        (·.rows) =
      some (toolResult.rows.map fun row =>
        filteredRow row (responseFields catalog plan) policy.canViewPii) := rfl

/-- The visible name of a hidden field carries its value into the table. -/
theorem HidesFields.namesUnmixed (h : HidesFields decimals showJson catalog plan policy) :
    NamesUnmixed catalog plan policy := by
  intro name hshown hhidden
  have hagree : AgreeOnVisible catalog plan policy [(name, .str "a")] [(name, .str "b")] := by
    intro other _ hvisible
    have hne : name ≠ other := by
      rintro rfl
      exact hvisible hhidden
    rw [Assoc.get?_cons, Assoc.get?_cons, if_neg hne, if_neg hne]
  have hsame := h.1 ⟨"approved_catalog_sql", true, [], none, [], none⟩ _ _
    (List.Forall₂.cons hagree .nil)
  have hrows := congrArg (fun response => response.table.map (·.rows)) hsame
  simp only [fromToolResult_table, List.map_cons, List.map_nil, Option.some.injEq,
    List.cons.injEq, and_true] at hrows
  have hmembers := Json.obj.inj hrows
  have hleft := (filteredMembers_get? [(name, .str "a")] name (.str "a")).mpr
    ⟨hshown, by simp [Assoc.get?_cons]⟩
  rw [hmembers] at hleft
  have hright := ((filteredMembers_get? [(name, .str "b")] name (.str "a")).mp hleft).2
  simp [Assoc.get?_cons] at hright

/-- Hidden fields stay out of the response exactly when no name is declared both ways. -/
theorem hidesFields_iff :
    HidesFields decimals showJson catalog plan policy ↔ NamesUnmixed catalog plan policy := by
  refine ⟨HidesFields.namesUnmixed, ?_⟩
  intro hnames
  refine ⟨?_, ?_⟩
  · intro toolResult rows rows' hrows
    unfold ResponseBuilder.fromToolResult
    dsimp only
    rw [filteredRows_congr hnames hrows]
    rfl
  · intro toolResult rows hrows
    refine ⟨_, rfl, ?_⟩
    dsimp only
    rw [hrows, List.map_map, List.forall₂_map_right_iff, List.forall₂_same]
    intro source _
    refine ⟨_, rfl, ?_⟩
    intro name value hvalue
    obtain ⟨hshown, hsource⟩ := (filteredMembers_get? source name value).mp hvalue
    exact ⟨⟨hshown, hnames name hshown⟩, hsource⟩

end Response

namespace NameLookup

open FineractReports.NameLookup (catalog capability query files)

/-- The decimal numbers without a fraction. -/
def wholeNumbers : DecimalNumbers where
  Number := ℤ
  parse := Text.parseI64
  zero := 0
  add := (· + ·)
  rounded := fun value digits =>
    if digits = 0 then toString value
    else toString value ++ "." ++ String.ofList (List.replicate digits '0')

/-- The client name, declared once more as a public field. -/
def aliasedQuery : QueryKnowledge :=
  { query with outputFields := query.outputFields ++ [⟨"display_name", "string", .publicBusiness⟩] }

def aliasedCatalog : KnowledgeCatalog := { catalog with queries := [aliasedQuery] }

def plan : ExecutionPlan where
  domain := "client"
  capability := capability.id
  queryId := query.id
  datasetSelection := none
  outputMode := "list"
  params := .obj [("search", .str "Tony")]

/-- The caller has no permission for personal data. -/
def policy : PolicyDecision := ⟨.allowed, none, [1], false⟩

def toolResult : ToolResult where
  toolName := "approved_catalog_sql"
  ok := true
  rows := [.obj [("client_id", .int 5), ("display_name", .str "Tony")]]
  summary := none
  evidenceRefs := []
  truncated := none

/-- The catalog is valid, and the hidden client name is in the table. -/
theorem hidden_name_shown :
    KnowledgeValidator.validate aliasedCatalog files Text.asciiLower = .ok () ∧
      HiddenName aliasedCatalog plan policy "display_name" ∧
      (ResponseBuilder.fromToolResult wholeNumbers (fun _ => "") plan policy toolResult
        aliasedCatalog).table.map (·.rows) = some toolResult.rows ∧
      ¬ HidesFields wholeNumbers (fun _ => "") aliasedCatalog plan policy := by
  have hhidden : HiddenName aliasedCatalog plan policy "display_name" :=
    ⟨⟨"display_name", "string", .pii⟩, by decide, rfl, rfl⟩
  have hshown : ShownBy (responseFields aliasedCatalog plan) policy.canViewPii "display_name" :=
    ⟨⟨"display_name", "string", .publicBusiness⟩, by decide, rfl, rfl⟩
  refine ⟨by decide +kernel, hhidden, by decide, ?_⟩
  intro hhides
  exact hhides.namesUnmixed "display_name" hshown hhidden

end NameLookup

end FineractReports.Presentation
